import Mathlib.Data.List.Pairwise
import SourceAtlas.Proofs.Scope.Key
import SourceAtlas.Proofs.Scope.Sharing

/-!
# Packages

A package holds the files of a directory in the order in which they were added, and what they share,
file by file. Linking imports does not change this. So a plain name that is not bound in a file is
looked up in what the files of its package share.

* `ScopeBuilder.childrenOf_joinPackage`, `ScopeBuilder.definitionsOf_joinPackage`: one file;
* `ScopeGraph.Aggregates`: packages hold their files and what they share;
* `ScopeBuilder.aggregates_run`, `ScopeBuilder.aggregates_finish`: this holds after any files with
  different paths were added;
* `ScopeGraph.IsHoused`: the scopes inside of a file;
* **`ScopeBuilder.package_of_directory`**: the package of a directory.
-/

namespace SourceAtlas

namespace ScopeGraph

open ScopeBuilder (isShared)

variable {g h : ScopeGraph} {i f k : Nat} {key : String} {path : Path} {paths : List Path}

theorem parentOf_addPackage : (g.addPackage key).1.parentOf i = g.parentOf i := by
  unfold addPackage
  split
  · rfl
  · refine (parentOf_push _ _ _).trans ?_
    split_ifs with hi
    · rw [hi, parentOf, scope?_size]
      rfl
    · rfl

theorem childrenOf_addPackage : (g.addPackage key).1.childrenOf i = g.childrenOf i := by
  unfold addPackage
  split
  · rfl
  · exact childrenOf_push _ _ _

theorem fileOf_addPackage : (g.addPackage key).1.fileOf i = g.fileOf i := by
  unfold addPackage
  split
  · rfl
  · change (g.push .package none none).fileOf i = _
    rw [fileOf_eq_labelOf, labelOf_push]
    split_ifs with hi
    · rw [hi, fileOf, scope?_size]
      rfl
    · rw [fileOf_eq_labelOf]

theorem parentOf_extend (ds : List Definition) :
    (g.modify k fun s => { s with definitions := s.definitions ++ ds }).parentOf i = g.parentOf i :=
  parentOf_modify fun _ => rfl

theorem labelOf_extend (ds : List Definition) :
    (g.modify k fun s => { s with definitions := s.definitions ++ ds }).labelOf i = g.labelOf i :=
  labelOf_modify (fun _ => rfl) fun _ => rfl

theorem childrenOf_extend (ds : List Definition) :
    (g.modify k fun s => { s with definitions := s.definitions ++ ds }).childrenOf i =
      g.childrenOf i :=
  childrenOf_modify fun _ => rfl

namespace IsTabled

theorem package?_lt (hg : g.IsTabled) (hk : g.package? key = some k) : k < g.size := by
  obtain ⟨q, hq, -⟩ := hg.package?_eq_some_iff.mp hk
  exact hg.package_lt hq

theorem file?_lt (hg : g.IsTabled) (hf : g.file? path = some f) : f < g.size := by
  obtain ⟨q, hq, -⟩ := hg.file?_eq_some_iff.mp hf
  exact hg.file_lt hq

theorem file?_ne_package? (hg : g.IsTabled) (hf : g.file? path = some f)
    (hk : g.package? key = some k) : f ≠ k := by
  rintro rfl
  obtain ⟨q, hq, -⟩ := hg.file?_eq_some_iff.mp hf
  obtain ⟨r, hr, -⟩ := hg.package?_eq_some_iff.mp hk
  have hlabel := (hg.label_file _ hq).symm.trans (hg.label_package _ hr)
  cases hlabel

theorem package?_inj (hg : g.IsTabled) {key' : String} (hk : g.package? key = some k)
    (hk' : g.package? key' = some k) : key = key' := by
  obtain ⟨q, hq, hkey⟩ := hg.package?_eq_some_iff.mp hk
  obtain ⟨r, hr, hkey'⟩ := hg.package?_eq_some_iff.mp hk'
  obtain rfl := hg.packages.eq_of_scope hq hr
  exact (beq_iff_eq.mp hkey).symm.trans (beq_iff_eq.mp hkey')

theorem addPackage_fits (hg : g.IsTabled) (hf : g.file? path = some f) (key : String) :
    f ≠ (g.addPackage key).2 ∧ f < (g.addPackage key).1.size ∧
      (g.addPackage key).2 < (g.addPackage key).1.size := by
  have hadded := hg.addPackage key
  have hfound : (g.addPackage key).1.file? path = some f := by
    rw [file?, ScopeBuilder.files_addPackage]
    exact hf
  have hpackage := package?_addPackage_self g key
  exact ⟨hadded.file?_ne_package? hfound hpackage, hadded.file?_lt hfound,
    hadded.package?_lt hpackage⟩

end IsTabled

end ScopeGraph

/-! ## One file -/

namespace ScopeBuilder

open ScopeGraph

section Join

variable {g : ScopeGraph} {path : Path} {f i : Nat} (hg : g.IsTabled)
  (hf : g.file? path = some f)

include hg hf

theorem parentOf_joinPackage : (joinPackage g path f).parentOf i =
    if i = f then some (g.addPackage path.packageKey).2 else g.parentOf i := by
  obtain ⟨hne, hlt, hlt'⟩ := hg.addPackage_fits hf path.packageKey
  rw [joinPackage_eq, parentOf_extend, parentOf_setParent hne hlt hlt', parentOf_addPackage]

theorem fileOf_joinPackage : (joinPackage g path f).fileOf i = g.fileOf i := by
  obtain ⟨hne, hlt, hlt'⟩ := hg.addPackage_fits hf path.packageKey
  rw [joinPackage_eq, fileOf_eq_labelOf, labelOf_extend, labelOf_setParent hne hlt hlt',
    ← fileOf_eq_labelOf, fileOf_addPackage]

theorem childrenOf_joinPackage (hroot : g.parentOf f = none) :
    (joinPackage g path f).childrenOf i =
      g.childrenOf i ++ if (g.addPackage path.packageKey).2 = i then [f] else [] := by
  obtain ⟨hne, hlt, hlt'⟩ := hg.addPackage_fits hf path.packageKey
  rw [joinPackage_eq, childrenOf_extend, childrenOf_setParent hne hlt hlt', parentOf_addPackage,
    childrenOf_addPackage, hroot, if_neg (by simp)]

theorem definitionsOf_joinPackage : (joinPackage g path f).definitionsOf i =
    g.definitionsOf i ++ if (g.addPackage path.packageKey).2 = i then
      (g.definitionsOf f).filter isShared else [] := by
  obtain ⟨hne, hlt, hlt'⟩ := hg.addPackage_fits hf path.packageKey
  have hsize : (g.addPackage path.packageKey).2 <
      ((g.addPackage path.packageKey).1.setParent f (g.addPackage path.packageKey).2).size := by
    rw [setParent_eq hne hlt hlt', size_modify, size_modify, size_detach]
    exact hlt'
  rw [joinPackage_eq, definitionsOf_extend hsize, definitionsOf_setParent,
    definitionsOf_addPackage]

/-- The scope of a file is not that of a package, so a file gets no definitions. -/
theorem definitionsOf_joinPackage_of_file {p : Path} (hi : g.file? p = some i) :
    (joinPackage g path f).definitionsOf i = g.definitionsOf i := by
  have hne := (hg.addPackage_fits hi path.packageKey).1
  rw [definitionsOf_joinPackage hg hf, if_neg hne.symm, List.append_nil]

omit hg hf in
theorem package?_joinPackage (key : String) : (joinPackage g path f).package? key =
    if path.packageKey = key then some (g.addPackage path.packageKey).2 else g.package? key := by
  rw [← package?_addPackage, package?, packages_joinPackage]
  rfl

omit hg hf in
theorem file?_joinPackage (q : Path) : (joinPackage g path f).file? q = g.file? q := by
  rw [file?, files_joinPackage]
  rfl

omit hf in
theorem package?_joinPackage_cases {key : String} {k : Nat}
    (hk : (joinPackage g path f).package? key = some k) :
    path.packageKey = key ∧ (g.addPackage path.packageKey).2 = k ∨
      path.packageKey ≠ key ∧ (g.addPackage path.packageKey).2 ≠ k ∧ g.package? key = some k := by
  rw [package?_joinPackage] at hk
  split_ifs at hk with hkey
  · exact .inl ⟨hkey, Option.some.inj hk⟩
  · refine .inr ⟨hkey, fun heq => hkey ?_, hk⟩
    have hown := package?_addPackage_self g path.packageKey
    have hother : (g.addPackage path.packageKey).1.package? key = some k := by
      rw [package?_addPackage, if_neg hkey, hk]
    exact (hg.addPackage _).package?_inj (heq ▸ hown) hother

end Join

end ScopeBuilder

namespace ScopeGraph

open ScopeBuilder (isShared)

variable {g h : ScopeGraph} {i f k : Nat} {key : String} {path : Path} {paths : List Path}

/-! ## The files of packages -/

/-- There are packages for the directories of some files. A package holds its files, in their order,
and what they share, file by file. -/
structure Aggregates (g : ScopeGraph) (paths : List Path) : Prop where
  package : ∀ key, (g.package? key).isSome = true ↔ ∃ p ∈ paths, p.packageKey = key
  children : ∀ key k, g.package? key = some k →
    (g.childrenOf k).map some = (paths.filter (·.packageKey = key)).map g.file?
  parent : ∀ key k, g.package? key = some k → ∀ f ∈ g.childrenOf k, g.parentOf f = some k
  definitions : ∀ key k, g.package? key = some k →
    g.definitionsOf k = (g.childrenOf k).flatMap fun f => (g.definitionsOf f).filter isShared

namespace Aggregates

theorem exists_path (hg : g.Aggregates paths) (hk : g.package? key = some k)
    (hf : f ∈ g.childrenOf k) : ∃ p ∈ paths, g.file? p = some f := by
  have hmem : some f ∈ (paths.filter (·.packageKey = key)).map g.file? := by
    rw [← hg.children key k hk]
    exact List.mem_map_of_mem hf
  obtain ⟨p, hp, hfile⟩ := List.mem_map.mp hmem
  exact ⟨p, List.mem_of_mem_filter hp, hfile⟩

/-- Packages stay the same if nothing happens to them and their files but that definitions are
changed which are not shared. -/
theorem keep (hg : g.Aggregates paths) (hpackage : ∀ key, h.package? key = g.package? key)
    (hfile : ∀ p ∈ paths, h.file? p = g.file? p)
    (hpackages : ∀ key k, g.package? key = some k →
      h.childrenOf k = g.childrenOf k ∧ h.definitionsOf k = g.definitionsOf k)
    (hfiles : ∀ p ∈ paths, ∀ f, g.file? p = some f → h.parentOf f = g.parentOf f ∧
      (h.definitionsOf f).filter isShared = (g.definitionsOf f).filter isShared) :
    h.Aggregates paths where
  package key := by rw [hpackage, hg.package]
  children key k hk := by
    rw [hpackage] at hk
    rw [(hpackages key k hk).1, hg.children key k hk]
    refine List.map_congr_left fun p hp => ?_
    rw [hfile p (List.mem_of_mem_filter hp)]
  parent key k hk f hf := by
    rw [hpackage] at hk
    rw [(hpackages key k hk).1] at hf
    obtain ⟨p, hp, hfound⟩ := hg.exists_path hk hf
    rw [(hfiles p hp f hfound).1, hg.parent key k hk f hf]
  definitions key k hk := by
    rw [hpackage] at hk
    rw [(hpackages key k hk).1, (hpackages key k hk).2, hg.definitions key k hk]
    refine List.flatMap_congr fun f hf => ?_
    obtain ⟨p, hp, hfound⟩ := hg.exists_path hk hf
    exact (hfiles p hp f hfound).2.symm

/-- What is said about packages also holds of one that is still to be added and holds nothing. -/
theorem addPackage (hg : g.Aggregates paths) (key : String) :
    (g.childrenOf (g.addPackage key).2).map some =
      (paths.filter (·.packageKey = key)).map g.file? ∧
    (∀ f ∈ g.childrenOf (g.addPackage key).2, g.parentOf f = some (g.addPackage key).2) ∧
    g.definitionsOf (g.addPackage key).2 = (g.childrenOf (g.addPackage key).2).flatMap
      fun f => (g.definitionsOf f).filter isShared := by
  unfold ScopeGraph.addPackage
  cases hk : g.package? key with
  | some k => exact ⟨hg.children key k hk, hg.parent key k hk, hg.definitions key k hk⟩
  | none =>
    have hnone : paths.filter (·.packageKey = key) = [] := by
      rw [List.filter_eq_nil_iff]
      intro p hp hkey
      have hsome := (hg.package key).mpr ⟨p, hp, of_decide_eq_true hkey⟩
      rw [hk] at hsome
      cases hsome
    have hempty : g.childrenOf g.size = [] := by
      rw [childrenOf, scope?_size]
      rfl
    simp [hnone, hempty, definitionsOf_size]

theorem exists_scope (hg : g.Aggregates paths) (htabled : g.IsTabled) (hplaced : g.IsPlaced)
    (hpath : path ∈ paths) : ∃ package : Scope,
      g.package? path.packageKey = some package.id ∧ g.scope? package.id = some package ∧
      package.kind = .package ∧ package.parent = none ∧
      package.children.map some =
        (paths.filter (·.packageKey = path.packageKey)).map g.file? ∧
      package.definitions =
        package.children.flatMap (fun f => (g.definitionsOf f).filter isShared) ∧
      ∀ f ∈ package.children, g.parentOf f = some package.id := by
  obtain ⟨k, hk⟩ := Option.isSome_iff_exists.mp
    ((hg.package path.packageKey).mpr ⟨path, hpath, rfl⟩)
  obtain ⟨package, hpackage⟩ := scope?_isSome (htabled.package?_lt hk)
  obtain rfl := hplaced.id_eq k package hpackage
  have hheld : g.childrenOf package.id = package.children := by
    rw [childrenOf, hpackage]
    rfl
  obtain ⟨q, hq, -⟩ := htabled.package?_eq_some_iff.mp hk
  have hlabel := htabled.label_package _ hq
  rw [labelOf, hpackage, Option.map_some, Option.some.injEq] at hlabel
  obtain ⟨hkind, hnofile⟩ := Prod.mk.inj hlabel
  have hroot : package.parent = none := by
    cases hplaced.place _ _ hpackage with
    | package h => exact h.2.1
    | file _ hfile _ => simp [hnofile] at hfile
    | inner _ _ _ hsame hfile => simp [← hsame, hnofile] at hfile
  refine ⟨package, hk, hpackage, hkind, hroot, ?_⟩
  rw [← hheld, ← definitionsOf_eq hpackage]
  exact ⟨hg.children _ _ hk, hg.definitions _ _ hk, hg.parent _ _ hk⟩

open ScopeBuilder in
theorem exists_path_join (hg : g.Aggregates paths) (htabled : g.IsTabled)
    (hf : g.file? path = some f) (hroot : g.parentOf f = none)
    (hk : (joinPackage g path f).package? key = some k)
    (hi : i ∈ (joinPackage g path f).childrenOf k) : ∃ p, g.file? p = some i := by
  rw [childrenOf_joinPackage htabled hf hroot, List.mem_append] at hi
  rcases hi with hi | hi
  · rcases package?_joinPackage_cases htabled hk with ⟨rfl, rfl⟩ | ⟨-, -, hk⟩
    · have hmem := List.mem_map_of_mem (f := some) hi
      rw [(hg.addPackage path.packageKey).1] at hmem
      obtain ⟨p, -, hp⟩ := List.mem_map.mp hmem
      exact ⟨p, hp⟩
    · obtain ⟨p, -, hp⟩ := hg.exists_path hk hi
      exact ⟨p, hp⟩
  · split_ifs at hi
    · exact ⟨path, List.mem_singleton.mp hi ▸ hf⟩
    · exact absurd hi List.not_mem_nil

open ScopeBuilder in
/-- **A file that joins its package is the last of its files.** -/
theorem join (hg : g.Aggregates paths) (htabled : g.IsTabled) (hf : g.file? path = some f)
    (hroot : g.parentOf f = none) : (joinPackage g path f).Aggregates (paths ++ [path]) where
  package key := by
    rw [package?_joinPackage]
    split_ifs with hkey
    · simp [hkey]
    · rw [hg.package]
      simp [hkey]
  children key k hk := by
    have hfiles : (joinPackage g path f).file? = g.file? := funext file?_joinPackage
    rw [childrenOf_joinPackage htabled hf hroot, List.map_append, hfiles, List.filter_append,
      List.map_append]
    rcases package?_joinPackage_cases htabled hk with ⟨rfl, rfl⟩ | ⟨hkey, hne, hk⟩
    · simp [(hg.addPackage path.packageKey).1, hf]
    · simp [hg.children key k hk, hkey, hne]
  parent key k hk c hc := by
    rw [childrenOf_joinPackage htabled hf hroot] at hc
    rw [parentOf_joinPackage htabled hf]
    rcases package?_joinPackage_cases htabled hk with ⟨rfl, rfl⟩ | ⟨-, hne, hk⟩
    · split_ifs with hcf
      · rfl
      · rw [if_pos rfl, List.mem_append, List.mem_singleton] at hc
        exact (hg.addPackage path.packageKey).2.1 c (hc.resolve_right hcf)
    · rw [if_neg hne, List.append_nil] at hc
      have hparent := hg.parent key k hk c hc
      have hcf : c ≠ f := by
        rintro rfl
        rw [hroot] at hparent
        cases hparent
      rw [if_neg hcf, hparent]
  definitions key k hk := by
    have hmember : ∀ c ∈ (joinPackage g path f).childrenOf k,
        (joinPackage g path f).definitionsOf c = g.definitionsOf c := by
      intro c hc
      obtain ⟨p, hp⟩ := hg.exists_path_join htabled hf hroot hk hc
      exact definitionsOf_joinPackage_of_file htabled hf hp
    rw [definitionsOf_joinPackage htabled hf, List.flatMap_congr fun c hc => by rw [hmember c hc],
      childrenOf_joinPackage htabled hf hroot, List.flatMap_append]
    rcases package?_joinPackage_cases htabled hk with ⟨rfl, rfl⟩ | ⟨-, hne, hk⟩
    · simp [(hg.addPackage path.packageKey).2.2]
    · simp [hg.definitions key k hk, hne]

end Aggregates

end ScopeGraph

/-! ## The scopes of a file -/

namespace ScopeGraph

variable {g h : ScopeGraph} {i f : Nat} {path q : Path}

/-- A scope that lies in a file is that of the file, or it lies in an older scope in the same
file. -/
def IsHoused (g : ScopeGraph) : Prop :=
  ∀ i q, g.fileOf i = some q →
    (q, i) ∈ g.files ∨ ∃ p, g.parentOf i = some p ∧ p < i ∧ g.fileOf p = some q

theorem lt_of_fileOf (hi : g.fileOf i = some q) : i < g.size := by
  obtain ⟨s, hs, -⟩ := Option.bind_eq_some_iff.mp hi
  exact lt_size hs

namespace IsHoused

/-- Scopes stay where they are if those that were there keep their files and parents, and the others
lie in older scopes. -/
theorem grow (hg : g.IsHoused) (hfiles : ∀ x ∈ g.files, x ∈ h.files)
    (hlabel : ∀ i < g.size, h.fileOf i = g.fileOf i)
    (hparent : ∀ i q, h.fileOf i = some q →
      (q, i) ∈ h.files ∨ (i < g.size ∧ h.parentOf i = g.parentOf i) ∨
        ∃ p, h.parentOf i = some p ∧ p < i ∧ h.fileOf p = some q) : h.IsHoused := by
  intro i q hi
  rcases hparent i q hi with hfile | ⟨hlt, hsame⟩ | hinner
  · exact .inl hfile
  · rw [hlabel i hlt] at hi
    rcases hg i q hi with hfile | ⟨p, hp, hpi, hfile⟩
    · exact .inl (hfiles _ hfile)
    · exact .inr ⟨p, hsame.trans hp, hpi, (hlabel p (lt_of_fileOf hfile)).trans hfile⟩
  · exact .inr hinner

theorem addFile (hg : g.IsHoused) (path : Path) : (g.addFile path).1.IsHoused := by
  have hgain : g.Gains (fun _ => True) (g.addFile path).1 := gains_addFile path
  unfold ScopeGraph.addFile at hgain ⊢
  cases hfile : g.file? path with
  | some n => exact hg
  | none =>
    simp only [hfile] at hgain
    refine hg.grow (fun x hx => List.mem_append_left _ hx) (fun i hi => hgain.fileOf hi) ?_
    intro i q hi
    change (g.push .file none (some path)).fileOf i = some q at hi
    change _ ∨ (_ ∧ (g.push .file none (some path)).parentOf i = _) ∨ _
    rw [fileOf_eq_labelOf, labelOf_push] at hi
    rw [parentOf_push]
    split_ifs at hi ⊢ with hnew
    · cases hi
      rw [hnew]
      exact .inl (List.mem_append_right _ (List.mem_singleton_self _))
    · rw [← fileOf_eq_labelOf] at hi
      exact .inr (.inl ⟨lt_of_fileOf hi, rfl⟩)

theorem fill (hg : g.IsHoused) (hh : g.IsFilled f h) : h.IsHoused := by
  refine hg.grow (fun x hx => hh.files ▸ hx) (fun i hi => ?_) fun i q hi => ?_
  · rw [fileOf_eq_labelOf, fileOf_eq_labelOf, hh.labelOf hi]
  · by_cases hlt : i < g.size
    · refine .inr (.inl ⟨hlt, ?_⟩)
      by_cases hif : i = f
      · rw [hif, hh.parent]
      · rw [parentOf, parentOf, hh.other i hlt hif]
    · have hle := Nat.le_of_not_lt hlt
      obtain ⟨p, hp, hpi, hown⟩ := hh.inner i hle (lt_of_fileOf hi)
      have hpfile := hh.fileOf_own hown (Nat.lt_trans hpi (lt_of_fileOf hi))
      rw [hh.file i hle (lt_of_fileOf hi), ← hpfile] at hi
      exact .inr (.inr ⟨p, hp, hpi, hi⟩)

open ScopeBuilder in
theorem join (hg : g.IsHoused) (htabled : g.IsTabled) (hf : g.file? path = some f) :
    (joinPackage g path f).IsHoused := by
  have hfiles := files_joinPackage g path f
  have hfileOf : ∀ i, (joinPackage g path f).fileOf i = g.fileOf i := fun i =>
    fileOf_joinPackage htabled hf
  refine hg.grow (fun x hx => hfiles ▸ hx) (fun i _ => hfileOf i) fun i q hi => ?_
  rw [hfileOf] at hi
  by_cases hif : i = f
  · -- the file itself moves
    obtain ⟨r, hr, -⟩ := htabled.file?_eq_some_iff.mp hf
    rw [hif, fileOf_eq_labelOf, htabled.label_file _ hr] at hi
    cases hi
    rw [hif, hfiles]
    exact .inl hr
  · refine .inr (.inl ⟨lt_of_fileOf hi, ?_⟩)
    rw [parentOf_joinPackage htabled hf, if_neg hif]

theorem reopen (hg : g.IsHoused) (hgh : g.Reopens h) : h.IsHoused := by
  intro i q hi
  rw [hgh.fileOf] at hi
  rcases hg i q hi with hfile | ⟨p, hp, hpi, hfile⟩
  · exact .inl (hgh.files ▸ hfile)
  · exact .inr ⟨p, (hgh.parent i).trans hp, hpi, (hgh.fileOf p).trans hfile⟩

theorem exists_chain (hg : g.IsHoused) (hi : g.fileOf i = some q) :
    ∃ inner f, (q, f) ∈ g.files ∧ ∀ outer, g.Chain f outer → g.Chain i (inner ++ outer) := by
  induction i using Nat.strongRecOn with
  | ind i ih =>
    rcases hg i q hi with hfile | ⟨p, hp, hpi, hpfile⟩
    · exact ⟨[], i, hfile, fun _ h => h⟩
    · obtain ⟨inner, f, hf, hchain⟩ := ih p hpi hpfile
      obtain ⟨s, hs, hparent⟩ := Option.bind_eq_some_iff.mp hp
      exact ⟨s :: inner, f, hf, fun outer houter => .step hs hparent (hchain outer houter)⟩

end IsHoused

end ScopeGraph

/-! ## Any number of files -/

/-- The paths of the files whose languages have packages. -/
def packagedPaths (additions : List Addition) : List Path :=
  (additions.filter (·.language.sharesPackage)).map (·.path)

namespace ScopeBuilder

open ScopeGraph

theorem packagedPaths_append (additions : List Addition) (a : Addition) :
    packagedPaths (additions ++ [a]) =
      packagedPaths additions ++ if a.language.sharesPackage then [a.path] else [] := by
  rw [packagedPaths, List.filter_append, List.map_append, packagedPaths]
  split_ifs with hshares <;> simp [hshares]

theorem aggregates_empty : (∅ : ScopeGraph).Aggregates [] where
  package key := by simp [Operation.isSome_package?_iff]
  children key k hk := by cases hk
  parent key k hk := by cases hk
  definitions key k hk := by cases hk

theorem scope?_of_filled {g h : ScopeGraph} {path : Path} (hnew : g.file? path = none)
    (hfilled : (g.addFile path).1.IsFilled (g.addFile path).2 h) {i : Nat} (hi : i < g.size) :
    h.scope? i = g.scope? i := by
  rw [addFile_of_new hnew] at hfilled
  have hlt : i < (g.push .file none (some path)).size := by
    rw [size_push]
    omega
  rw [hfilled.other i hlt (Nat.ne_of_lt hi)]
  exact (scope?_push _ _ _).trans (if_neg (Nat.ne_of_lt hi))

theorem aggregates_run {additions : List Addition}
    (hdistinct : additions.Pairwise fun a b => a.path.same b.path = false) :
    (run additions).graph.Aggregates (packagedPaths additions) := by
  induction additions using List.reverseRecOn with
  | nil => exact aggregates_empty
  | append_singleton additions a ih =>
    obtain ⟨hbefore, -, hlast⟩ := List.pairwise_append.mp hdistinct
    have htabled := isTabled_run additions
    have hnew := file?_eq_none (files_run hbefore) hdistinct
    obtain ⟨h, hfilled, hgraph⟩ := graph_add (run additions) htabled a
    have hsame : ∀ i < (run additions).graph.size, h.scope? i = (run additions).graph.scope? i :=
      fun i hi => scope?_of_filled hnew hfilled hi
    -- the packages and files that were there are not touched
    have hkept : h.Aggregates (packagedPaths additions) := by
      refine (ih hbefore).keep (fun key => ?_) (fun p hp => ?_) (fun key k hk => ?_)
        fun p _ f hf => ?_
      · rw [package?, package?, hfilled.packages, packages_addFile]
      · obtain ⟨c, hc, rfl⟩ := List.mem_map.mp hp
        have hother := hlast c (List.mem_of_mem_filter hc) a (List.mem_singleton_self a)
        rw [Path.same_comm] at hother
        rw [hfilled.file?_eq, hother]
        rfl
      · have hscope := hsame k (htabled.package?_lt hk)
        rw [childrenOf, definitionsOf, hscope]
        exact ⟨rfl, rfl⟩
      · have hscope := hsame f (htabled.file?_lt hf)
        rw [parentOf, definitionsOf, hscope]
        exact ⟨rfl, rfl⟩
    rw [run_append_singleton, hgraph, packagedPaths_append]
    split_ifs with hshares
    · have hfound : h.file? a.path = some ((run additions).graph.addFile a.path).2 := by
        rw [hfilled.file?_eq, if_pos (Path.same_iff.mpr rfl)]
      have hroot : h.parentOf ((run additions).graph.addFile a.path).2 = none := by
        rw [hfilled.parent, addFile_of_new hnew]
        exact (parentOf_push _ _ _).trans (if_pos rfl)
      exact hkept.join (hfilled.isTabled (htabled.addFile a.path)) hfound hroot
    · rw [List.append_nil]
      exact hkept

/-- Linking imports does not change packages. -/
theorem aggregates_finish {additions : List Addition}
    (hdistinct : additions.Pairwise fun a b => a.path.same b.path = false) :
    (run additions).finish.Aggregates (packagedPaths additions) := by
  have hkept := reopens_finish (run additions)
  have htabled := isTabled_run additions
  have hledger := isLedger_run hdistinct
  refine (aggregates_run hdistinct).keep (fun key => ?_) (fun p _ => ?_) (fun key k hk => ?_)
    fun p _ f _ => ?_
  · rw [package?, package?, hkept.packages]
  · rw [file?, file?, hkept.files]
  · -- a package lies in no file, so it has only what is shared
    obtain ⟨q, hq, -⟩ := htabled.package?_eq_some_iff.mp hk
    have hfile : (run additions).graph.fileOf k = none := by
      rw [fileOf_eq_labelOf, htabled.label_package _ hq]
      rfl
    exact ⟨hkept.children k, definitionsOf_finish hledger (sharesOnly_run additions k hfile)⟩
  · exact ⟨hkept.parent f, filter_isShared_finish hledger f⟩

theorem isHoused_run (additions : List Addition) : (run additions).graph.IsHoused := by
  induction additions using List.reverseRecOn with
  | nil => exact fun i q hi => absurd (lt_of_fileOf hi) (Nat.not_lt_zero i)
  | append_singleton additions a ih =>
    have htabled := isTabled_run additions
    obtain ⟨h, hfilled, hgraph⟩ := graph_add (run additions) htabled a
    have hh : h.IsHoused := (ih.addFile a.path).fill hfilled
    have hfound : h.file? a.path = some ((run additions).graph.addFile a.path).2 := by
      rw [hfilled.file?_eq, if_pos (Path.same_iff.mpr rfl)]
    rw [run_append_singleton, hgraph]
    split_ifs
    · exact hh.join (hfilled.isTabled (htabled.addFile a.path)) hfound
    · exact hh

theorem isTabled_finish (additions : List Addition) : (run additions).finish.IsTabled :=
  (reopens_finish (run additions)).isTabled (isTabled_run additions)

/-- The Go files of a directory, in the order in which they were added. -/
def goFilesIn (additions : List Addition) (directory : List Component) : List Addition :=
  additions.filter fun a => a.language = .go ∧ a.path.directory = directory

theorem sharesPackage_iff {language : Language} :
    language.sharesPackage = true ↔ language = .go := by
  cases language <;> simp [Language.sharesPackage]

theorem filter_packagedPaths (additions : List Addition) (path : Path) :
    (packagedPaths additions).filter (·.packageKey = path.packageKey) =
      (goFilesIn additions path.directory).map (·.path) := by
  rw [packagedPaths, List.filter_map, List.filter_filter, goFilesIn]
  refine congrArg (List.map Addition.path) (List.filter_congr fun a _ => ?_)
  rw [Bool.eq_iff_iff, Bool.and_eq_true, decide_eq_true_iff, sharesPackage_iff, Function.comp_apply,
    decide_eq_true_iff, Path.packageKey_eq_iff, and_comm]

theorem eq_of_same {additions : List Addition}
    (hdistinct : additions.Pairwise fun a b => a.path.same b.path = false) {a c : Addition}
    (ha : a ∈ additions) (hc : c ∈ additions) (hsame : a.path.same c.path = true) : a = c := by
  have : Std.Symm fun a b : Addition => a.path.same b.path = false :=
    ⟨fun x y hxy => by rw [Path.same_comm, hxy]⟩
  by_contra hne
  rw [hdistinct.forall ha hc hne] at hsame
  cases hsame

/-- A file with its scope, and the scope of its package around it. -/
structure IsMember (g : ScopeGraph) (path : Path) (file package : Scope) : Prop where
  found : g.file? path = some file.id
  scope : g.scope? file.id = some file
  kind : file.kind = .file
  path : file.file = some path
  parent : file.parent = some package.id

theorem isMember_of_go {additions : List Addition}
    (hdistinct : additions.Pairwise fun a b => a.path.same b.path = false) {c : Addition}
    (hc : c ∈ additions) {package : Scope} {f : Nat}
    (hf : (run additions).finish.file? c.path = some f)
    (hparent : (run additions).finish.parentOf f = some package.id) :
    ∃ file, IsMember (run additions).finish c.path file package := by
  have htabled := isTabled_finish additions
  obtain ⟨file, hfile⟩ := scope?_isSome (htabled.file?_lt hf)
  have hid := (isPlaced_finish additions).id_eq f file hfile
  -- the entry for the file has its path, as other paths are different ones
  obtain ⟨q, hq, hsame⟩ := htabled.file?_eq_some_iff.mp hf
  have hpath : q = c.path := by
    have hmem : q ∈ additions.map (·.path) := by
      rw [← files_run hdistinct, ← (reopens_finish (run additions)).files]
      exact List.mem_map_of_mem hq
    obtain ⟨d, hd, rfl⟩ := List.mem_map.mp hmem
    rw [eq_of_same hdistinct hd hc hsame]
  have hlabel := htabled.label_file _ hq
  rw [labelOf, hfile, Option.map_some, Option.some.injEq] at hlabel
  obtain ⟨hkind, hown⟩ := Prod.mk.inj hlabel
  exact ⟨file, hid ▸ hf, hid ▸ hfile, hkind, hpath ▸ hown, (parentOf_eq hfile).symm.trans hparent⟩

/-- The scopes around one that lies in a file of a package end with the file and the package. -/
theorem IsMember.exists_chain {additions : List Addition} {path : Path} {file package s : Scope}
    {i : Nat} (hfile : IsMember (run additions).finish path file package)
    (hpackage : (run additions).finish.scope? package.id = some package)
    (hroot : package.parent = none) (hs : (run additions).finish.scope? i = some s)
    (hin : s.file = some path) :
    ∃ inner, (run additions).finish.Chain i (inner ++ [file, package]) := by
  have hhoused := (isHoused_run additions).reopen (reopens_finish (run additions))
  obtain ⟨inner, f, hf, hchain⟩ := hhoused.exists_chain ((fileOf_eq hs).trans hin)
  have hfound : (run additions).finish.file? path = some f :=
    (isTabled_finish additions).file?_eq_some_iff.mpr ⟨path, hf, Path.same_iff.mpr rfl⟩
  obtain rfl : file.id = f := Option.some.inj (hfile.found.symm.trans hfound)
  exact ⟨inner, hchain _ (.step hfile.scope hfile.parent (.root hpackage hroot))⟩

/-- **The package of a directory holds its files and what they share.** Let files with different
paths be added, and one of them be a Go file. There is a package for its directory, which holds the
scopes of the Go files in there, in the order in which they were added. The definitions of the
package are those of the files that are neither imports nor methods, file by file. A plain use in
such a file whose name no scope from its own to that of the file binds means the first definition of
that name in the package, and nothing if there is none. -/
theorem package_of_directory (additions : List Addition)
    (hdistinct : additions.Pairwise fun a b => a.path.same b.path = false) (a : Addition)
    (ha : a ∈ additions) (hgo : a.language = .go) :
    ∃ package : Scope,
      (run additions).finish.package? a.path.packageKey = some package.id ∧
      (run additions).finish.scope? package.id = some package ∧ package.kind = .package ∧
      package.children.map some =
        (goFilesIn additions a.path.directory).map (fun c => (run additions).finish.file? c.path) ∧
      package.definitions = package.children.flatMap (fun f =>
        ((run additions).finish.definitionsOf f).filter fun d =>
          d.kind ≠ .imported && d.kind ≠ .method) ∧
      ∀ c ∈ goFilesIn additions a.path.directory, ∃ file,
        IsMember (run additions).finish c.path file package ∧
        ∀ i s, (run additions).finish.scope? i = some s → s.file = some c.path →
          ∃ inner, (run additions).finish.Chain i (inner ++ [file, package]) ∧
            ∀ u ∈ s.uses, u.member = none → (∀ t ∈ inner ++ [file], t.find? u.name = none) →
              u.target = (package.find? u.name).map fun n => ⟨package.id, n⟩ := by
  have hpath : a.path ∈ packagedPaths additions :=
    List.mem_map_of_mem (List.mem_filter.mpr ⟨ha, sharesPackage_iff.mpr hgo⟩)
  obtain ⟨package, hk, hpackage, hkind, hroot, hchildren, hdefinitions, hparent⟩ :=
    (aggregates_finish hdistinct).exists_scope (isTabled_finish additions)
      (isPlaced_finish additions) hpath
  rw [filter_packagedPaths, List.map_map] at hchildren
  refine ⟨package, hk, hpackage, hkind, hchildren, hdefinitions, fun c hc => ?_⟩
  -- the file is one of those that the package holds
  have hmem : (run additions).finish.file? c.path ∈ package.children.map some := by
    rw [hchildren]
    exact List.mem_map.mpr ⟨c, hc, rfl⟩
  obtain ⟨f, hf, hfound⟩ := List.mem_map.mp hmem
  obtain ⟨file, hfile⟩ :=
    isMember_of_go hdistinct (List.mem_of_mem_filter hc) hfound.symm (hparent f hf)
  refine ⟨file, hfile, fun i s hs hin => ?_⟩
  obtain ⟨inner, hchain⟩ := hfile.exists_chain hpackage hroot hs hin
  refine ⟨inner, hchain, fun u hu hplain hfree => ?_⟩
  have hsplit : inner ++ [file, package] = (inner ++ [file]) ++ [package] := by simp
  rw [target_of_plainUse hs hchain hu hplain, hsplit, findSome?_handle? hfree,
    List.findSome?_singleton, Scope.handle?]

/-- A file that defines a function and a method. -/
def serving : Addition :=
  let place (line : UInt32) : Location := ⟨⟨"s/a"⟩, line, 1, line, 5⟩
  .marks ⟨"s/a"⟩ .go {
    scopes := []
    bindings := [
      ⟨⟨20, 40⟩, .function, some ⟨1, ⟨25, 30⟩, "serve", place 2⟩, none, none, "", place 2⟩,
      ⟨⟨40, 60⟩, .method, some ⟨2, ⟨45, 50⟩, "Stop", place 3⟩, none, none, "", place 3⟩]
    uses := [] }

/-- A file of the same directory that calls the function. -/
def calling : Addition :=
  let place (line : UInt32) : Location := ⟨⟨"s/b"⟩, line, 1, line, 5⟩
  .marks ⟨"s/b"⟩ .go {
    scopes := [⟨⟨0, 30⟩, .function⟩]
    bindings := []
    uses := [⟨⟨2, ⟨15, 20⟩, "serve", place 2⟩, none⟩] }

/-- The two files. -/
def shop : List Addition := [serving, calling]

/-- The function in the second file, with its call. -/
def callingBody : Scope where
  id := 3
  kind := .function
  parent := some 2
  children := []
  definitions := []
  uses := [⟨"serve", none, ⟨⟨"s/b"⟩, 2, 1, 2, 5⟩, some ⟨1, 0⟩⟩]
  file := some ⟨"s/b"⟩

theorem package_of_directory_shop :
    (run shop).finish.scope? 3 = some callingBody ∧ ∃ package : Scope,
      (run shop).finish.package? serving.path.packageKey = some package.id ∧
      package.children.map some = [some 0, some 2] ∧
      ∃ inner file, (run shop).finish.Chain 3 (inner ++ [file, package]) ∧ file.id = 2 := by
  have hdistinct : shop.Pairwise fun a b => a.path.same b.path = false := by decide +kernel
  have hdirectory : calling.path.directory = serving.path.directory := by decide +kernel
  have hlanguage : serving.language = .go ∧ calling.language = .go := ⟨rfl, rfl⟩
  have hmembers : goFilesIn shop serving.path.directory = shop :=
    List.filter_eq_self.mpr (by simp [shop, hdirectory, hlanguage])
  have hfinish : (run shop).finish.scope? 3 = some callingBody ∧
      (run shop).finish.files = [(⟨"s/a"⟩, 0), (⟨"s/b"⟩, 2)] := by
    rw [scope?_finish]
    simp only [finish, resolve, run, List.foldl, add, shop, serving, calling, addMarks]
    rw [BindingMark.arrange, List.mergeSort_of_pairwise (by decide +kernel)]
    decide +kernel
  obtain ⟨hbody, htable⟩ := hfinish
  have hserving : (run shop).finish.file? serving.path = some 0 := by
    rw [file?, htable]
    decide +kernel
  have hcalling : (run shop).finish.file? calling.path = some 2 := by
    rw [file?, htable]
    decide +kernel
  obtain ⟨package, hfound, -, -, hchildren, -, hfiles⟩ :=
    package_of_directory shop hdistinct serving List.mem_cons_self rfl
  rw [hmembers] at hchildren hfiles
  obtain ⟨file, hfile, hinside⟩ := hfiles calling (List.mem_cons_of_mem _ List.mem_cons_self)
  obtain ⟨inner, hchain, -⟩ := hinside 3 callingBody hbody rfl
  refine ⟨hbody, package, hfound, ?_, inner, file, hchain, ?_⟩
  · rw [hchildren, ← hserving, ← hcalling]
    rfl
  · exact Option.some.inj (hfile.found.symm.trans hcalling)

end ScopeBuilder

end SourceAtlas
