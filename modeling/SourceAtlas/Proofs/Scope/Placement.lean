import SourceAtlas.Scope.Source
import Mathlib.Tactic.Common

/-!
# Where scopes lie

Every scope is a package, a file that lies in no scope or in a package, or lies in an older scope of
the same file. Adding files keeps it so.

* `Scope.Keeps`, `ScopeGraph.Grows`: what most changes leave alone;
* `ScopeGraph.Place`, `ScopeGraph.IsPlaced`: where the scopes of a graph lie;
* `ScopeGraph.isPlaced_addFile`, `ScopeGraph.isPlaced_addPackage`, `ScopeGraph.isPlaced_addScope`,
  `ScopeGraph.isPlaced_setParent`: one change;
* `Addition`, `ScopeBuilder.run`, **`ScopeBuilder.isPlaced_run`**: any number of files;
* `ScopeGraph.Chain`, **`ScopeGraph.IsPlaced.exists_chain`**: the scopes around a scope.
-/

namespace SourceAtlas

/-! ## Looking up scopes -/

/-- A scope that has taken the place of another and keeps what tells where it lies. -/
structure Scope.Keeps (s t : Scope) : Prop where
  id : t.id = s.id
  kind : t.kind = s.kind
  file : t.file = s.file
  parent : t.parent = s.parent
  children : s.children ⊆ t.children

namespace ScopeGraph

variable {g h k : ScopeGraph} {path : Path} {i j p : Nat} {s t : Scope}

@[simp] theorem size_modify (f : Scope → Scope) : (g.modify j f).size = g.size :=
  Array.size_modify

@[simp] theorem size_push (kind : ScopeKind) (parent : Option Nat) (file : Option Path) :
    (g.push kind parent file).size = g.size + 1 :=
  Array.size_push _

theorem scope?_modify (f : Scope → Scope) :
    (g.modify j f).scope? i = if j = i then (g.scope? i).map f else g.scope? i :=
  Array.getElem?_modify

theorem scope?_push (kind : ScopeKind) (parent : Option Nat) (file : Option Path) :
    (g.push kind parent file).scope? i =
      if i = g.size then some ⟨g.size, kind, parent, [], [], [], file⟩ else g.scope? i :=
  Array.getElem?_push

theorem lt_size (hs : g.scope? i = some s) : i < g.size :=
  (Array.getElem?_eq_some_iff.mp hs).1

theorem scope?_isSome (hi : i < g.size) : ∃ s, g.scope? i = some s :=
  ⟨g.scopes[i], Array.getElem?_eq_getElem hi⟩

/-! ## Growth -/

/-- Every scope of a graph is in the other one, where it lies at the same place. -/
def Grows (g h : ScopeGraph) : Prop :=
  ∀ i s, g.scope? i = some s → ∃ t, h.scope? i = some t ∧ s.Keeps t

theorem Grows.refl (g : ScopeGraph) : g.Grows g := fun _ s hs =>
  ⟨s, hs, rfl, rfl, rfl, rfl, List.Subset.refl _⟩

theorem Grows.trans (hgh : g.Grows h) (hhk : h.Grows k) : g.Grows k := by
  intro i s hs
  obtain ⟨t, ht, hst⟩ := hgh i s hs
  obtain ⟨u, hu, htu⟩ := hhk i t ht
  refine ⟨u, hu, ?_, ?_, ?_, ?_, List.Subset.trans hst.children htu.children⟩
  · rw [htu.id, hst.id]
  · rw [htu.kind, hst.kind]
  · rw [htu.file, hst.file]
  · rw [htu.parent, hst.parent]

theorem grows_modify {f : Scope → Scope} (hf : ∀ s : Scope, s.Keeps (f s)) :
    g.Grows (g.modify j f) := by
  intro i s hs
  rw [scope?_modify, hs]
  by_cases hij : j = i
  · exact ⟨f s, if_pos hij, hf s⟩
  · rw [if_neg hij, ← hs]
    exact Grows.refl g i s hs

theorem grows_push (kind : ScopeKind) (parent : Option Nat) (file : Option Path) :
    g.Grows (g.push kind parent file) := by
  intro i s hs
  have hne : i ≠ g.size := Nat.ne_of_lt (lt_size hs)
  rw [scope?_push, if_neg hne]
  exact Grows.refl g i s hs

/-! ## Places -/

end ScopeGraph

/-- The scope of a package, which lies in no other and in no file. -/
def Scope.IsPackage (s : Scope) : Prop := s.kind = .package ∧ s.parent = none ∧ s.file = none

theorem Scope.Keeps.isPackage {s t : Scope} (h : s.Keeps t) (hs : s.IsPackage) : t.IsPackage :=
  ⟨h.kind.trans hs.1, h.parent.trans hs.2.1, h.file.trans hs.2.2⟩

namespace ScopeGraph

variable {g h k : ScopeGraph} {path : Path} {i j p : Nat} {s t : Scope}

/-- A scope with a number is the scope of a file. -/
def IsFileAt (g : ScopeGraph) (i : Nat) : Prop :=
  ∃ s, g.scope? i = some s ∧ s.kind = .file ∧ s.file.isSome

/-- A scope with a number is the scope of a package. -/
def IsPackageAt (g : ScopeGraph) (i : Nat) : Prop := ∃ s, g.scope? i = some s ∧ s.IsPackage

/-- A scope with a number lies in a file. -/
def IsInFile (g : ScopeGraph) (i : Nat) : Prop := ∃ s, g.scope? i = some s ∧ s.file.isSome

/-- The places of scopes. -/
inductive Place (g : ScopeGraph) (i : Nat) (s : Scope) : Prop
  /-- A package. -/
  | package (hs : s.IsPackage)
  /-- A file, which may lie in a package. -/
  | file (hkind : s.kind = .file) (hfile : s.file.isSome)
      (hparent : ∀ p, s.parent = some p → g.IsPackageAt p)
  /-- A scope inside of an older one of the same file. -/
  | inner {p : Nat} {t : Scope} (hparent : s.parent = some p) (hlt : p < i)
      (ht : g.scope? p = some t) (hsame : s.file = t.file) (hfile : t.file.isSome)

/-- All scopes have places and are held by their parents, and files and packages are found. -/
structure IsPlaced (g : ScopeGraph) : Prop where
  id_eq : ∀ i s, g.scope? i = some s → s.id = i
  place : ∀ i s, g.scope? i = some s → g.Place i s
  held : ∀ i s p, g.scope? i = some s → s.parent = some p →
    ∃ t, g.scope? p = some t ∧ i ∈ t.children
  files : ∀ x ∈ g.files, g.IsFileAt x.2
  packages : ∀ x ∈ g.packages, g.IsPackageAt x.2

theorem isPlaced_empty : IsPlaced ∅ where
  id_eq i _ hs := absurd (lt_size hs) (Nat.not_lt_zero i)
  place i _ hs := absurd (lt_size hs) (Nat.not_lt_zero i)
  held i _ _ hs := absurd (lt_size hs) (Nat.not_lt_zero i)
  files _ hx := absurd hx List.not_mem_nil
  packages _ hx := absurd hx List.not_mem_nil

theorem IsFileAt.grow (hi : g.IsFileAt i) (hgrow : g.Grows h) : h.IsFileAt i := by
  obtain ⟨s, hs, hkind, hfile⟩ := hi
  obtain ⟨t, ht, hkeeps⟩ := hgrow i s hs
  exact ⟨t, ht, hkeeps.kind.trans hkind, by rwa [hkeeps.file]⟩

theorem IsPackageAt.grow (hi : g.IsPackageAt i) (hgrow : g.Grows h) : h.IsPackageAt i := by
  obtain ⟨s, hs, hpackage⟩ := hi
  obtain ⟨t, ht, hkeeps⟩ := hgrow i s hs
  exact ⟨t, ht, hkeeps.isPackage hpackage⟩

theorem IsInFile.grow (hi : g.IsInFile i) (hgrow : g.Grows h) : h.IsInFile i := by
  obtain ⟨s, hs, hfile⟩ := hi
  obtain ⟨t, ht, hkeeps⟩ := hgrow i s hs
  exact ⟨t, ht, by rwa [hkeeps.file]⟩

theorem IsFileAt.isInFile (hi : g.IsFileAt i) : g.IsInFile i := by
  obtain ⟨s, hs, -, hfile⟩ := hi
  exact ⟨s, hs, hfile⟩

theorem Place.grow (hs : g.Place i s) (hgrow : g.Grows h) (hkeeps : s.Keeps t) : h.Place i t := by
  cases hs with
  | package hs => exact .package (hkeeps.isPackage hs)
  | file hkind hfile hparent =>
    refine .file (hkeeps.kind.trans hkind) (by rwa [hkeeps.file]) fun p hp => ?_
    exact (hparent p (hkeeps.parent ▸ hp)).grow hgrow
  | @inner p u hparent hlt hu hsame hfile =>
    obtain ⟨v, hv, huv⟩ := hgrow p u hu
    refine .inner (hkeeps.parent.trans hparent) hlt hv ?_ (by rwa [huv.file])
    rw [hkeeps.file, huv.file, hsame]

/-- In a graph that has grown only the new scopes have to be looked at. -/
theorem IsPlaced.grow (hg : g.IsPlaced) (hgrow : g.Grows h)
    (hnew : ∀ i s, h.scope? i = some s → g.size ≤ i → s.id = i ∧ h.Place i s ∧
      ∀ p, s.parent = some p → ∃ t, h.scope? p = some t ∧ i ∈ t.children)
    (hfiles : ∀ x ∈ h.files, h.IsFileAt x.2) (hpackages : ∀ x ∈ h.packages, h.IsPackageAt x.2) :
    h.IsPlaced := by
  -- a scope is one that was there before, or it is new
  have hold : ∀ i t, h.scope? i = some t → i < g.size → ∃ s, g.scope? i = some s ∧ s.Keeps t := by
    intro i t ht hi
    obtain ⟨s, hs⟩ := scope?_isSome hi
    obtain ⟨u, hu, hkeeps⟩ := hgrow i s hs
    rw [ht] at hu
    cases hu
    exact ⟨s, hs, hkeeps⟩
  refine ⟨fun i t ht => ?_, fun i t ht => ?_, fun i t p ht hp => ?_, hfiles, hpackages⟩
  · by_cases hi : i < g.size
    · obtain ⟨s, hs, hkeeps⟩ := hold i t ht hi
      rw [hkeeps.id, hg.id_eq i s hs]
    · exact (hnew i t ht (Nat.le_of_not_lt hi)).1
  · by_cases hi : i < g.size
    · obtain ⟨s, hs, hkeeps⟩ := hold i t ht hi
      exact (hg.place i s hs).grow hgrow hkeeps
    · exact (hnew i t ht (Nat.le_of_not_lt hi)).2.1
  · by_cases hi : i < g.size
    · obtain ⟨s, hs, hkeeps⟩ := hold i t ht hi
      obtain ⟨u, hu, hmem⟩ := hg.held i s p hs (hkeeps.parent ▸ hp)
      obtain ⟨v, hv, huv⟩ := hgrow p u hu
      exact ⟨v, hv, huv.children hmem⟩
    · exact (hnew i t ht (Nat.le_of_not_lt hi)).2.2 p hp

theorem IsPlaced.keep (hg : g.IsPlaced) (hgrow : g.Grows h) (hsize : h.size = g.size)
    (hfiles : h.files = g.files) (hpackages : h.packages = g.packages) : h.IsPlaced := by
  refine hg.grow hgrow (fun i s hs hi => ?_) (fun x hx => ?_) fun x hx => ?_
  · have := lt_size hs
    omega
  · exact (hg.files x (hfiles ▸ hx)).grow hgrow
  · exact (hg.packages x (hpackages ▸ hx)).grow hgrow

theorem isPlaced_modify (hg : g.IsPlaced) {f : Scope → Scope} (hf : ∀ s : Scope, s.Keeps (f s)) :
    (g.modify j f).IsPlaced :=
  hg.keep (grows_modify hf) (size_modify f) rfl rfl

/-! ## One change -/

theorem mem_files (hi : g.file? path = some i) : ∃ x ∈ g.files, x.2 = i := by
  rw [file?, Option.map_eq_some_iff] at hi
  obtain ⟨x, hx, rfl⟩ := hi
  exact ⟨x, List.mem_of_find?_eq_some hx, rfl⟩

theorem mem_packages {key : String} (hi : g.package? key = some i) : ∃ x ∈ g.packages, x.2 = i := by
  rw [package?, Option.map_eq_some_iff] at hi
  obtain ⟨x, hx, rfl⟩ := hi
  exact ⟨x, List.mem_of_find?_eq_some hx, rfl⟩

theorem eq_of_scope?_push {kind : ScopeKind} {parent : Option Nat} {file : Option Path}
    (hs : (g.push kind parent file).scope? i = some s) (hi : g.size ≤ i) :
    i = g.size ∧ s = ⟨g.size, kind, parent, [], [], [], file⟩ := by
  have hlt := lt_size hs
  rw [size_push] at hlt
  obtain rfl : i = g.size := by omega
  rw [scope?_push, if_pos rfl] at hs
  exact ⟨rfl, (Option.some.inj hs).symm⟩

theorem isPlaced_addFile (hg : g.IsPlaced) (path : Path) :
    (g.addFile path).1.IsPlaced ∧ g.Grows (g.addFile path).1 ∧
      (g.addFile path).1.IsFileAt (g.addFile path).2 := by
  unfold addFile
  cases hfile : g.file? path with
  | some i =>
    obtain ⟨x, hx, rfl⟩ := mem_files hfile
    exact ⟨hg, Grows.refl g, hg.files x hx⟩
  | none =>
    have hgrow : g.Grows (g.push .file none (some path)) := grows_push _ _ _
    have hnew : (g.push .file none (some path)).IsFileAt g.size :=
      ⟨_, by rw [scope?_push, if_pos rfl], rfl, rfl⟩
    refine ⟨hg.grow hgrow (fun i s hs hi => ?_) (fun x hx => ?_) (fun x hx => ?_), hgrow, hnew⟩
    · obtain ⟨rfl, rfl⟩ := eq_of_scope?_push hs hi
      exact ⟨rfl, .file rfl rfl (by simp), by simp⟩
    · rcases List.mem_append.mp hx with hx | hx
      · exact (hg.files x hx).grow hgrow
      · rw [List.mem_singleton.mp hx]
        exact hnew
    · exact (hg.packages x hx).grow hgrow

theorem isPlaced_addPackage (hg : g.IsPlaced) (key : String) :
    (g.addPackage key).1.IsPlaced ∧ g.Grows (g.addPackage key).1 ∧
      (g.addPackage key).1.IsPackageAt (g.addPackage key).2 := by
  unfold addPackage
  cases hpackage : g.package? key with
  | some i =>
    obtain ⟨x, hx, rfl⟩ := mem_packages hpackage
    exact ⟨hg, Grows.refl g, hg.packages x hx⟩
  | none =>
    have hgrow : g.Grows (g.push .package none none) := grows_push _ _ _
    have hnew : (g.push .package none none).IsPackageAt g.size :=
      ⟨_, by rw [scope?_push, if_pos rfl], rfl, rfl, rfl⟩
    refine ⟨hg.grow hgrow (fun i s hs hi => ?_) (fun x hx => ?_) (fun x hx => ?_), hgrow, hnew⟩
    · obtain ⟨rfl, rfl⟩ := eq_of_scope?_push hs hi
      exact ⟨rfl, .package ⟨rfl, rfl, rfl⟩, by simp⟩
    · exact (hg.files x hx).grow hgrow
    · rcases List.mem_append.mp hx with hx | hx
      · exact (hg.packages x hx).grow hgrow
      · rw [List.mem_singleton.mp hx]
        exact hnew

theorem keeps_children (s : Scope) (cs : List Nat) :
    s.Keeps { s with children := s.children ++ cs } :=
  ⟨rfl, rfl, rfl, rfl, List.subset_append_left _ _⟩

theorem isPlaced_addScope (hg : g.IsPlaced) (kind : ScopeKind) (hp : g.IsInFile p) :
    (g.addScope kind p).1.IsPlaced ∧ g.Grows (g.addScope kind p).1 ∧
      (g.addScope kind p).1.IsInFile (g.addScope kind p).2 := by
  obtain ⟨t, ht, hfile⟩ := hp
  have hlt := lt_size ht
  unfold addScope
  rw [ht]
  dsimp only
  have hpush : g.Grows (g.push kind (some p) t.file) := grows_push _ _ _
  have hgrow := hpush.trans
    (grows_modify (j := p) fun s => keeps_children s [g.size])
  have hparent : ((g.push kind (some p) t.file).modify p fun s =>
      { s with children := s.children ++ [g.size] }).scope? p =
        some { t with children := t.children ++ [g.size] } := by
    rw [scope?_modify, if_pos rfl, scope?_push, if_neg (Nat.ne_of_lt hlt), ht, Option.map_some]
  have hnew : ∀ i s, ((g.push kind (some p) t.file).modify p fun s =>
      { s with children := s.children ++ [g.size] }).scope? i = some s → g.size ≤ i →
        i = g.size ∧ s = ⟨g.size, kind, some p, [], [], [], t.file⟩ := by
    intro i s hs hi
    rw [scope?_modify, if_neg (by omega)] at hs
    exact eq_of_scope?_push hs hi
  refine ⟨hg.grow hgrow (fun i s hs hi => ?_) (fun x hx => ?_) (fun x hx => ?_), hgrow, ?_⟩
  · obtain ⟨rfl, rfl⟩ := hnew i s hs hi
    refine ⟨rfl, .inner rfl hlt hparent rfl hfile, fun q hq => ?_⟩
    cases hq
    exact ⟨_, hparent, by simp⟩
  · exact (hg.files x hx).grow hgrow
  · exact (hg.packages x hx).grow hgrow
  · refine ⟨⟨g.size, kind, some p, [], [], [], t.file⟩, ?_, hfile⟩
    rw [scope?_modify, if_neg (by omega), scope?_push, if_pos rfl]

/-! ## Moving a file -/

theorem size_detach (c : Nat) : (g.detach c).size = g.size := by
  unfold detach
  split
  · exact size_modify _
  · rfl

theorem scope?_detach (c : Nat) (hs : g.scope? i = some s) : ∃ cs,
    (g.detach c).scope? i = some { s with children := cs } ∧ ∀ x ∈ s.children, x ≠ c → x ∈ cs := by
  unfold detach
  split
  · rename_i old _
    rw [scope?_modify, hs]
    by_cases hi : old = i
    · rw [if_pos hi]
      exact ⟨_, rfl, fun x hx hne => List.mem_filter.mpr ⟨hx, decide_eq_true hne⟩⟩
    · rw [if_neg hi]
      exact ⟨_, rfl, fun x hx _ => hx⟩
  · exact ⟨_, hs, fun x hx _ => hx⟩

section Move

variable {c : Nat}

theorem tables_detach : (g.detach c).files = g.files ∧ (g.detach c).packages = g.packages := by
  unfold detach
  split <;> exact ⟨rfl, rfl⟩

theorem setParent_eq (hne : c ≠ p) (hc : c < g.size) (hp : p < g.size) : g.setParent c p =
    ((g.detach c).modify c fun s => { s with parent := some p }).modify p
      fun s => { s with children := s.children ++ [c] } := by
  rw [setParent, if_neg]
  omega

/-- A move changes the parent of one scope, and which scopes hold that one. -/
theorem scope?_setParent (hne : c ≠ p) (hc : c < g.size) (hp : p < g.size)
    (hs : g.scope? i = some s) : ∃ cs,
      (g.setParent c p).scope? i =
        some { s with parent := if i = c then some p else s.parent, children := cs } ∧
      (∀ x ∈ s.children, x ≠ c → x ∈ cs) ∧ (i = p → c ∈ cs) := by
  obtain ⟨cs, hcs, hkept⟩ := scope?_detach c hs
  rw [setParent_eq hne hc hp, scope?_modify, scope?_modify, hcs]
  by_cases hip : p = i
  · subst hip
    rw [if_pos rfl, if_neg hne, if_neg (Ne.symm hne)]
    exact ⟨cs ++ [c], rfl, fun x hx hxc => List.mem_append_left _ (hkept x hx hxc), by simp⟩
  · rw [if_neg hip]
    refine ⟨cs, ?_, hkept, fun h => absurd h.symm hip⟩
    by_cases hic : i = c
    · rw [if_pos hic.symm, if_pos hic, Option.map_some]
    · rw [if_neg (Ne.symm hic), if_neg hic]

theorem IsFileAt.ne_package (hc : g.IsFileAt c) (hp : g.IsPackageAt p) : c ≠ p := by
  obtain ⟨s, hs, hkind, -⟩ := hc
  obtain ⟨t, ht, hpackage, -⟩ := hp
  rintro rfl
  rw [hs] at ht
  cases ht
  rw [hkind] at hpackage
  cases hpackage

theorem isPlaced_setParent (hg : g.IsPlaced) (hc : g.IsFileAt c) (hp : g.IsPackageAt p) :
    (g.setParent c p).IsPlaced := by
  have hne := hc.ne_package hp
  obtain ⟨sc, hsc, hckind, hcfile⟩ := id hc
  obtain ⟨sp, hsp, -⟩ := id hp
  have hclt := lt_size hsc
  have hplt := lt_size hsp
  have hlook : ∀ {i s}, g.scope? i = some s → _ := fun hs => scope?_setParent hne hclt hplt hs
  have hsize : (g.setParent c p).size = g.size := by
    rw [setParent_eq hne hclt hplt, size_modify, size_modify, size_detach]
  have htables : (g.setParent c p).files = g.files ∧ (g.setParent c p).packages = g.packages := by
    rw [setParent_eq hne hclt hplt]
    exact tables_detach
  -- packages do not move, for only a file does
  have hpackages : ∀ q, g.IsPackageAt q → (g.setParent c p).IsPackageAt q := by
    intro q hq
    have hqc := (hc.ne_package hq).symm
    obtain ⟨t, ht, hkind, hparent, hfile⟩ := hq
    obtain ⟨cs, hcs, -⟩ := hlook ht
    exact ⟨_, hcs, hkind, (if_neg hqc).trans hparent, hfile⟩
  have hold : ∀ i t, (g.setParent c p).scope? i = some t → ∃ s, g.scope? i = some s := by
    intro i t ht
    exact scope?_isSome (hsize ▸ lt_size ht)
  refine ⟨fun i t ht => ?_, fun i t ht => ?_, fun i t q ht hq => ?_, fun x hx => ?_, fun x hx => ?_⟩
  · obtain ⟨s, hs⟩ := hold i t ht
    obtain ⟨cs, hcs, -⟩ := hlook hs
    rw [ht] at hcs
    cases hcs
    exact hg.id_eq i s hs
  · obtain ⟨s, hs⟩ := hold i t ht
    obtain ⟨cs, hcs, -⟩ := hlook hs
    rw [ht] at hcs
    cases hcs
    by_cases hic : i = c
    · subst hic
      rw [hsc] at hs
      cases hs
      refine .file hckind hcfile fun q hq => ?_
      rw [if_pos rfl] at hq
      cases hq
      exact hpackages p hp
    · rw [if_neg hic]
      cases hg.place i s hs with
      | package hs' => exact .package hs'
      | file hkind hfile hparent => exact .file hkind hfile fun q hq => hpackages q (hparent q hq)
      | @inner q u hparent hlt hu hsame hfile =>
        obtain ⟨ds, hds, -⟩ := hlook hu
        exact .inner hparent hlt hds hsame hfile
  · obtain ⟨s, hs⟩ := hold i t ht
    obtain ⟨cs, hcs, -⟩ := hlook hs
    rw [ht] at hcs
    cases hcs
    by_cases hic : i = c
    · rw [if_pos hic] at hq
      cases hq
      obtain ⟨ds, hds, -, hmem⟩ := hlook hsp
      exact ⟨_, hds, hic ▸ hmem rfl⟩
    · rw [if_neg hic] at hq
      obtain ⟨u, hu, hmem⟩ := hg.held i s q hs hq
      obtain ⟨ds, hds, hkept, -⟩ := hlook hu
      exact ⟨_, hds, hkept i hmem hic⟩
  · obtain ⟨s, hs, hkind, hfile⟩ := hg.files x (htables.1 ▸ hx)
    obtain ⟨cs, hcs, -⟩ := hlook hs
    exact ⟨_, hcs, hkind, hfile⟩
  · exact hpackages _ (hg.packages x (htables.2 ▸ hx))

end Move

end ScopeGraph

/-! ## One file -/

namespace ScopeBuilder

open ScopeGraph

/-- A graph whose scopes have places, grown from another one. -/
def IsPlacedFrom (g h : ScopeGraph) : Prop := h.IsPlaced ∧ g.Grows h

variable {g h : ScopeGraph} {i file : Nat}

theorem isPlacedFrom_modify (hh : IsPlacedFrom g h) {f : Scope → Scope}
    (hf : ∀ s : Scope, s.Keeps (f s)) : IsPlacedFrom g (h.modify i f) :=
  ⟨isPlaced_modify hh.1 hf, hh.2.trans (grows_modify hf)⟩

theorem isPlacedFrom_define (hh : IsPlacedFrom g h) (d : Definition) :
    IsPlacedFrom g (h.define i d).1 :=
  isPlacedFrom_modify hh fun _ => ⟨rfl, rfl, rfl, rfl, List.Subset.refl _⟩

/-- Nesting keeps places, and all open regions lie in a file. -/
theorem nest_isPlaced (hfile : g.IsFileAt file) {n : Nesting} (m : ScopeMark)
    (hn : IsPlacedFrom g n.graph ∧ ∀ r ∈ n.stack, n.graph.IsInFile r.scope) :
    IsPlacedFrom g (nest file n m).graph ∧
      ∀ r ∈ (nest file n m).stack, (nest file n m).graph.IsInFile r.scope := by
  obtain ⟨⟨hplaced, hgrow⟩, hstack⟩ := hn
  have hsub : ∀ r ∈ n.stack.dropWhile fun r => !r.span.contains m.span, n.graph.IsInFile r.scope :=
    fun r hr => hstack r ((List.dropWhile_sublist _).subset hr)
  have hparent : n.graph.IsInFile
      (((n.stack.dropWhile fun r => !r.span.contains m.span).head?.map (·.scope)).getD file) := by
    cases hhead : (n.stack.dropWhile fun r => !r.span.contains m.span).head? with
    | none => exact (hfile.grow hgrow).isInFile
    | some r => exact hsub r (List.mem_of_head? hhead)
  obtain ⟨hadd, hgrown, hnew⟩ := isPlaced_addScope hplaced m.kind hparent
  refine ⟨⟨hadd, hgrow.trans hgrown⟩, fun r hr => ?_⟩
  rcases List.mem_cons.mp hr with rfl | hr
  · exact hnew
  · exact (hsub r hr).grow hgrown

theorem isPlacedFrom_addScopes (hg : g.IsPlaced) (hfile : g.IsFileAt file)
    (marks : List ScopeMark) : IsPlacedFrom g (addScopes g file marks).1 := by
  have h := List.foldlRecOn (ScopeMark.arrange marks) (nest file) (b := ⟨g, [], []⟩)
    (motive := fun n => IsPlacedFrom g n.graph ∧ ∀ r ∈ n.stack, n.graph.IsInFile r.scope)
    ⟨⟨hg, Grows.refl g⟩, by simp⟩ fun n hn m _ => nest_isPlaced hfile m hn
  exact h.1

theorem isPlacedFrom_bind (language : Language) (path : Path) (regions : List Region)
    {b : ScopeBuilder} (hb : IsPlacedFrom g b.graph) (m : BindingMark) :
    IsPlacedFrom g (bind language path file regions b m).graph := by
  unfold bind
  dsimp only
  split
  · exact hb
  · split
    · split
      · exact isPlacedFrom_define hb _
      · exact isPlacedFrom_define hb _
    · exact isPlacedFrom_define hb _

theorem isPlacedFrom_addUse (regions : List Region) (hh : IsPlacedFrom g h) (u : UseMark) :
    IsPlacedFrom g (addUse file regions h u) :=
  isPlacedFrom_modify hh fun _ => ⟨rfl, rfl, rfl, rfl, List.Subset.refl _⟩

theorem isPlaced_joinPackage (hg : g.IsPlaced) (path : Path) (hfile : g.IsFileAt file) :
    (joinPackage g path file).IsPlaced := by
  obtain ⟨hadd, hgrow, hpackage⟩ := isPlaced_addPackage hg path.packageKey
  have hmoved := isPlaced_setParent hadd (hfile.grow hgrow) hpackage
  unfold joinPackage
  dsimp only
  exact List.foldlRecOn _ _ (motive := IsPlaced) hmoved fun h hh d _ =>
    (isPlacedFrom_define ⟨hh, Grows.refl h⟩ d).1

theorem isPlaced_addMarks {b : ScopeBuilder} (hb : b.graph.IsPlaced) (path : Path)
    (language : Language) (marks : Marks) : (b.addMarks path language marks).1.graph.IsPlaced := by
  obtain ⟨hadd, -, hfile⟩ := isPlaced_addFile hb path
  unfold addMarks addEmpty
  dsimp only
  split
  · have hscopes := isPlacedFrom_addScopes hadd hfile marks.scopes
    have hbound := List.foldlRecOn (BindingMark.arrange marks.bindings)
      (bind language path (b.graph.addFile path).2
        (addScopes (b.graph.addFile path).1 (b.graph.addFile path).2 marks.scopes).2)
      (motive := fun b' => IsPlacedFrom (b.graph.addFile path).1 b'.graph)
      (b := ⟨(addScopes (b.graph.addFile path).1 (b.graph.addFile path).2 marks.scopes).1,
        b.imports⟩) hscopes fun b' hb' m _ => isPlacedFrom_bind language path _ hb' m
    have hused := List.foldlRecOn (UseMark.arrange marks.realUses)
      (addUse (b.graph.addFile path).2
        (addScopes (b.graph.addFile path).1 (b.graph.addFile path).2 marks.scopes).2)
      (motive := IsPlacedFrom (b.graph.addFile path).1) hbound
      fun g hg u _ => isPlacedFrom_addUse _ hg u
    split
    · exact isPlaced_joinPackage hused.1 path (hfile.grow hused.2)
    · exact hused.1
  · exact hadd

theorem isPlaced_addEmpty {b : ScopeBuilder} (hb : b.graph.IsPlaced) (path : Path) :
    (b.addEmpty path).1.graph.IsPlaced :=
  (isPlaced_addFile hb path).1

theorem isPlaced_addSource {b : ScopeBuilder} (hb : b.graph.IsPlaced) (path : Path)
    (language : Language) (source : ByteArray) :
    (b.addSource path language source).1.graph.IsPlaced := by
  unfold addSource
  split
  · exact isPlaced_addMarks hb path language _
  · exact isPlaced_addEmpty hb path

end ScopeBuilder

/-! ## Any number of files -/

/-- A file that is added to a graph. -/
inductive Addition where
  /-- A file about whose inside nothing is known. -/
  | empty (path : Path)
  /-- A file with its source. -/
  | source (path : Path) (language : Language) (content : ByteArray)
  /-- A file with any marks whatever. -/
  | marks (path : Path) (language : Language) (marks : Marks)

/-- Adds one file. -/
def ScopeBuilder.add (b : ScopeBuilder) : Addition → ScopeBuilder
  | .empty path => (b.addEmpty path).1
  | .source path language content => (b.addSource path language content).1
  | .marks path language marks => (b.addMarks path language marks).1

/-- Adds files one after the other. -/
def ScopeBuilder.run (additions : List Addition) : ScopeBuilder := additions.foldl add ∅

/-- **Files can be added in any number and any order, the same one repeatedly too: all scopes have
places.** -/
theorem ScopeBuilder.isPlaced_run (additions : List Addition) :
    (run additions).graph.IsPlaced := by
  refine List.foldlRecOn additions add (b := ∅) (motive := fun b => b.graph.IsPlaced)
    ScopeGraph.isPlaced_empty fun b hb a _ => ?_
  cases a with
  | empty path => exact isPlaced_addEmpty hb path
  | source path language content => exact isPlaced_addSource hb path language content
  | marks path language marks => exact isPlaced_addMarks hb path language marks

/-! ## The scopes around a scope -/

namespace ScopeGraph

variable {g : ScopeGraph} {i : Nat} {s : Scope}

/-- The scopes from one with a number up to one without a parent. -/
inductive Chain (g : ScopeGraph) : Nat → List Scope → Prop
  | root {i : Nat} {s : Scope} (hs : g.scope? i = some s) (hroot : s.parent = none) : Chain g i [s]
  | step {i p : Nat} {s : Scope} {chain : List Scope} (hs : g.scope? i = some s)
      (hparent : s.parent = some p) (hchain : Chain g p chain) : Chain g i (s :: chain)

/-- What is said about the scopes around a scope: the last one is a file or a package, and if the
scope lies in a file, then so do the files among them, of which there is one. -/
structure IsRooted (s : Scope) (chain : List Scope) : Prop where
  last : ∃ r, chain.getLast? = some r ∧ r.parent = none ∧ (r.kind = .file ∨ r.kind = .package)
  file : ∀ path, s.file = some path →
    (∃ t ∈ chain, t.kind = .file) ∧ ∀ t ∈ chain, t.kind = .file → t.file = some path

theorem isRooted_package (hs : s.IsPackage) : IsRooted s [s] where
  last := ⟨s, rfl, hs.2.1, .inr hs.1⟩
  file path hpath := by
    rw [hs.2.2] at hpath
    cases hpath

theorem getLast?_cons_of_some {t : Scope} {chain : List Scope} (h : chain.getLast? = some t) :
    (s :: chain).getLast? = some t := by
  rw [List.getLast?_cons, h]
  rfl

/-- **The scopes around a scope are finite in number and end with a file or a package.** -/
theorem IsPlaced.exists_chain (hg : g.IsPlaced) (hs : g.scope? i = some s) :
    ∃ chain, g.Chain i chain ∧ IsRooted s chain := by
  -- a scope inside of a file is younger than its parent
  induction i using Nat.strongRecOn generalizing s with
  | ind i ih =>
    cases hg.place i s hs with
    | package hpackage => exact ⟨[s], .root hs hpackage.2.1, isRooted_package hpackage⟩
    | file hkind hfile hparent =>
      cases hp : s.parent with
      | none =>
        refine ⟨[s], .root hs hp, ⟨s, rfl, hp, .inl hkind⟩, fun path hpath => ?_⟩
        exact ⟨⟨s, by simp, hkind⟩, by simp [hpath]⟩
      | some p =>
        obtain ⟨t, ht, hpackage⟩ := hparent p hp
        refine ⟨[s, t], .step hs hp (.root ht hpackage.2.1),
          ⟨t, rfl, hpackage.2.1, .inr hpackage.1⟩, fun path hpath => ?_⟩
        exact ⟨⟨s, by simp, hkind⟩, by simp [hpath, hpackage.1]⟩
    | @inner p t hparent hlt ht hsame hfile =>
      obtain ⟨chain, hchain, hlast, hfiles⟩ := ih p hlt ht
      obtain ⟨r, hr, hroot⟩ := hlast
      refine ⟨s :: chain, .step hs hparent hchain, ⟨r, getLast?_cons_of_some hr, hroot⟩, ?_⟩
      intro path hpath
      obtain ⟨⟨u, hu, hukind⟩, hall⟩ := hfiles path (hsame ▸ hpath)
      refine ⟨⟨u, List.mem_cons_of_mem _ hu, hukind⟩, fun v hv hvkind => ?_⟩
      rcases List.mem_cons.mp hv with rfl | hv
      · exact hpath
      · exact hall v hv hvkind

theorem IsPlaced.exists_file (hg : g.IsPlaced) (hs : g.scope? i = some s)
    (hkind : s.kind ≠ .package) : ∃ path, s.file = some path := by
  cases hg.place i s hs with
  | package hpackage => exact absurd hpackage.1 hkind
  | file _ hfile _ => exact Option.isSome_iff_exists.mp hfile
  | inner _ _ _ hsame hfile => exact Option.isSome_iff_exists.mp (hsame ▸ hfile)

end ScopeGraph

end SourceAtlas
