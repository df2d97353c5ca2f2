import Mathlib.Data.List.Induction
import Mathlib.Data.List.Nodup
import SourceAtlas.Proofs.Path.Order
import SourceAtlas.Proofs.Scope.Resolution
import SourceAtlas.Scope.Operation

/-!
# Links between scopes

Whatever operations a graph was made by, also ones that move scopes around in a circle, a scope is
held by its parent and by no other scope, and the tables of files and packages lead to the scopes of
files and packages.

* `ScopeGraph.parentOf`, `ScopeGraph.labelOf`: what is said about a scope;
* `ScopeGraph.IsLinked`: parents and children agree;
* `ScopeGraph.IsTable`, `ScopeGraph.IsTabled`: the tables lead to the right scopes;
* `Operation.runAll?`, `Operation.run_induction`: runs of operations;
* **`Operation.links_of_runAll?`**: every run leaves linked scopes and right tables.
-/

namespace SourceAtlas

namespace ScopeGraph

variable {g h : ScopeGraph} {i j c p : Nat} {s : Scope}

/-! ## Views of a graph -/

/-- The parent of the scope with a number. -/
def parentOf (g : ScopeGraph) (i : Nat) : Option Nat := (g.scope? i).bind (·.parent)

/-- The kind of the scope with a number, and the file that it lies in. -/
def labelOf (g : ScopeGraph) (i : Nat) : Option (ScopeKind × Option Path) :=
  (g.scope? i).map fun s => (s.kind, s.file)

@[simp] theorem files_empty : (∅ : ScopeGraph).files = [] := rfl

@[simp] theorem packages_empty : (∅ : ScopeGraph).packages = [] := rfl

theorem scope?_size (g : ScopeGraph) : g.scope? g.size = none :=
  Array.getElem?_eq_none (Nat.le_refl _)

theorem lt_of_mem_childrenOf (hc : c ∈ g.childrenOf p) : p < g.size := by
  cases hs : g.scope? p with
  | none => simp [childrenOf, hs] at hc
  | some s => exact lt_size hs

section Push

variable (kind : ScopeKind) (parent : Option Nat) (file : Option Path)

theorem parentOf_push : (g.push kind parent file).parentOf i =
    if i = g.size then parent else g.parentOf i := by
  rw [parentOf, parentOf, scope?_push]
  split <;> rfl

theorem childrenOf_push : (g.push kind parent file).childrenOf i = g.childrenOf i := by
  rw [childrenOf, childrenOf, scope?_push]
  split_ifs with hi
  · rw [hi, scope?_size]
    rfl
  · rfl

theorem labelOf_push : (g.push kind parent file).labelOf i =
    if i = g.size then some (kind, file) else g.labelOf i := by
  rw [labelOf, labelOf, scope?_push]
  split <;> rfl

end Push

section Modify

variable {f : Scope → Scope}

theorem parentOf_modify (hf : ∀ s, (f s).parent = s.parent) :
    (g.modify j f).parentOf i = g.parentOf i := by
  rw [parentOf, parentOf, scope?_modify]
  split
  · cases g.scope? i <;> simp [hf]
  · rfl

theorem childrenOf_modify (hf : ∀ s, (f s).children = s.children) :
    (g.modify j f).childrenOf i = g.childrenOf i := by
  rw [childrenOf, childrenOf, scope?_modify]
  split
  · cases g.scope? i <;> simp [hf]
  · rfl

theorem labelOf_modify (hkind : ∀ s, (f s).kind = s.kind) (hfile : ∀ s, (f s).file = s.file) :
    (g.modify j f).labelOf i = g.labelOf i := by
  rw [labelOf, labelOf, scope?_modify]
  split
  · cases g.scope? i <;> simp [hkind, hfile]
  · rfl

theorem id_modify (hf : ∀ s, (f s).id = s.id) (hg : ∀ i s, g.scope? i = some s → s.id = i) :
    ∀ i s, (g.modify j f).scope? i = some s → s.id = i := by
  intro i s hs
  rw [scope?_modify] at hs
  split_ifs at hs
  · obtain ⟨t, ht, rfl⟩ := Option.map_eq_some_iff.mp hs
    rw [hf, hg i t ht]
  · exact hg i s hs

end Modify

theorem childrenOf_hold (hj : j < g.size) :
    (g.modify j fun s => { s with children := s.children ++ [c] }).childrenOf i =
      g.childrenOf i ++ if j = i then [c] else [] := by
  rw [childrenOf, childrenOf, scope?_modify]
  split_ifs with hi
  · subst hi
    obtain ⟨s, hs⟩ := scope?_isSome hj
    simp [hs]
  · simp

theorem parentOf_hold :
    (g.modify j fun s => { s with children := s.children ++ [c] }).parentOf i = g.parentOf i :=
  parentOf_modify fun _ => rfl

theorem labelOf_hold :
    (g.modify j fun s => { s with children := s.children ++ [c] }).labelOf i = g.labelOf i :=
  labelOf_modify (fun _ => rfl) fun _ => rfl

theorem parentOf_detach : (g.detach c).parentOf i = g.parentOf i := by
  unfold detach
  split
  · exact parentOf_modify fun _ => rfl
  · rfl

theorem labelOf_detach : (g.detach c).labelOf i = g.labelOf i := by
  unfold detach
  split
  · exact labelOf_modify (fun _ => rfl) fun _ => rfl
  · rfl

theorem childrenOf_detach : (g.detach c).childrenOf i =
    if g.parentOf c = some i then (g.childrenOf i).filter (· ≠ c) else g.childrenOf i := by
  unfold detach parentOf
  cases (g.scope? c).bind (·.parent) with
  | none => simp
  | some old =>
    rw [childrenOf, childrenOf, scope?_modify]
    by_cases hi : old = i
    · subst hi
      cases g.scope? old <;> simp
    · simp [hi]

theorem tables_setParent (c p : Nat) :
    (g.setParent c p).files = g.files ∧ (g.setParent c p).packages = g.packages := by
  unfold setParent
  split
  · exact ⟨rfl, rfl⟩
  · exact tables_detach

section SetParent

variable (hne : c ≠ p) (hc : c < g.size) (hp : p < g.size)

include hne hc hp

theorem parentOf_setParent :
    (g.setParent c p).parentOf i = if i = c then some p else g.parentOf i := by
  rw [setParent_eq hne hc hp, parentOf_hold]
  have hdetached : c < (g.detach c).size := by rwa [size_detach]
  by_cases hi : i = c
  · subst hi
    obtain ⟨s, hs⟩ := scope?_isSome hdetached
    simp [parentOf, scope?_modify, hs]
  · rw [parentOf, scope?_modify, if_neg (Ne.symm hi), if_neg hi]
    exact parentOf_detach

theorem childrenOf_setParent : (g.setParent c p).childrenOf i =
    (if g.parentOf c = some i then (g.childrenOf i).filter (· ≠ c) else g.childrenOf i) ++
      if p = i then [c] else [] := by
  have hmoved : ((g.detach c).modify c fun s => { s with parent := some p }).childrenOf i =
      (g.detach c).childrenOf i := childrenOf_modify fun _ => rfl
  rw [setParent_eq hne hc hp, childrenOf_hold (by rwa [size_modify, size_detach]), hmoved,
    childrenOf_detach]

theorem labelOf_setParent : (g.setParent c p).labelOf i = g.labelOf i := by
  have hmoved : ((g.detach c).modify c fun s => { s with parent := some p }).labelOf i =
      (g.detach c).labelOf i := labelOf_modify (fun _ => rfl) fun _ => rfl
  rw [setParent_eq hne hc hp, labelOf_hold, hmoved, labelOf_detach]

end SetParent

/-! ## Parents and children -/

/-- Scopes know their numbers, and a scope is held once by its parent and by no other scope. -/
structure IsLinked (g : ScopeGraph) : Prop where
  id_eq : ∀ i s, g.scope? i = some s → s.id = i
  count_children : ∀ c p, (g.childrenOf p).count c = if g.parentOf c = some p then 1 else 0

namespace IsLinked

theorem parentOf_eq_some_iff (hg : g.IsLinked) : g.parentOf c = some p ↔ c ∈ g.childrenOf p := by
  have hcount := hg.count_children c p
  rw [← List.count_pos_iff, hcount]
  split_ifs with hparent <;> simp [hparent]

theorem parent_lt (hg : g.IsLinked) (hparent : g.parentOf c = some p) : p < g.size :=
  lt_of_mem_childrenOf (hg.parentOf_eq_some_iff.mp hparent)

theorem congr (hg : g.IsLinked) (hid : ∀ i s, h.scope? i = some s → s.id = i)
    (hparent : ∀ i, h.parentOf i = g.parentOf i)
    (hchildren : ∀ i, h.childrenOf i = g.childrenOf i) : h.IsLinked :=
  ⟨hid, fun c p => by rw [hparent, hchildren, hg.count_children]⟩

theorem modify (hg : g.IsLinked) {f : Scope → Scope} (hid : ∀ s, (f s).id = s.id)
    (hparent : ∀ s, (f s).parent = s.parent) (hchildren : ∀ s, (f s).children = s.children) :
    (g.modify j f).IsLinked :=
  hg.congr (id_modify hid hg.id_eq) (fun _ => parentOf_modify hparent)
    fun _ => childrenOf_modify hchildren

theorem id_push (hg : g.IsLinked) (kind : ScopeKind) (parent : Option Nat) (file : Option Path) :
    ∀ i s, (g.push kind parent file).scope? i = some s → s.id = i := by
  intro i s hs
  rw [scope?_push] at hs
  split_ifs at hs with hi
  · cases hs
    exact hi.symm
  · exact hg.id_eq i s hs

theorem count_size (hg : g.IsLinked) : (g.childrenOf p).count g.size = 0 := by
  rw [hg.count_children, parentOf, scope?_size]
  rfl

theorem push (hg : g.IsLinked) (kind : ScopeKind) (file : Option Path) :
    (g.push kind none file).IsLinked where
  id_eq := hg.id_push kind none file
  count_children c p := by
    rw [childrenOf_push, parentOf_push]
    by_cases hc : c = g.size
    · subst hc
      rw [hg.count_size]
      simp
    · rw [if_neg hc, hg.count_children]

theorem addFile (hg : g.IsLinked) (path : Path) : (g.addFile path).1.IsLinked := by
  unfold ScopeGraph.addFile
  cases g.file? path with
  | some i => exact hg
  | none => exact (hg.push .file (some path)).congr (hg.id_push _ _ _) (fun _ => rfl) fun _ => rfl

theorem addPackage (hg : g.IsLinked) (key : String) : (g.addPackage key).1.IsLinked := by
  unfold ScopeGraph.addPackage
  cases g.package? key with
  | some i => exact hg
  | none => exact (hg.push .package none).congr (hg.id_push _ _ _) (fun _ => rfl) fun _ => rfl

theorem addScope (hg : g.IsLinked) (kind : ScopeKind) (hp : p < g.size) :
    (g.addScope kind p).1.IsLinked := by
  obtain ⟨t, ht⟩ := scope?_isSome hp
  unfold ScopeGraph.addScope
  rw [ht]
  have hheld : p < (g.push kind (some p) t.file).size := by rw [size_push]; omega
  refine ⟨id_modify (fun _ => rfl) (hg.id_push _ _ _), fun c q => ?_⟩
  rw [childrenOf_hold hheld, parentOf_hold, childrenOf_push, parentOf_push, List.count_append]
  by_cases hc : c = g.size
  · -- the new scope is held by its parent, where it was not before
    subst hc
    rw [hg.count_size]
    by_cases hq : p = q <;> simp [hq]
  · rw [if_neg hc, hg.count_children]
    by_cases hq : p = q <;> simp [hq, Ne.symm hc]

/-- A move takes a scope away from the one that holds it before another one holds it. -/
theorem setParent (hg : g.IsLinked) (hfits : c = p ∨ c < g.size ∧ p < g.size) :
    (g.setParent c p).IsLinked := by
  by_cases hne : c = p
  · rw [ScopeGraph.setParent, if_pos (.inl hne)]
    exact hg
  · obtain ⟨hc, hp⟩ := hfits.resolve_left hne
    refine ⟨?_, fun x q => ?_⟩
    · rw [setParent_eq hne hc hp]
      refine id_modify (fun _ => rfl) (id_modify (fun _ => rfl) ?_)
      unfold detach
      split
      · exact id_modify (fun _ => rfl) hg.id_eq
      · exact hg.id_eq
    · rw [childrenOf_setParent hne hc hp, parentOf_setParent hne hc hp, List.count_append]
      by_cases hx : x = c
      · -- the scope that moves is held by none in between
        subst hx
        have hdetached : (if g.parentOf x = some q then (g.childrenOf q).filter (· ≠ x)
            else g.childrenOf q).count x = 0 := by
          split_ifs with hold
          · exact List.count_eq_zero.mpr (by simp)
          · rw [hg.count_children, if_neg hold]
        rw [hdetached]
        by_cases hq : p = q <;> simp [hq]
      · have hkept : (if g.parentOf c = some q then (g.childrenOf q).filter (· ≠ c)
            else g.childrenOf q).count x = (g.childrenOf q).count x := by
          split_ifs
          · exact List.count_filter (by simp [hx])
          · rfl
        rw [hkept, hg.count_children, if_neg hx]
        by_cases hq : p = q <;> simp [hq, Ne.symm hx]

theorem resolve (hg : g.IsLinked) : g.resolve.IsLinked := by
  refine hg.congr (fun i s hs => ?_) (fun i => ?_) fun i => ?_
  · rw [scope?_resolve] at hs
    obtain ⟨t, ht, rfl⟩ := Option.map_eq_some_iff.mp hs
    exact hg.id_eq i t ht
  · rw [parentOf, parentOf, scope?_resolve]
    cases g.scope? i <;> rfl
  · rw [childrenOf, childrenOf, scope?_resolve]
    cases g.scope? i <;> rfl

end IsLinked

theorem isLinked_empty : IsLinked ∅ where
  id_eq i _ hs := absurd (lt_size hs) (Nat.not_lt_zero i)
  count_children _ _ := rfl

/-! ## Tables -/

section Table

variable {κ β : Type} {view : κ → β} {table : List (κ × Nat)} {key : κ} {n : Nat}

/-- A table in which keys are told apart by a view of them, no key occurs twice and different keys
lead to different scopes. -/
structure IsTable (view : κ → β) (table : List (κ × Nat)) : Prop where
  keys : (table.map fun x => view x.1).Nodup
  scopes : (table.map (·.2)).Nodup

theorem IsTable.append (ht : IsTable view table) (hnew : ∀ x ∈ table, view x.1 ≠ view key)
    (hlt : ∀ x ∈ table, x.2 < n) : IsTable view (table ++ [(key, n)]) where
  keys := by
    rw [List.map_append, List.nodup_append]
    refine ⟨ht.keys, by simp, fun a ha b hb => ?_⟩
    obtain ⟨x, hx, rfl⟩ := List.mem_map.mp ha
    have hb' : b = view key := by simpa using hb
    rw [hb']
    exact hnew x hx
  scopes := by
    rw [List.map_append, List.nodup_append]
    refine ⟨ht.scopes, by simp, fun a ha b hb => ?_⟩
    obtain ⟨x, hx, rfl⟩ := List.mem_map.mp ha
    have hb' : b = n := by simpa using hb
    have := hlt x hx
    omega

theorem IsTable.find?_eq_some_iff (ht : IsTable view table) {same : κ → κ → Bool}
    (hsame : ∀ a b, same a b = true ↔ view a = view b) :
    (table.find? fun x => same x.1 key).map (·.2) = some n ↔
      ∃ k, (k, n) ∈ table ∧ same k key = true := by
  rw [Option.map_eq_some_iff]
  constructor
  · rintro ⟨⟨k, m⟩, hx, rfl⟩
    exact ⟨k, List.mem_of_find?_eq_some hx, by simpa using List.find?_some hx⟩
  · rintro ⟨k, hmem, hk⟩
    obtain ⟨x, hx⟩ : ∃ x, table.find? (fun x => same x.1 key) = some x := by
      rw [← Option.isSome_iff_exists, List.find?_isSome]
      exact ⟨(k, n), hmem, hk⟩
    have hxkey : same x.1 key = true := by simpa using List.find?_some hx
    -- the entry that is found has the same key, so it is the one that is looked for
    have hview : view x.1 = view k := ((hsame _ _).mp hxkey).trans ((hsame _ _).mp hk).symm
    have heq := List.inj_on_of_nodup_map ht.keys (List.mem_of_find?_eq_some hx) hmem hview
    exact ⟨x, hx, congrArg Prod.snd heq⟩

theorem IsTable.eq_of_scope (ht : IsTable view table) {k l : κ} (hk : (k, n) ∈ table)
    (hl : (l, n) ∈ table) : k = l :=
  congrArg Prod.fst (List.inj_on_of_nodup_map ht.scopes hk hl rfl)

end Table

/-- The tables lead to the scopes of files and packages. -/
structure IsTabled (g : ScopeGraph) : Prop where
  files : IsTable Path.components g.files
  packages : IsTable id g.packages
  label_file : ∀ x ∈ g.files, g.labelOf x.2 = some (.file, some x.1)
  label_package : ∀ x ∈ g.packages, g.labelOf x.2 = some (.package, none)

theorem lt_of_labelOf {l : ScopeKind × Option Path} (hl : g.labelOf i = some l) : i < g.size := by
  obtain ⟨s, hs, -⟩ := Option.map_eq_some_iff.mp hl
  exact lt_size hs

namespace IsTabled

variable {path : Path} {key : String}

theorem file?_eq_some_iff (hg : g.IsTabled) :
    g.file? path = some i ↔ ∃ q, (q, i) ∈ g.files ∧ q.same path = true :=
  hg.files.find?_eq_some_iff fun _ _ => Path.same_iff

theorem package?_eq_some_iff (hg : g.IsTabled) :
    g.package? key = some i ↔ ∃ k, (k, i) ∈ g.packages ∧ (k == key) = true :=
  hg.packages.find?_eq_some_iff fun _ _ => beq_iff_eq

theorem file_lt (hg : g.IsTabled) {x : Path × Nat} (hx : x ∈ g.files) : x.2 < g.size :=
  lt_of_labelOf (hg.label_file x hx)

theorem package_lt (hg : g.IsTabled) {x : String × Nat} (hx : x ∈ g.packages) : x.2 < g.size :=
  lt_of_labelOf (hg.label_package x hx)

/-- Tables are right as long as they stay as they are and the scopes keep their labels. -/
theorem keep (hg : g.IsTabled) (hfiles : h.files = g.files) (hpackages : h.packages = g.packages)
    (hlabel : ∀ i < g.size, h.labelOf i = g.labelOf i) : h.IsTabled where
  files := hfiles ▸ hg.files
  packages := hpackages ▸ hg.packages
  label_file x hx := by
    have hx' : x ∈ g.files := hfiles ▸ hx
    rw [hlabel x.2 (hg.file_lt hx'), hg.label_file x hx']
  label_package x hx := by
    have hx' : x ∈ g.packages := hpackages ▸ hx
    rw [hlabel x.2 (hg.package_lt hx'), hg.label_package x hx']

theorem modify (hg : g.IsTabled) {f : Scope → Scope} (hkind : ∀ s, (f s).kind = s.kind)
    (hfile : ∀ s, (f s).file = s.file) : (g.modify j f).IsTabled :=
  hg.keep rfl rfl fun _ _ => labelOf_modify hkind hfile

theorem push (hg : g.IsTabled) (kind : ScopeKind) (parent : Option Nat) (file : Option Path) :
    (g.push kind parent file).IsTabled :=
  hg.keep rfl rfl fun i hi => by rw [labelOf_push, if_neg (Nat.ne_of_lt hi)]

theorem addFile (hg : g.IsTabled) (path : Path) : (g.addFile path).1.IsTabled := by
  unfold ScopeGraph.addFile
  cases hfile : g.file? path with
  | some i => exact hg
  | none =>
    have hpush := hg.push .file none (some path)
    have hnew : ∀ x ∈ g.files, x.1.components ≠ path.components := by
      intro x hx heq
      have hnone := List.find?_eq_none.mp (Option.map_eq_none_iff.mp hfile) x hx
      exact hnone (Path.same_iff.mpr heq)
    refine ⟨hg.files.append hnew fun x hx => hg.file_lt hx, hg.packages, fun x hx => ?_,
      hpush.label_package⟩
    rcases List.mem_append.mp hx with hx | hx
    · exact hpush.label_file x hx
    · rw [List.mem_singleton.mp hx]
      exact (labelOf_push _ _ _).trans (if_pos rfl)

theorem addPackage (hg : g.IsTabled) (key : String) : (g.addPackage key).1.IsTabled := by
  unfold ScopeGraph.addPackage
  cases hpackage : g.package? key with
  | some i => exact hg
  | none =>
    have hpush := hg.push .package none none
    have hnew : ∀ x ∈ g.packages, id x.1 ≠ id key := by
      intro x hx heq
      have hnone := List.find?_eq_none.mp (Option.map_eq_none_iff.mp hpackage) x hx
      exact hnone (beq_iff_eq.mpr heq)
    refine ⟨hg.files, hg.packages.append hnew fun x hx => hg.package_lt hx, hpush.label_file,
      fun x hx => ?_⟩
    rcases List.mem_append.mp hx with hx | hx
    · exact hpush.label_package x hx
    · rw [List.mem_singleton.mp hx]
      exact (labelOf_push _ _ _).trans (if_pos rfl)

theorem addScope (hg : g.IsTabled) (kind : ScopeKind) (p : Nat) :
    (g.addScope kind p).1.IsTabled := by
  unfold ScopeGraph.addScope
  cases g.scope? p with
  | none => exact hg
  | some t => exact (hg.push kind (some p) t.file).modify (fun _ => rfl) fun _ => rfl

theorem setParent (hg : g.IsTabled) (c p : Nat) : (g.setParent c p).IsTabled := by
  by_cases hstay : c = p ∨ g.size ≤ c ∨ g.size ≤ p
  · rw [ScopeGraph.setParent, if_pos hstay]
    exact hg
  · obtain ⟨hne, hc, hp⟩ : c ≠ p ∧ c < g.size ∧ p < g.size := by omega
    have htables := tables_setParent (g := g) c p
    exact hg.keep htables.1 htables.2 fun _ _ => labelOf_setParent hne hc hp

theorem resolve (hg : g.IsTabled) : g.resolve.IsTabled := by
  refine hg.keep rfl rfl fun i _ => ?_
  rw [labelOf, labelOf, scope?_resolve]
  cases g.scope? i <;> rfl

end IsTabled

theorem isTabled_empty : IsTabled ∅ where
  files := ⟨List.nodup_nil, List.nodup_nil⟩
  packages := ⟨List.nodup_nil, List.nodup_nil⟩
  label_file _ hx := absurd hx List.not_mem_nil
  label_package _ hx := absurd hx List.not_mem_nil

end ScopeGraph

/-! ## Runs of operations -/

namespace Operation

open ScopeGraph

variable {g : ScopeGraph}

/-- The graph after some operations, if the scopes exist that each of them names. -/
def runAll? (ops : List Operation) : Option ScopeGraph :=
  ops.foldlM (fun g o => (o.run? g).map (·.1)) ∅

/-- A place in a file, for runs that are written out. -/
def somewhere : Location := ⟨⟨"a.go"⟩, 1, 1, 1, 2⟩

/-- What holds of the empty graph and is kept by every operation holds after every run. -/
theorem run_induction {P : List Operation → ScopeGraph → Prop} (empty : P [] ∅)
    (step : ∀ ops o g, P ops g → o.fits g = true → P (ops ++ [o]) (o.apply g).1)
    {ops : List Operation} (hrun : runAll? ops = some g) : P ops g := by
  induction ops using List.reverseRecOn generalizing g with
  | nil =>
    cases hrun
    exact empty
  | append_singleton ops o ih =>
    rw [runAll?, List.foldlM_append] at hrun
    obtain ⟨before, hbefore, hlast⟩ := Option.bind_eq_some_iff.mp hrun
    simp only [List.foldlM_cons, List.foldlM_nil, run?] at hlast
    split_ifs at hlast with hfits
    · cases hlast
      exact step ops o before (ih hbefore) hfits
    · cases hlast

theorem isLinked_apply (hg : g.IsLinked) (o : Operation) (hfits : o.fits g = true) :
    (o.apply g).1.IsLinked := by
  cases o with
  | addFile path => exact hg.addFile path
  | addPackage key => exact hg.addPackage key
  | addScope kind parent => exact hg.addScope kind (by simpa [fits] using hfits)
  | setParent child parent => exact hg.setParent (by simpa [fits] using hfits)
  | define scope d => exact hg.modify (fun _ => rfl) (fun _ => rfl) fun _ => rfl
  | setOpened handle opened => exact hg.modify (fun _ => rfl) (fun _ => rfl) fun _ => rfl
  | addUse scope u => exact hg.modify (fun _ => rfl) (fun _ => rfl) fun _ => rfl
  | resolve => exact hg.resolve

theorem isTabled_apply (hg : g.IsTabled) (o : Operation) : (o.apply g).1.IsTabled := by
  cases o with
  | addFile path => exact hg.addFile path
  | addPackage key => exact hg.addPackage key
  | addScope kind parent => exact hg.addScope kind parent
  | setParent child parent => exact hg.setParent child parent
  | define scope d => exact hg.modify (fun _ => rfl) fun _ => rfl
  | setOpened handle opened => exact hg.modify (fun _ => rfl) fun _ => rfl
  | addUse scope u => exact hg.modify (fun _ => rfl) fun _ => rfl
  | resolve => exact hg.resolve

section Tables

variable {path : Path} {key : String}

theorem isSome_file?_iff : (g.file? path).isSome = true ↔ ∃ x ∈ g.files, x.1.same path = true := by
  rw [ScopeGraph.file?, Option.isSome_map, List.find?_isSome]

theorem isSome_package?_iff :
    (g.package? key).isSome = true ↔ ∃ x ∈ g.packages, (x.1 == key) = true := by
  rw [ScopeGraph.package?, Option.isSome_map, List.find?_isSome]

theorem isSome_file?_addFile (q : Path) : ((g.addFile q).1.file? path).isSome = true ↔
    (g.file? path).isSome = true ∨ q.same path = true := by
  unfold ScopeGraph.addFile
  cases hq : g.file? q with
  | none =>
    rw [isSome_file?_iff, isSome_file?_iff]
    simp [ScopeGraph.push, or_and_right, exists_or]
  | some i =>
    refine ⟨.inl, fun hor => hor.elim id fun hsame => ?_⟩
    -- the file was there before, under this or another spelling
    obtain ⟨x, hx, hxq⟩ := isSome_file?_iff.mp (Option.isSome_iff_exists.mpr ⟨i, hq⟩)
    rw [Path.same_iff] at hxq hsame
    exact isSome_file?_iff.mpr ⟨x, hx, Path.same_iff.mpr (hxq.trans hsame)⟩

theorem isSome_package?_addPackage (k : String) : ((g.addPackage k).1.package? key).isSome = true ↔
    (g.package? key).isSome = true ∨ k = key := by
  unfold ScopeGraph.addPackage
  cases hk : g.package? k with
  | none =>
    rw [isSome_package?_iff, isSome_package?_iff]
    simp [ScopeGraph.push, or_and_right, exists_or]
  | some i =>
    refine ⟨.inl, fun hor => hor.elim id ?_⟩
    rintro rfl
    exact Option.isSome_iff_exists.mpr ⟨i, hk⟩

theorem files_apply {o : Operation} (ho : ∀ q, o ≠ .addFile q) : (o.apply g).1.files = g.files := by
  cases o with
  | addFile q => exact absurd rfl (ho q)
  | addPackage k =>
    change (g.addPackage k).1.files = _
    unfold ScopeGraph.addPackage
    split <;> rfl
  | addScope kind parent =>
    change (g.addScope kind parent).1.files = _
    unfold ScopeGraph.addScope
    split <;> rfl
  | setParent child parent => exact (tables_setParent child parent).1
  | define | setOpened | addUse | resolve => rfl

theorem packages_apply {o : Operation} (ho : ∀ k, o ≠ .addPackage k) :
    (o.apply g).1.packages = g.packages := by
  cases o with
  | addPackage k => exact absurd rfl (ho k)
  | addFile q =>
    change (g.addFile q).1.packages = _
    unfold ScopeGraph.addFile
    split <;> rfl
  | addScope kind parent =>
    change (g.addScope kind parent).1.packages = _
    unfold ScopeGraph.addScope
    split <;> rfl
  | setParent child parent => exact (tables_setParent child parent).2
  | define | setOpened | addUse | resolve => rfl

theorem isSome_file?_of_runAll? {ops : List Operation} (hrun : runAll? ops = some g) :
    (g.file? path).isSome = true ↔ ∃ q, addFile q ∈ ops ∧ q.same path = true := by
  refine run_induction (P := fun ops g => (g.file? path).isSome = true ↔
    ∃ q, addFile q ∈ ops ∧ q.same path = true) (by simp [isSome_file?_iff]) ?_ hrun
  intro ops o g ih _
  by_cases ho : ∃ q, o = .addFile q
  · obtain ⟨q, rfl⟩ := ho
    refine (isSome_file?_addFile q).trans ?_
    rw [ih]
    simp [or_and_right, exists_or]
  · have hfiles : (o.apply g).1.files = g.files := files_apply fun q hq => ho ⟨q, hq⟩
    have hother : ∀ q, addFile q ≠ o := fun q hq => ho ⟨q, hq.symm⟩
    rw [ScopeGraph.file?, hfiles]
    refine ih.trans ?_
    simp [hother]

theorem isSome_package?_of_runAll? {ops : List Operation} (hrun : runAll? ops = some g) :
    (g.package? key).isSome = true ↔ addPackage key ∈ ops := by
  refine run_induction (P := fun ops g => (g.package? key).isSome = true ↔ addPackage key ∈ ops)
    (by simp [isSome_package?_iff]) ?_ hrun
  intro ops o g ih _
  by_cases ho : ∃ k, o = .addPackage k
  · obtain ⟨k, rfl⟩ := ho
    refine (isSome_package?_addPackage k).trans ?_
    rw [ih]
    simp [eq_comm]
  · have hpackages : (o.apply g).1.packages = g.packages := packages_apply fun k hk => ho ⟨k, hk⟩
    have hother : addPackage key ≠ o := fun hk => ho ⟨key, hk.symm⟩
    rw [ScopeGraph.package?, hpackages]
    refine ih.trans ?_
    simp [hother]

end Tables

theorem isLinked_of_runAll? {ops : List Operation} (hrun : runAll? ops = some g) : g.IsLinked :=
  run_induction (P := fun _ g => g.IsLinked) isLinked_empty
    (fun _ o _ hg hfits => isLinked_apply hg o hfits) hrun

theorem isTabled_of_runAll? {ops : List Operation} (hrun : runAll? ops = some g) : g.IsTabled :=
  run_induction (P := fun _ g => g.IsTabled) isTabled_empty
    (fun _ o _ hg _ => isTabled_apply hg o) hrun

/-- **Every run leaves linked scopes and right tables.** Scopes know their numbers. A scope has a
parent exactly when that one holds it, and then it holds it once, no other scope does, and the
parent exists. The table of files has the files that were added, under all spellings of their paths,
and leads to scopes of files with these paths; that of packages has the packages that were added and
leads to scopes of packages. Two entries never lead to one scope. -/
theorem links_of_runAll? (ops : List Operation) (g : ScopeGraph) (hrun : runAll? ops = some g) :
    (∀ i s, g.scope? i = some s → s.id = i) ∧
    (∀ c p, g.parentOf c = some p ↔ c ∈ g.childrenOf p) ∧
    (∀ c p, g.parentOf c = some p →
      p < g.size ∧ (g.childrenOf p).count c = 1 ∧ ∀ q, c ∈ g.childrenOf q → q = p) ∧
    (∀ path, (g.file? path).isSome = true ↔ ∃ q, addFile q ∈ ops ∧ q.same path = true) ∧
    (∀ path i, g.file? path = some i → ∃ s q,
      g.scope? i = some s ∧ s.kind = .file ∧ s.file = some q ∧ q.same path = true) ∧
    (∀ path path' i, g.file? path = some i → g.file? path' = some i → path.same path' = true) ∧
    (∀ key, (g.package? key).isSome = true ↔ addPackage key ∈ ops) ∧
    (∀ key i, g.package? key = some i → ∃ s, g.scope? i = some s ∧ s.kind = .package) ∧
    (∀ key key' i, g.package? key = some i → g.package? key' = some i → key = key') := by
  have hlinked := isLinked_of_runAll? hrun
  have htabled := isTabled_of_runAll? hrun
  refine ⟨hlinked.id_eq, fun _ _ => hlinked.parentOf_eq_some_iff, fun c p hparent => ?_,
    fun _ => isSome_file?_of_runAll? hrun, fun path i hi => ?_, fun path path' i hi hi' => ?_,
    fun _ => isSome_package?_of_runAll? hrun, fun key i hi => ?_, fun key key' i hi hi' => ?_⟩
  · refine ⟨hlinked.parent_lt hparent, ?_, fun q hq => ?_⟩
    · rw [hlinked.count_children, if_pos hparent]
    · have hparent' := hlinked.parentOf_eq_some_iff.mpr hq
      rw [hparent] at hparent'
      exact (Option.some.inj hparent').symm
  · obtain ⟨q, hmem, hsame⟩ := htabled.file?_eq_some_iff.mp hi
    obtain ⟨s, hs, hlabel⟩ := Option.map_eq_some_iff.mp (htabled.label_file _ hmem)
    obtain ⟨hkind, hfile⟩ := Prod.mk.inj hlabel
    exact ⟨s, q, hs, hkind, hfile, hsame⟩
  · obtain ⟨q, hmem, hsame⟩ := htabled.file?_eq_some_iff.mp hi
    obtain ⟨q', hmem', hsame'⟩ := htabled.file?_eq_some_iff.mp hi'
    obtain rfl := htabled.files.eq_of_scope hmem hmem'
    rw [Path.same_iff] at hsame hsame' ⊢
    exact hsame.symm.trans hsame'
  · obtain ⟨k, hmem, -⟩ := htabled.package?_eq_some_iff.mp hi
    obtain ⟨s, hs, hlabel⟩ := Option.map_eq_some_iff.mp (htabled.label_package _ hmem)
    exact ⟨s, hs, (Prod.mk.inj hlabel).1⟩
  · obtain ⟨k, hmem, hkey⟩ := htabled.package?_eq_some_iff.mp hi
    obtain ⟨k', hmem', hkey'⟩ := htabled.package?_eq_some_iff.mp hi'
    obtain rfl := htabled.packages.eq_of_scope hmem hmem'
    rw [beq_iff_eq] at hkey hkey'
    exact hkey.symm.trans hkey'

/-- A file and a package that lie in each other, moved there twice, and a scope that is to lie in
itself. -/
def circle : List Operation :=
  [.addFile ⟨"x//a.go"⟩, .addPackage "x", .addScope .function 0, .setParent 0 1, .setParent 1 2,
    .setParent 1 2, .setParent 2 2, .addFile ⟨"x/a.go"⟩]

/-- What the operations leave: the file holds the function, which holds the package, which holds the
file. -/
def circleGraph : ScopeGraph where
  scopes := #[⟨0, .file, some 1, [2], [], [], some ⟨"x//a.go"⟩⟩,
    ⟨1, .package, some 2, [0], [], [], none⟩,
    ⟨2, .function, some 0, [1], [], [], some ⟨"x//a.go"⟩⟩]
  files := [(⟨"x//a.go"⟩, 0)]
  packages := [("x", 1)]

theorem links_of_circle :
    runAll? circle = some circleGraph ∧ (circleGraph.childrenOf 2).count 1 = 1 ∧
      ∃ s q, circleGraph.scope? 0 = some s ∧ s.kind = .file ∧ s.file = some q ∧
        q.same ⟨"./x/a.go"⟩ = false ∧ q.same ⟨"x/./a.go"⟩ = true := by
  have hrun : runAll? circle = some circleGraph := by decide +kernel
  have hfile : circleGraph.file? ⟨"x/./a.go"⟩ = some 0 := by decide +kernel
  obtain ⟨-, -, hlinks, -, hfiles, -⟩ := links_of_runAll? circle circleGraph hrun
  obtain ⟨s, q, hs, hkind, hq, hsame⟩ := hfiles ⟨"x/./a.go"⟩ 0 hfile
  refine ⟨hrun, (hlinks 1 2 rfl).2.1, s, q, hs, hkind, hq, ?_, hsame⟩
  cases hs
  cases hq
  decide +kernel

end Operation

end SourceAtlas
