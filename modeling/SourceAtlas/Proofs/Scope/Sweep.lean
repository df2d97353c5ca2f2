import Mathlib.Data.Fintype.Card
import Mathlib.Data.Fintype.EquivFin
import Mathlib.Logic.Relation
import SourceAtlas.Proofs.Scope.Links

/-!
# Resolving in place

Uses are resolved scope by scope, from the roots down, in the graph itself: what a use means is
looked up in a graph of which a part is resolved already. Neither this nor the order in which scopes
come up can be seen in the result, also where parents lead in a circle and some scopes are never
reached.

* `ScopeGraph.IsGrounded`, `ScopeGraph.IsCircular`: where the parents of a scope lead;
* `ScopeGraph.IsLinked.mem_visit_iff`: exactly the grounded scopes are visited;
* `ScopeGraph.sweep`, `ScopeGraph.IsLinked.sweep_eq_resolve`: the pass through a graph in steps;
* `ScopeGraph.Reorders`, `ScopeGraph.Reorders.resolve`: the order of children does not count;
* **`Operation.resolve_of_runAll?`**: what resolution does to any graph.
-/

namespace SourceAtlas

namespace ScopeGraph

open Relation

variable {g h : ScopeGraph} {i j p : Nat} {s t : Scope} {stack seen : List Nat}

theorem parentOf_eq (hs : g.scope? i = some s) : g.parentOf i = s.parent := by
  rw [parentOf, hs, Option.bind_some]

theorem ext_scope? (hscope : ∀ i, g.scope? i = h.scope? i) (hfiles : g.files = h.files)
    (hpackages : g.packages = h.packages) : g = h := by
  obtain ⟨scopes, files, packages⟩ := g
  obtain ⟨scopes', files', packages'⟩ := h
  obtain rfl : scopes = scopes' := Array.ext_getElem? hscope
  obtain rfl : files = files' := hfiles
  obtain rfl : packages = packages' := hpackages
  rfl

/-! ## Where parents lead -/

/-- The parents of a scope lead to one without a parent. -/
def IsGrounded (g : ScopeGraph) (i : Nat) : Prop := ∃ chain, g.Chain i chain

/-- A scope lies in another. -/
def LiesIn (g : ScopeGraph) (i p : Nat) : Prop := g.parentOf i = some p

/-- A scope lies in a circle of scopes that lie in each other, or below one. -/
def IsCircular (g : ScopeGraph) (i : Nat) : Prop :=
  ∃ c, ReflTransGen g.LiesIn i c ∧ TransGen g.LiesIn c c

theorem isGrounded_iff (hs : g.scope? i = some s) :
    g.IsGrounded i ↔ s.parent = none ∨ ∃ p, s.parent = some p ∧ g.IsGrounded p := by
  constructor
  · rintro ⟨chain, hchain⟩
    cases hchain with
    | root hs' hroot =>
      rw [hs] at hs'
      cases hs'
      exact .inl hroot
    | step hs' hparent hchain =>
      rw [hs] at hs'
      cases hs'
      exact .inr ⟨_, hparent, _, hchain⟩
  · rintro (hroot | ⟨p, hparent, chain, hchain⟩)
    · exact ⟨[s], .root hs hroot⟩
    · exact ⟨s :: chain, .step hs hparent hchain⟩

theorem IsGrounded.not_isCircular (hi : g.IsGrounded i) : ¬ g.IsCircular i := by
  obtain ⟨chain, hchain⟩ := hi
  induction hchain with
  | @root i s hs hroot =>
    rintro ⟨c, hreach, hcircle⟩
    -- nothing lies around a scope without a parent, so it would lie in itself
    have hstuck : ∀ p, ¬ g.LiesIn i p := by
      intro p hp
      rw [LiesIn, parentOf_eq hs, hroot] at hp
      cases hp
    obtain ⟨p, hp, -⟩ := TransGen.head'_iff.mp (TransGen.trans_right hreach hcircle)
    exact hstuck p hp
  | @step i p s chain hs hparent _ ih =>
    rintro ⟨c, hreach, hcircle⟩
    obtain ⟨q, hq, hrest⟩ := TransGen.head'_iff.mp (TransGen.trans_right hreach hcircle)
    have hqp : q = p := by
      rw [LiesIn, parentOf_eq hs, hparent] at hq
      exact (Option.some.inj hq).symm
    exact ih ⟨c, hqp ▸ hrest, hcircle⟩

/-- **The parents of a scope lead out of the graph or into a circle.** -/
theorem IsLinked.isCircular_iff (hg : g.IsLinked) (hi : i < g.size) :
    g.IsCircular i ↔ ¬ g.IsGrounded i := by
  refine ⟨fun hcircular hground => hground.not_isCircular hcircular, fun hnot => ?_⟩
  by_contra hfree
  -- the scopes around `i` are finite in number, and without a circle there is a last one
  let Around := { j : Fin g.size // ReflTransGen g.LiesIn i j }
  let inside : Around → Around → Prop := fun a b => TransGen g.LiesIn b.1 a.1
  have hirrefl : Std.Irrefl inside := ⟨fun a ha => hfree ⟨a.1, a.2, ha⟩⟩
  have htrans : IsTrans Around inside := ⟨fun _ _ _ hab hbc => hbc.trans hab⟩
  have hwf : WellFounded inside := Finite.wellFounded_of_trans_of_irrefl inside
  have hall : ∀ a : Around, g.IsGrounded a.1 := by
    intro a
    induction a using hwf.induction with
    | h a ih =>
      obtain ⟨s, hs⟩ := scope?_isSome a.1.2
      rw [isGrounded_iff hs]
      cases hparent : s.parent with
      | none => exact .inl rfl
      | some p =>
        have hlies : g.LiesIn a.1 p := (parentOf_eq hs).trans hparent
        exact .inr ⟨p, rfl, ih ⟨⟨p, hg.parent_lt hlies⟩, a.2.tail hlies⟩ (.single hlies)⟩
  exact hnot (hall ⟨⟨i, hi⟩, .refl⟩)

/-! ## Visits -/

/-- What holds of the scopes that a visit starts with, and goes down to children, holds of all
visited ones. -/
theorem forall_mem_visit {P : Nat → Prop} (hdown : ∀ x, P x → ∀ c ∈ g.childrenOf x, P c)
    (hstack : ∀ x ∈ stack, P x) (hseen : ∀ x ∈ seen, P x) : ∀ x ∈ g.visit stack seen, P x := by
  fun_induction visit g stack seen with
  | case1 seen => exact hseen
  | case2 seen id rest _ ih => exact ih (fun x hx => hstack x (List.mem_cons_of_mem _ hx)) hseen
  | case3 seen id rest _ _ ih =>
    have hid := hstack id List.mem_cons_self
    refine ih (fun x hx => ?_) fun x hx => ?_
    · rcases List.mem_append.mp hx with hx | hx
      · exact hdown id hid x hx
      · exact hstack x (List.mem_cons_of_mem _ hx)
    · rcases List.mem_cons.mp hx with rfl | hx
      · exact hid
      · exact hseen x hx

/-- **A visit that starts with the roots, in any order, reaches exactly the grounded scopes.** -/
theorem IsLinked.mem_visit_iff (hg : g.IsLinked) (hstack : stack.Perm g.roots) :
    i ∈ g.visit stack [] ↔ g.IsGrounded i := by
  constructor
  · refine forall_mem_visit (P := g.IsGrounded) (fun x hx c hc => ?_) (fun x hx => ?_) (by simp) i
    · have hparent := hg.parentOf_eq_some_iff.mpr hc
      obtain ⟨s, hs, hp⟩ := Option.bind_eq_some_iff.mp hparent
      exact (isGrounded_iff hs).mpr (.inr ⟨x, hp, hx⟩)
    · obtain ⟨s, hs, rfl⟩ := List.mem_map.mp (hstack.mem_iff.mp hx)
      obtain ⟨hmem, hroot⟩ := List.mem_filter.mp hs
      obtain ⟨n, hn⟩ := Array.mem_iff_getElem?.mp (Array.mem_toList_iff.mp hmem)
      rw [hg.id_eq n s hn]
      exact (isGrounded_iff hn).mpr (.inl (by simpa using hroot))
  · rintro ⟨chain, hchain⟩
    refine mem_visit_of_chain hg.id_eq (fun j t p ht hp => ?_) hstack.symm.subset hchain
    exact hg.parentOf_eq_some_iff.mp ((parentOf_eq ht).trans hp)

/-! ## The pass through a graph -/

/-- A scope whose uses say what they mean in the scope with a number. -/
def settle (g : ScopeGraph) (i : Nat) (s : Scope) : Scope :=
  { s with uses := s.uses.map fun u => { u with target := g.meaning i u } }

theorem settle_settle (g : ScopeGraph) (i : Nat) (s : Scope) :
    g.settle i (g.settle i s) = g.settle i s := by
  simp only [settle, List.map_map]
  rfl

/-- The graph in which the scopes of a list are settled, as they are in the graph given. -/
def settleAll (g : ScopeGraph) (seen : List Nat) : ScopeGraph :=
  { g with scopes := g.scopes.map fun s => if seen.contains s.id then g.settle s.id s else s }

/-- Settles the scopes on a stack and those below them in place, one after the other, each as it is
in the graph that the ones before have left. -/
def sweep (g : ScopeGraph) (stack seen : List Nat) : ScopeGraph :=
  match stack with
  | [] => g
  | i :: rest =>
    if h : seen.contains i ∨ ¬ i < g.size then sweep g rest seen
    else
      have : (g.unseen (i :: seen)).length < (g.unseen seen).length := unseen_cons_lt h
      sweep (g.modify i (g.settle i)) (g.childrenOf i ++ rest) (i :: seen)
termination_by ((g.unseen seen).length, stack.length)
decreasing_by
  · exact Prod.Lex.right _ (Nat.lt_succ_self _)
  · refine Prod.Lex.left _ _ ?_
    rwa [unseen, size_modify]

theorem scope?_settleAll (hid : ∀ i s, g.scope? i = some s → s.id = i) :
    (g.settleAll seen).scope? i =
      (g.scope? i).map fun s => if i ∈ seen then g.settle i s else s := by
  rw [settleAll, scope?, Array.getElem?_map]
  change (g.scope? i).map _ = _
  cases hs : g.scope? i with
  | none => rfl
  | some s => simp only [Option.map_some, hid i s hs, List.contains_iff_mem]

@[simp] theorem size_settleAll (g : ScopeGraph) (seen : List Nat) :
    (g.settleAll seen).size = g.size := Array.size_map

theorem bindsAlike_settleAll (hid : ∀ i s, g.scope? i = some s → s.id = i) (seen : List Nat) :
    g.BindsAlike (g.settleAll seen) where
  size := size_settleAll g seen
  scope i s hs := by
    rw [scope?_settleAll hid, hs, Option.map_some]
    split_ifs <;> exact ⟨_, rfl, rfl, rfl⟩

theorem childrenOf_settleAll (hid : ∀ i s, g.scope? i = some s → s.id = i) :
    (g.settleAll seen).childrenOf i = g.childrenOf i := by
  rw [childrenOf, childrenOf, scope?_settleAll hid]
  cases g.scope? i with
  | none => rfl
  | some s => by_cases hi : i ∈ seen <;> simp [hi, settle]

/-- To settle one scope more in place is to settle it as it was before all others. -/
theorem modify_settleAll (hid : ∀ i s, g.scope? i = some s → s.id = i) :
    (g.settleAll seen).modify i ((g.settleAll seen).settle i) = g.settleAll (i :: seen) := by
  have hsettle : ∀ s, (g.settleAll seen).settle i s = g.settle i s := fun s => by
    simp only [settle, (bindsAlike_settleAll hid seen).meaning]
  refine ext_scope? (fun j => ?_) rfl rfl
  rw [scope?_modify, scope?_settleAll hid, scope?_settleAll hid]
  cases g.scope? j with
  | none => simp
  | some s =>
    by_cases hij : i = j
    · subst hij
      by_cases hi : i ∈ seen <;> simp [hi, hsettle, settle_settle]
    · simp [hij, Ne.symm hij]

theorem sweep_settleAll (hid : ∀ i s, g.scope? i = some s → s.id = i) (stack seen : List Nat) :
    (g.settleAll seen).sweep stack seen = g.settleAll (g.visit stack seen) := by
  fun_induction visit g stack seen with
  | case1 seen => rw [sweep]
  | case2 seen id rest hskip ih =>
    rw [sweep, dif_pos (by rwa [size_settleAll]), ih]
  | case3 seen id rest hnew _ ih =>
    rw [sweep, dif_neg (by rwa [size_settleAll]), modify_settleAll hid, childrenOf_settleAll hid]
    exact ih

theorem settleAll_nil (hid : ∀ i s, g.scope? i = some s → s.id = i) : g.settleAll [] = g :=
  ext_scope? (fun i => by rw [scope?_settleAll hid]; simp) rfl rfl

theorem scope?_resolve_eq (hid : ∀ i s, g.scope? i = some s → s.id = i) :
    g.resolve.scope? i = (g.scope? i).map fun s => if i ∈ g.visited then g.settle i s else s :=
  scope?_settleAll hid

/-- **The pass in place, from the roots in any order, is resolution at once.** -/
theorem IsLinked.sweep_eq_resolve (hg : g.IsLinked) (hstack : stack.Perm g.roots) :
    g.sweep stack [] = g.resolve := by
  have hsweep := sweep_settleAll hg.id_eq stack []
  rw [settleAll_nil hg.id_eq] at hsweep
  rw [hsweep]
  refine ext_scope? (fun i => ?_) rfl rfl
  have hsame : i ∈ g.visit stack [] ↔ i ∈ g.visited :=
    (hg.mem_visit_iff hstack).trans (hg.mem_visit_iff (List.Perm.refl _)).symm
  rw [scope?_settleAll hg.id_eq, scope?_resolve_eq hg.id_eq]
  simp only [hsame]

open Classical in
theorem IsLinked.scope?_resolve (hg : g.IsLinked) : g.resolve.scope? i =
    (g.scope? i).map fun s => if g.IsGrounded i then g.settle i s else s := by
  rw [scope?_resolve_eq hg.id_eq, visited]
  simp only [hg.mem_visit_iff (List.Perm.refl g.roots)]

/-! ## Orders and repetitions -/

/-- Two graphs that differ in nothing but the order in which scopes list their children. -/
structure Reorders (g h : ScopeGraph) : Prop where
  size : h.size = g.size
  files : h.files = g.files
  packages : h.packages = g.packages
  scope : ∀ i s, g.scope? i = some s →
    ∃ cs, h.scope? i = some { s with children := cs } ∧ cs.Perm s.children

namespace Reorders

theorem bindsAlike (hgh : g.Reorders h) : g.BindsAlike h where
  size := hgh.size
  scope i s hs := by
    obtain ⟨cs, ht, -⟩ := hgh.scope i s hs
    exact ⟨_, ht, rfl, rfl⟩

theorem exists_scope (hgh : g.Reorders h) (ht : h.scope? i = some t) :
    ∃ s, g.scope? i = some s ∧ t.id = s.id ∧ t.parent = s.parent ∧ t.children.Perm s.children := by
  obtain ⟨s, hs⟩ := scope?_isSome (hgh.size ▸ lt_size ht)
  obtain ⟨cs, ht', hperm⟩ := hgh.scope i s hs
  rw [ht] at ht'
  cases ht'
  exact ⟨s, hs, rfl, rfl, hperm⟩

theorem parentOf (hgh : g.Reorders h) : h.parentOf i = g.parentOf i := by
  cases hs : g.scope? i with
  | none => rw [ScopeGraph.parentOf, ScopeGraph.parentOf, hs, hgh.bindsAlike.scope?_eq_none hs]
  | some s =>
    obtain ⟨cs, ht, -⟩ := hgh.scope i s hs
    rw [parentOf_eq hs, parentOf_eq ht]

theorem childrenOf (hgh : g.Reorders h) : (h.childrenOf i).Perm (g.childrenOf i) := by
  rw [ScopeGraph.childrenOf, ScopeGraph.childrenOf]
  cases hs : g.scope? i with
  | none => rw [hgh.bindsAlike.scope?_eq_none hs]
  | some s =>
    obtain ⟨cs, ht, hperm⟩ := hgh.scope i s hs
    simpa [ht] using hperm

theorem isLinked (hgh : g.Reorders h) (hg : g.IsLinked) : h.IsLinked where
  id_eq i t ht := by
    obtain ⟨s, hs, hid, -⟩ := hgh.exists_scope ht
    rw [hid, hg.id_eq i s hs]
  count_children c p := by
    rw [hgh.parentOf, ← hg.count_children]
    exact hgh.childrenOf.count_eq c

end Reorders

theorem BindsAlike.isGrounded (hgh : g.BindsAlike h) (hi : g.IsGrounded i) : h.IsGrounded i := by
  obtain ⟨chain, hchain⟩ := hi
  induction hchain with
  | @root i s hs hroot =>
    obtain ⟨t, ht, -, hparent⟩ := hgh.scope i s hs
    exact (isGrounded_iff ht).mpr (.inl (hparent.trans hroot))
  | @step i p s chain hs hp _ ih =>
    obtain ⟨t, ht, -, hparent⟩ := hgh.scope i s hs
    exact (isGrounded_iff ht).mpr (.inr ⟨p, hparent.trans hp, ih⟩)

theorem BindsAlike.symm (hgh : g.BindsAlike h) : h.BindsAlike g where
  size := hgh.size.symm
  scope i t ht := by
    obtain ⟨s, hs⟩ := scope?_isSome (hgh.size ▸ lt_size ht)
    obtain ⟨t', ht', hdefinitions, hparent⟩ := hgh.scope i s hs
    rw [ht] at ht'
    cases ht'
    exact ⟨s, hs, hdefinitions.symm, hparent.symm⟩

theorem BindsAlike.isGrounded_iff (hgh : g.BindsAlike h) : h.IsGrounded i ↔ g.IsGrounded i :=
  ⟨hgh.symm.isGrounded, hgh.isGrounded⟩

theorem BindsAlike.settle (hgh : g.BindsAlike h) : h.settle i s = g.settle i s := by
  simp only [ScopeGraph.settle, hgh.meaning]

/-- **The order of children does not count in resolution.** -/
theorem Reorders.resolve (hgh : g.Reorders h) (hg : g.IsLinked) : g.resolve.Reorders h.resolve := by
  refine ⟨by rw [size_resolve, size_resolve, hgh.size], hgh.files, hgh.packages, fun i s' hs' => ?_⟩
  rw [hg.scope?_resolve] at hs'
  obtain ⟨s, hs, rfl⟩ := Option.map_eq_some_iff.mp hs'
  obtain ⟨cs, ht, hperm⟩ := hgh.scope i s hs
  have hground : h.IsGrounded i ↔ g.IsGrounded i := hgh.bindsAlike.isGrounded_iff
  rw [(hgh.isLinked hg).scope?_resolve, ht, Option.map_some]
  by_cases hi : g.IsGrounded i
  · rw [if_pos (hground.mpr hi), if_pos hi, hgh.bindsAlike.settle]
    exact ⟨cs, rfl, hperm⟩
  · rw [if_neg (hground.not.mpr hi), if_neg hi]
    exact ⟨cs, rfl, hperm⟩

/-- **What is resolved stays as it is when it is resolved again.** -/
theorem IsLinked.resolve_resolve (hg : g.IsLinked) : g.resolve.resolve = g.resolve := by
  have halike := bindsAlike_resolve g
  have hground : g.resolve.IsGrounded = g.IsGrounded :=
    funext fun i => propext halike.isGrounded_iff
  refine ext_scope? (fun i => ?_) rfl rfl
  rw [hg.resolve.scope?_resolve, hg.scope?_resolve, hground]
  cases g.scope? i with
  | none => rfl
  | some s =>
    by_cases hi : g.IsGrounded i
    · simp only [Option.map_some, if_pos hi, halike.settle, settle_settle]
    · simp only [Option.map_some, if_neg hi]

end ScopeGraph

namespace Operation

open ScopeGraph

/-- **What resolution does to any graph that operations make.** It is a pass in place from the roots
down, and the order of the roots does not count. In a scope whose parents lead to one without a
parent every use gets the target that it has in the graph before; a scope in a circle of parents or
below one stays as it is; and nothing else changes. So resolving twice is resolving once, and the
order of children does not count either. -/
theorem resolve_of_runAll? (ops : List Operation) (g : ScopeGraph) (hrun : runAll? ops = some g) :
    (∀ stack, stack.Perm g.roots → g.sweep stack [] = g.resolve) ∧
    (g.resolve.size = g.size ∧ g.resolve.files = g.files ∧ g.resolve.packages = g.packages) ∧
    (∀ i s, g.scope? i = some s → g.IsGrounded i →
      g.resolve.scope? i = some { s with uses := s.uses.map fun u => { u with target :=
        match u.member with
        | some m => g.resolveDotted i u.name m
        | none => g.resolveName i u.name } }) ∧
    (∀ i s, g.scope? i = some s → (g.IsCircular i ↔ ¬ g.IsGrounded i) ∧
      (¬ g.IsGrounded i → g.resolve.scope? i = some s)) ∧
    g.resolve.resolve = g.resolve ∧
    (∀ h, g.Reorders h → g.resolve.Reorders h.resolve) := by
  have hlinked := isLinked_of_runAll? hrun
  refine ⟨fun stack hstack => hlinked.sweep_eq_resolve hstack, ⟨size_resolve g, rfl, rfl⟩,
    fun i s hs hi => ?_, fun i s hs => ⟨hlinked.isCircular_iff (lt_size hs), fun hi => ?_⟩,
    hlinked.resolve_resolve,
    fun h hgh => hgh.resolve hlinked⟩
  · rw [hlinked.scope?_resolve, hs, Option.map_some, if_pos hi]
    rfl
  · rw [hlinked.scope?_resolve, hs, Option.map_some, if_neg hi]

/-- A file with a function in which it is called, and two packages that lie in each other, one of
them with a use that has a target already. -/
def detour : List Operation :=
  [.addFile ⟨"a.go"⟩, .define 0 ⟨"f", .function, none, none, somewhere, none⟩,
    .addScope .function 0, .addUse 1 ⟨"f", none, somewhere, none⟩, .addPackage "x",
    .addPackage "y", .setParent 2 3, .setParent 3 2,
    .addUse 2 ⟨"f", none, somewhere, some ⟨0, 0⟩⟩]

/-- The graph of the file and the two packages. -/
def detourGraph : ScopeGraph where
  scopes := #[⟨0, .file, none, [1], [⟨"f", .function, none, none, somewhere, none⟩], [],
      some ⟨"a.go"⟩⟩,
    ⟨1, .function, some 0, [], [], [⟨"f", none, somewhere, none⟩], some ⟨"a.go"⟩⟩,
    ⟨2, .package, some 3, [3], [], [⟨"f", none, somewhere, some ⟨0, 0⟩⟩], none⟩,
    ⟨3, .package, some 2, [2], [], [], none⟩]
  files := [(⟨"a.go"⟩, 0)]
  packages := [("x", 2), ("y", 3)]

theorem resolve_of_detour :
    runAll? detour = some detourGraph ∧
    detourGraph.sweep [0] [] = detourGraph.resolve ∧
    detourGraph.resolve.scope? 1 = some ⟨1, .function, some 0, [], [],
      [⟨"f", none, somewhere, some ⟨0, 0⟩⟩], some ⟨"a.go"⟩⟩ ∧
    detourGraph.IsCircular 2 ∧ detourGraph.resolve.scope? 2 = detourGraph.scope? 2 := by
  have hrun : runAll? detour = some detourGraph := by decide +kernel
  have hroots : [0].Perm detourGraph.roots := List.Perm.refl _
  have hground : detourGraph.IsGrounded 1 := ⟨_, .step rfl rfl (.root rfl rfl)⟩
  have hcircular : detourGraph.IsCircular 2 :=
    ⟨2, .refl, .tail (.single (b := 3) rfl) rfl⟩
  obtain ⟨hsweep, -, hresolved, hkept, -⟩ := resolve_of_runAll? detour detourGraph hrun
  refine ⟨hrun, hsweep [0] hroots, hresolved 1 _ rfl hground, hcircular, ?_⟩
  obtain ⟨hiff, hstays⟩ := hkept 2 _ rfl
  exact hstays (hiff.mp hcircular)

end Operation

end SourceAtlas
