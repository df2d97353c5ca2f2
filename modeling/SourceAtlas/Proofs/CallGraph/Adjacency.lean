import Mathlib.Algebra.BigOperators.Group.Finset.Basic
import Mathlib.Algebra.GroupWithZero.Nat
import SourceAtlas.Proofs.CallGraph.Reach

/-!
# Neighbours in a call graph

Callers, callees, their numbers and the calls of a graph are asked for in different ways, and all
answers fit together.

* `CallLink`, `CallGraph.links`: calls told by the definitions at both ends;
* `CallGraph.IsSound`, `CallGraph.isSound_build`: edges in order, between definitions;
* `CallGraph.neighbours`, `CallGraph.degree`: both directions at once;
* `IsSound.neighbours_sublist`, `CallGraph.mem_neighbours_iff`, `IsSound.sum_degree`;
* **`CallGraph.adjacency_agrees`**: all questions about neighbours have one answer.
-/

namespace SourceAtlas

/-- A call of one definition by another. -/
structure CallLink where
  caller : CallDefinition
  callee : CallDefinition
  /-- How many calls there are. -/
  count : Nat
deriving DecidableEq, Repr

/-! ## Lists -/

/-- What stands at increasing positions of a list is a part of it in order. -/
theorem filterMap_getElem?_sublist {α : Type} (l : List α) {ps : List Nat}
    (h : ps.Pairwise (· < ·)) : (ps.filterMap (l[·]?)).Sublist l := by
  let inside (p : Nat) : Option (Fin l.length) := if hp : p < l.length then some ⟨p, hp⟩ else none
  have hinside : (ps.filterMap inside).Pairwise (· < ·) := by
    refine h.filterMap _ fun p q hpq i hi j hj => ?_
    simp only [inside, Option.dite_none_right_eq_some, Option.some.injEq] at hi hj
    obtain ⟨hp, rfl⟩ := hi
    obtain ⟨hq, rfl⟩ := hj
    exact hpq
  have hmap : (ps.filterMap inside).map (l[·]) = ps.filterMap (l[·]?) := by
    rw [List.map_filterMap]
    congr 1
    funext p
    by_cases hp : p < l.length <;> simp [inside, hp]
  rw [← hmap]
  exact List.map_getElem_sublist hinside

theorem sum_countP_range {α : Type} (f : α → Nat) {l : List α} {n : Nat} (h : ∀ a ∈ l, f a < n) :
    ((List.range n).map fun p => l.countP (f · == p)).sum = l.length := by
  have hcount : ∀ p, l.countP (f · == p) = Multiset.count p (l.map f : Multiset Nat) := by
    intro p
    rw [Multiset.coe_count, List.count, List.countP_map]
    rfl
  have hmem : ∀ p ∈ (l.map f : Multiset Nat), p ∈ Finset.range n := by
    intro p hp
    obtain ⟨a, ha, rfl⟩ := List.mem_map.mp (Multiset.mem_coe.mp hp)
    exact Finset.mem_range.mpr (h a ha)
  calc ((List.range n).map fun p => l.countP (f · == p)).sum
    _ = ∑ p ∈ Finset.range n, l.countP (f · == p) := rfl
    _ = ∑ p ∈ Finset.range n, Multiset.count p (l.map f : Multiset Nat) :=
      Finset.sum_congr rfl fun p _ => hcount p
    _ = l.length := by rw [Multiset.sum_count_eq_card hmem, Multiset.coe_card, List.length_map]

namespace CallGraph

variable {g : CallGraph} {id : DefinitionId} {x y : CallDefinition}

/-! ## Sound graphs -/

/-- The edges stand in order, and both ends of each are definitions. -/
structure IsSound (g : CallGraph) : Prop where
  before : g.edges.Pairwise Before
  ends : ∀ e ∈ g.edges, e.caller < g.definitions.length ∧ e.callee < g.definitions.length

theorem isSound_build (i : Index) : (build i).IsSound :=
  ⟨(accounts_build i).ordered.before, fun _ he => ends_lt_of_mem_build he⟩

theorem IsSound.nearEnd_lt (hg : g.IsSound) {e : CallEdge} (he : e ∈ g.edges) (reverse : Bool) :
    Walk.nearEnd reverse e < g.definitions.length := by
  cases reverse
  · exact (hg.ends e he).1
  · exact (hg.ends e he).2

theorem IsSound.farEnd_lt (hg : g.IsSound) {e : CallEdge} (he : e ∈ g.edges) (reverse : Bool) :
    Walk.farEnd reverse e < g.definitions.length := by
  cases reverse
  · exact (hg.ends e he).2
  · exact (hg.ends e he).1

theorem IsSound.pairwise_farEnd (hg : g.IsSound) (reverse : Bool) (i : Nat) :
    ((Walk.leaving g reverse i).map (Walk.farEnd reverse)).Pairwise (· < ·) := by
  have hsub : (Walk.leaving g reverse i).Sublist g.edges := by
    cases reverse
    · exact List.filter_sublist
    · exact List.filter_sublist
  rw [List.pairwise_map]
  refine (hg.before.sublist hsub).imp_of_mem fun {e f} he hf hef => ?_
  have hnear := (Walk.mem_leaving.mp he).2.trans (Walk.mem_leaving.mp hf).2.symm
  unfold Before at hef
  cases reverse
  · simp only [Walk.nearEnd, Walk.farEnd, Bool.false_eq_true, if_false] at hnear ⊢
    omega
  · simp only [Walk.nearEnd, Walk.farEnd, if_true] at hnear ⊢
    omega

/-! ## Neighbours in both directions -/

/-- The definitions that calls lead to from the one with an id, or, if `reverse` is set, those that
calls come from. -/
def neighbours (g : CallGraph) (reverse : Bool) (id : DefinitionId) : List CallDefinition :=
  match g.position? id with
  | some i => (Walk.leaving g reverse i).filterMap fun e => g.at? (Walk.farEnd reverse e)
  | none => []

/-- The number of calls that leave the definition with an id. -/
def degree (g : CallGraph) (reverse : Bool) (id : DefinitionId) : Nat :=
  ((g.position? id).map fun i => (Walk.leaving g reverse i).length).getD 0

theorem callees_eq (g : CallGraph) (id : DefinitionId) : g.callees id = g.neighbours false id := rfl

theorem callers_eq (g : CallGraph) (id : DefinitionId) : g.callers id = g.neighbours true id := rfl

theorem IsSound.neighbours_sublist (hg : g.IsSound) (reverse : Bool) (id : DefinitionId) :
    (g.neighbours reverse id).Sublist g.definitions := by
  unfold neighbours
  cases g.position? id with
  | none => exact List.nil_sublist _
  | some i =>
    have h := filterMap_getElem?_sublist g.definitions (hg.pairwise_farEnd reverse i)
    rwa [List.filterMap_map] at h

theorem IsSound.length_neighbours (hg : g.IsSound) (reverse : Bool) (id : DefinitionId) :
    (g.neighbours reverse id).length = g.degree reverse id := by
  unfold neighbours degree
  cases g.position? id with
  | none => rfl
  | some i =>
    refine List.filterMap_length_eq_length.mpr fun e he => ?_
    have hlt := hg.farEnd_lt (Walk.mem_leaving.mp he).1 reverse
    simp [at?, hlt]

theorem at?_inj (hids : (g.definitions.map (·.id)).Nodup) {i j : Nat} (hi : g.at? i = some x)
    (hj : g.at? j = some x) : i = j := by
  have h := (position?_eq_some_iff hids).mpr ⟨x, hi, rfl⟩
  rw [(position?_eq_some_iff hids).mpr ⟨x, hj, rfl⟩] at h
  exact (Option.some.inj h).symm

theorem mem_neighbours_iff (hids : (g.definitions.map (·.id)).Nodup) (hx : x ∈ g.definitions)
    (reverse : Bool) : y ∈ g.neighbours reverse x.id ↔
      ∃ e ∈ g.edges, g.at? (Walk.nearEnd reverse e) = some x ∧
        g.at? (Walk.farEnd reverse e) = some y := by
  obtain ⟨i, hi⟩ := List.mem_iff_getElem?.mp hx
  have hposition : g.position? x.id = some i :=
    (position?_eq_some_iff hids).mpr ⟨x, hi, rfl⟩
  have hat : ∀ j, g.at? j = some x ↔ j = i := fun j =>
    ⟨fun hj => at?_inj hids hj hi, fun hj => hj ▸ hi⟩
  simp only [neighbours, hposition, List.mem_filterMap, Walk.mem_leaving, hat, and_assoc]

theorem position?_eq_none (hid : ∀ d ∈ g.definitions, d.id ≠ id) : g.position? id = none := by
  rw [position?, List.getLast?_eq_none_iff, List.eq_nil_iff_forall_not_mem]
  intro j hj
  obtain ⟨d, hd, hdid⟩ := (Option.any_eq_true _ _).mp (mem_positions.mp hj)
  exact hid d (List.mem_of_getElem? hd) (beq_iff_eq.mp hdid)

/-- Every edge leaves one definition. -/
theorem IsSound.sum_degree (hg : g.IsSound) (hids : (g.definitions.map (·.id)).Nodup)
    (reverse : Bool) : (g.definitions.map fun d => g.degree reverse d.id).sum = g.edges.length := by
  have hleaving : ∀ i, (Walk.leaving g reverse i).length =
      g.edges.countP (Walk.nearEnd reverse · == i) := by
    intro i
    rw [List.countP_eq_length_filter]
    cases reverse <;> rfl
  have hdegrees : (g.definitions.map fun d => g.degree reverse d.id) =
      (List.range g.definitions.length).map fun i =>
        g.edges.countP (Walk.nearEnd reverse · == i) := by
    refine List.ext_getElem (by simp) fun i hi _ => ?_
    rw [List.length_map] at hi
    have hposition : g.position? g.definitions[i].id = some i :=
      (position?_eq_some_iff hids).mpr ⟨_, List.getElem?_eq_getElem hi, rfl⟩
    simp [degree, hposition, hleaving]
  rw [hdegrees, sum_countP_range _ fun e he => hg.nearEnd_lt he reverse]

/-! ## Calls between definitions -/

/-- An edge with the definitions at its ends. -/
def link? (g : CallGraph) (e : CallEdge) : Option CallLink :=
  (g.at? e.caller).bind fun a => (g.at? e.callee).map fun b => ⟨a, b, e.count⟩

/-- The calls of a graph in their order, told by the definitions at both ends. -/
def links (g : CallGraph) : List CallLink := g.edges.filterMap g.link?

theorem link?_eq_some_iff {e : CallEdge} {l : CallLink} : g.link? e = some l ↔
    g.at? e.caller = some l.caller ∧ g.at? e.callee = some l.callee ∧ e.count = l.count := by
  obtain ⟨a, b, n⟩ := l
  simp only [link?, Option.bind_eq_some_iff, Option.map_eq_some_iff, CallLink.mk.injEq]
  constructor
  · rintro ⟨a', ha, b', hb, rfl, rfl, rfl⟩
    exact ⟨ha, hb, rfl⟩
  · rintro ⟨ha, hb, rfl⟩
    exact ⟨a, ha, b, hb, rfl, rfl, rfl⟩

theorem exists_mem_links_iff : (∃ l ∈ g.links, l.caller = x ∧ l.callee = y) ↔
    ∃ e ∈ g.edges, g.at? e.caller = some x ∧ g.at? e.callee = some y := by
  simp only [links, List.mem_filterMap, link?_eq_some_iff]
  constructor
  · rintro ⟨l, ⟨e, he, hcaller, hcallee, -⟩, rfl, rfl⟩
    exact ⟨e, he, hcaller, hcallee⟩
  · rintro ⟨e, he, hcaller, hcallee⟩
    exact ⟨⟨x, y, e.count⟩, ⟨e, he, hcaller, hcallee, rfl⟩, rfl, rfl⟩

theorem mem_callees_iff (hids : (g.definitions.map (·.id)).Nodup) (hx : x ∈ g.definitions) :
    y ∈ g.callees x.id ↔ ∃ l ∈ g.links, l.caller = x ∧ l.callee = y := by
  rw [callees_eq, mem_neighbours_iff hids hx, exists_mem_links_iff]
  rfl

theorem mem_callers_iff (hids : (g.definitions.map (·.id)).Nodup) (hy : y ∈ g.definitions) :
    x ∈ g.callers y.id ↔ ∃ l ∈ g.links, l.caller = x ∧ l.callee = y := by
  rw [callers_eq, mem_neighbours_iff hids hy, exists_mem_links_iff]
  simp [Walk.nearEnd, Walk.farEnd, and_comm]

theorem IsSound.length_links (hg : g.IsSound) : g.links.length = g.edges.length := by
  refine List.filterMap_length_eq_length.mpr fun e he => ?_
  obtain ⟨hcaller, hcallee⟩ := hg.ends e he
  simp [link?, at?, hcaller, hcallee]

/-- Two definitions are joined by at most one edge. -/
theorem IsSound.nodup_links (hg : g.IsSound) (hids : (g.definitions.map (·.id)).Nodup) :
    (g.links.map fun l => (l.caller, l.callee)).Nodup := by
  rw [List.Nodup, List.pairwise_map]
  refine hg.before.filterMap _ fun e f hef l hl m hm hsame => ?_
  obtain ⟨hlcaller, hlcallee, -⟩ := link?_eq_some_iff.mp hl
  obtain ⟨hmcaller, hmcallee, -⟩ := link?_eq_some_iff.mp hm
  rw [Prod.mk.injEq] at hsame
  have hcaller := at?_inj hids hlcaller (hsame.1 ▸ hmcaller)
  have hcallee := at?_inj hids hlcallee (hsame.2 ▸ hmcallee)
  unfold Before at hef
  omega

/-- **All questions about neighbours have one answer.** -/
theorem adjacency_agrees (i : Index) (hids : ((build i).definitions.map (·.id)).Nodup) :
    let g := build i
    (∀ x ∈ g.definitions, ∀ y ∈ g.definitions, (x ∈ g.callers y.id ↔ y ∈ g.callees x.id) ∧
      (y ∈ g.callees x.id ↔ ∃ l ∈ g.links, l.caller = x ∧ l.callee = y)) ∧
    (g.links.map fun l => (l.caller, l.callee)).Nodup ∧
    g.links.length = g.edges.length ∧
    (∀ id, (g.callers id).Sublist g.definitions ∧ (g.callees id).Sublist g.definitions) ∧
    (∀ id, g.incoming id = (g.callers id).length ∧ g.outgoing id = (g.callees id).length) ∧
    (g.definitions.map fun d => g.outgoing d.id).sum = g.links.length ∧
    (g.definitions.map fun d => g.incoming d.id).sum = g.links.length ∧
    ∀ id, (∀ d ∈ g.definitions, d.id ≠ id) →
      g.callers id = [] ∧ g.callees id = [] ∧ g.incoming id = 0 ∧ g.outgoing id = 0 := by
  intro g
  have hg : g.IsSound := isSound_build i
  refine ⟨fun x hx y hy => ?_, hg.nodup_links hids, hg.length_links,
    fun id => ⟨hg.neighbours_sublist true id, hg.neighbours_sublist false id⟩,
    fun id => ⟨(hg.length_neighbours true id).symm, (hg.length_neighbours false id).symm⟩, ?_, ?_,
    fun id hid => ?_⟩
  · have hcallees := mem_callees_iff (y := y) hids hx
    exact ⟨(mem_callers_iff hids hy).trans hcallees.symm, hcallees⟩
  · rw [hg.length_links]
    exact hg.sum_degree hids false
  · rw [hg.length_links]
    exact hg.sum_degree hids true
  · have hnone : g.position? id = none := position?_eq_none hid
    simp [callers, callees, incoming, outgoing, hnone]

/-- Two functions that call each other, the first of them itself as well: three calls, none of them
lost on the way. -/
theorem adjacency_agrees_circle :
    ((build circle).definitions.map (·.id)).Nodup ∧
    (build circle).edges = [⟨0, 0, 1⟩, ⟨0, 1, 1⟩, ⟨1, 0, 1⟩] ∧
    (build circle).links.length = 3 ∧
    (∀ x ∈ (build circle).definitions, ∀ y ∈ (build circle).definitions,
      x ∈ (build circle).callers y.id ↔ y ∈ (build circle).callees x.id) ∧
    ((build circle).definitions.map fun d => (build circle).outgoing d.id).sum =
      (build circle).links.length := by
  have hids : ((build circle).definitions.map (·.id)).Nodup :=
    nodup_ids_build (by decide) (by decide)
  have hedges : (build circle).edges = [⟨0, 0, 1⟩, ⟨0, 1, 1⟩, ⟨1, 0, 1⟩] := by
    rw [build, CallDefinition.arrange_of_pairwise (by decide +kernel)]
    decide +kernel
  obtain ⟨hjoined, -, hlength, -, -, hsum, -, -⟩ := adjacency_agrees circle hids
  rw [hedges] at hlength
  exact ⟨hids, hedges, hlength, fun x hx y hy => (hjoined x hx y hy).1, hsum⟩

end CallGraph

end SourceAtlas
