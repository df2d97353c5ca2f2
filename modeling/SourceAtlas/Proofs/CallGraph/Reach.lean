import Mathlib.Tactic.Common
import SourceAtlas.CallGraph.Walk
import SourceAtlas.Proofs.CallGraph.Count
import SourceAtlas.Proofs.CallGraph.Definitions

/-!
# What a walk reaches

A walk visits the definitions within a number of calls of its roots, each on the level of its
distance, and holds all calls between them.

* `Walk.nearEnd`, `CallGraph.Hops`, `CallGraph.IsDistance`: paths and distances;
* `Walk.foldl_step_nodes`: the definitions that a level finds;
* `Walk.Visits`, `Walk.visits_level`: what a walk knows after a level;
* `Walk.IsBall`, `Walk.isBall_levels`: what it knows in the end;
* **`CallGraph.walk_eq_ball`**: a walk is a ball with all calls inside.
-/

namespace SourceAtlas

/-- The definition at the near end of a call, which is followed backwards if `reverse` is set. -/
def Walk.nearEnd (reverse : Bool) (e : CallEdge) : Nat := if reverse then e.callee else e.caller

/-! ## Distances -/

namespace CallGraph

variable {g : CallGraph} {reverse : Bool} {roots : List DefinitionId} {m n i j : Nat}

/-- A definition can be reached by following a number of calls from a root. -/
inductive Hops (g : CallGraph) (reverse : Bool) (roots : List DefinitionId) : Nat → Nat → Prop
  | root {j : Nat} {d : CallDefinition} (hd : g.definitions[j]? = some d) (hid : d.id ∈ roots) :
      Hops g reverse roots 0 j
  | call {n : Nat} {e : CallEdge} (he : e ∈ g.edges)
      (hnear : Hops g reverse roots n (Walk.nearEnd reverse e)) :
      Hops g reverse roots (n + 1) (Walk.farEnd reverse e)

/-- The least number of calls by which a definition can be reached from a root. -/
def IsDistance (g : CallGraph) (reverse : Bool) (roots : List DefinitionId) (n j : Nat) : Prop :=
  Hops g reverse roots n j ∧ ∀ m < n, ¬ Hops g reverse roots m j

theorem IsDistance.unique (hm : IsDistance g reverse roots m j)
    (hn : IsDistance g reverse roots n j) : m = n := by
  rcases Nat.lt_trichotomy m n with h | h | h
  · exact absurd hm.1 (hn.2 m h)
  · exact h
  · exact absurd hn.1 (hm.2 n h)

theorem exists_isDistance (h : Hops g reverse roots n j) :
    ∃ m ≤ n, IsDistance g reverse roots m j := by
  induction n using Nat.strongRecOn with
  | ind n ih =>
    by_cases hless : ∃ m < n, Hops g reverse roots m j
    · obtain ⟨m, hm, hj⟩ := hless
      obtain ⟨l, hl, hd⟩ := ih m hm hj
      exact ⟨l, by omega, hd⟩
    · exact ⟨n, Nat.le_refl n, h, fun m hm hj => hless ⟨m, hm, hj⟩⟩

theorem isDistance_zero_iff : IsDistance g reverse roots 0 j ↔
    ∃ d, g.definitions[j]? = some d ∧ d.id ∈ roots := by
  constructor
  · rintro ⟨h, -⟩
    cases h with
    | root hd hid => exact ⟨_, hd, hid⟩
  · rintro ⟨d, hd, hid⟩
    exact ⟨.root hd hid, fun m hm => absurd hm (Nat.not_lt_zero m)⟩

/-- A definition is one call further away than another if a call leads to it from there and it is
not nearer. -/
theorem isDistance_succ_iff : IsDistance g reverse roots (n + 1) j ↔
    (∀ m ≤ n, ¬ IsDistance g reverse roots m j) ∧
      ∃ e ∈ g.edges, IsDistance g reverse roots n (Walk.nearEnd reverse e) ∧
        Walk.farEnd reverse e = j := by
  constructor
  · rintro ⟨h, hleast⟩
    refine ⟨fun m hm hd => hleast m (by omega) hd.1, ?_⟩
    cases h with
    | @call _ e he hnear =>
      -- a shorter way to the near end would be a shorter way to the far one
      exact ⟨e, he, ⟨hnear, fun m hm hj => hleast (m + 1) (by omega) (.call he hj)⟩, rfl⟩
  · rintro ⟨hnot, e, he, hnear, rfl⟩
    refine ⟨.call he hnear.1, fun m hm hj => ?_⟩
    obtain ⟨l, hl, hd⟩ := exists_isDistance hj
    exact hnot l (by omega) hd

end CallGraph

/-! ## One level -/

namespace Walk

variable {g : CallGraph} {reverse : Bool} {w : Walk} {j : Nat}

theorem visited_iff : w.visited j = true ↔ ∃ n, ⟨j, n⟩ ∈ w.nodes := by
  rw [visited, List.any_eq_true]
  constructor
  · rintro ⟨⟨i, n⟩, hx, hij⟩
    rw [beq_iff_eq] at hij
    exact ⟨n, hij ▸ hx⟩
  · rintro ⟨n, hx⟩
    exact ⟨_, hx, beq_self_eq_true j⟩

theorem mem_leaving {e : CallEdge} :
    e ∈ leaving g reverse j ↔ e ∈ g.edges ∧ nearEnd reverse e = j := by
  cases reverse <;>
    simp [leaving, nearEnd, CallGraph.incomingEdges, CallGraph.outgoingEdges, List.mem_filter]

theorem mem_flatMap_leaving {e : CallEdge} {current : List Nat} :
    e ∈ current.flatMap (leaving g reverse) ↔ e ∈ g.edges ∧ nearEnd reverse e ∈ current := by
  rw [List.mem_flatMap]
  constructor
  · rintro ⟨i, hi, he⟩
    obtain ⟨hedge, rfl⟩ := mem_leaving.mp he
    exact ⟨hedge, hi⟩
  · rintro ⟨he, hi⟩
    exact ⟨_, hi, mem_leaving.mpr ⟨he, rfl⟩⟩

theorem nodup_flatMap_leaving (hg : g.edges.Nodup) {current : List Nat} (hc : current.Nodup) :
    (current.flatMap (leaving g reverse)).Nodup := by
  rw [List.Nodup, List.pairwise_flatMap]
  constructor
  · intro i _
    cases reverse
    · exact hg.filter _
    · exact hg.filter _
  · refine hc.imp fun {i j} hij e he f hf hef => hij ?_
    rw [← (mem_leaving.mp he).2, hef, (mem_leaving.mp hf).2]

theorem step_nodes_of_visited {e : CallEdge} {d : Nat} (h : w.visited (farEnd reverse e) = true) :
    (step reverse d w e).nodes = w.nodes := if_pos h

theorem step_nodes_of_new {e : CallEdge} {d : Nat} (h : w.visited (farEnd reverse e) = false) :
    (step reverse d w e).nodes = w.nodes ++ [⟨farEnd reverse e, d⟩] := if_neg (by simp [h])

theorem foldl_step_edges (d : Nat) (es : List CallEdge) :
    (es.foldl (step reverse d) w).edges = w.edges ++ es.map fun e => ⟨e, d⟩ := by
  induction es generalizing w with
  | nil => simp
  | cons e es ih => rw [List.foldl_cons, ih]; simp [step]

/-- Following calls appends the far ends that are new, each of them once. -/
theorem foldl_step_nodes (reverse : Bool) (w : Walk) (d : Nat) (es : List CallEdge) :
    ∃ fresh : List Nat, (es.foldl (step reverse d) w).nodes = w.nodes ++ fresh.map (⟨·, d⟩) ∧
      fresh.Nodup ∧ ∀ j, j ∈ fresh ↔ w.visited j = false ∧ ∃ e ∈ es, farEnd reverse e = j := by
  induction es generalizing w with
  | nil => exact ⟨[], by simp, .nil, by simp⟩
  | cons e es ih =>
    obtain ⟨fresh, hnodes, hnodup, hmem⟩ := ih (step reverse d w e)
    rw [List.foldl_cons, hnodes]
    cases hv : w.visited (farEnd reverse e) with
    | true =>
      have hsame : ∀ j, (step reverse d w e).visited j = w.visited j := by
        intro j
        rw [visited, step_nodes_of_visited hv, visited]
      refine ⟨fresh, by rw [step_nodes_of_visited hv], hnodup, fun j => ?_⟩
      rw [hmem, hsame]
      constructor
      · rintro ⟨hj, f, hf, rfl⟩
        exact ⟨hj, f, by simp [hf], rfl⟩
      · rintro ⟨hj, f, hf, rfl⟩
        rcases List.mem_cons.mp hf with rfl | hf
        · rw [hv] at hj
          cases hj
        · exact ⟨hj, f, hf, rfl⟩
    | false =>
      have hgrown : ∀ j, (step reverse d w e).visited j =
          (w.visited j || farEnd reverse e == j) := by
        intro j
        rw [visited, step_nodes_of_new hv, List.any_append, visited]
        simp
      refine ⟨farEnd reverse e :: fresh, by simp [step_nodes_of_new hv], ?_, fun j => ?_⟩
      · rw [List.nodup_cons, hmem, hgrown]
        exact ⟨by simp, hnodup⟩
      · rw [List.mem_cons, hmem, hgrown]
        by_cases hj : j = farEnd reverse e
        · subst hj
          simp [hv]
        · simp [hj, Ne.symm hj]

/-! ## Level after level -/

variable {roots : List DefinitionId} {depth : Nat} {current : List Nat}

/-- What a walk knows after the level `depth`, whose definitions are `current`: the definitions up
to that distance, and the calls that leave the nearer ones. -/
structure Visits (g : CallGraph) (reverse : Bool) (roots : List DefinitionId) (depth : Nat)
    (current : List Nat) (w : Walk) : Prop where
  mem_nodes : ∀ j n, ⟨j, n⟩ ∈ w.nodes ↔ n ≤ depth ∧ g.IsDistance reverse roots n j
  nodup_nodes : (w.nodes.map (·.node)).Nodup
  sorted : w.nodes.Pairwise (·.depth ≤ ·.depth)
  mem_current : ∀ j, j ∈ current ↔ g.IsDistance reverse roots depth j
  nodup_current : current.Nodup
  mem_edges : ∀ e d, ⟨e, d⟩ ∈ w.edges ↔
    e ∈ g.edges ∧ ∃ n < depth, g.IsDistance reverse roots n (nearEnd reverse e) ∧ d = n + 1
  nodup_edges : (w.edges.map (·.edge)).Nodup

theorem Visits.visited_iff (h : Visits g reverse roots depth current w) :
    w.visited j = true ↔ ∃ n ≤ depth, g.IsDistance reverse roots n j := by
  simp only [Walk.visited_iff, h.mem_nodes]

theorem Visits.nodup_append (h : Visits g reverse roots depth current w) (hg : g.edges.Nodup)
    {es : List CallEdge} (hes : es.Sublist (current.flatMap (leaving g reverse))) (d : Nat) :
    ((w.edges ++ es.map fun e => (⟨e, d⟩ : WalkEdge)).map (·.edge)).Nodup := by
  rw [List.map_append, List.map_map, List.nodup_append]
  refine ⟨h.nodup_edges, ?_, ?_⟩
  · have hid : (WalkEdge.edge ∘ fun e => (⟨e, d⟩ : WalkEdge)) = id := rfl
    rw [hid, List.map_id]
    exact hes.nodup (nodup_flatMap_leaving hg h.nodup_current)
  · intro e he f hf hef
    obtain ⟨⟨e', n⟩, hmem, rfl⟩ := List.mem_map.mp he
    obtain ⟨f', hf', rfl⟩ := List.mem_map.mp hf
    obtain rfl : e' = f' := hef
    -- the near end would lie on this level and on a nearer one
    obtain ⟨-, m, hm, hnear, -⟩ := (h.mem_edges _ _).mp hmem
    have hcurrent := (mem_flatMap_leaving.mp (hes.subset hf')).2
    have := hnear.unique ((h.mem_current _).mp hcurrent)
    omega

theorem drop_nodes {fresh : List Nat} {d : Nat} {next : Walk}
    (h : next.nodes = w.nodes ++ fresh.map (⟨·, d⟩)) :
    (next.nodes.drop w.nodes.length).map (·.node) = fresh := by
  rw [h, List.drop_left, List.map_map]
  exact List.map_id fresh

/-- The definitions one call further away are the new ones that calls from this level lead to. -/
theorem Visits.isDistance_succ_iff (h : Visits g reverse roots depth current w) :
    g.IsDistance reverse roots (depth + 1) j ↔ w.visited j = false ∧
      ∃ e ∈ current.flatMap (leaving g reverse), farEnd reverse e = j := by
  rw [CallGraph.isDistance_succ_iff, ← Bool.not_eq_true, h.visited_iff]
  simp only [mem_flatMap_leaving, h.mem_current, not_exists, not_and, and_assoc]

/-- After one more level a walk knows one level more. -/
theorem visits_level (h : Visits g reverse roots depth current w) (hg : g.edges.Nodup) :
    let next := level g reverse (depth + 1) w current
    Visits g reverse roots (depth + 1) ((next.nodes.drop w.nodes.length).map (·.node)) next := by
  intro next
  obtain ⟨fresh, hnodes, hnodup, hmem⟩ :=
    foldl_step_nodes reverse w (depth + 1) (current.flatMap (leaving g reverse))
  have hedges : next.edges = _ := foldl_step_edges (depth + 1) (current.flatMap (leaving g reverse))
  have hnext : next.nodes = w.nodes ++ fresh.map (⟨·, depth + 1⟩) := hnodes
  have hfresh : ∀ j, j ∈ fresh ↔ g.IsDistance reverse roots (depth + 1) j := by
    intro j
    rw [hmem, h.isDistance_succ_iff]
  rw [drop_nodes hnext]
  refine ⟨fun j n => ?_, ?_, ?_, hfresh, hnodup, fun e d => ?_, ?_⟩
  · rw [hnext, List.mem_append, h.mem_nodes, List.mem_map]
    constructor
    · rintro (⟨hn, hd⟩ | ⟨i, hi, hx⟩)
      · exact ⟨by omega, hd⟩
      · cases hx
        exact ⟨Nat.le_refl _, (hfresh j).mp hi⟩
    · rintro ⟨hn, hd⟩
      by_cases hlast : n = depth + 1
      · subst hlast
        exact .inr ⟨j, (hfresh j).mpr hd, rfl⟩
      · exact .inl ⟨by omega, hd⟩
  · rw [hnext, List.map_append, List.map_map, List.nodup_append]
    refine ⟨h.nodup_nodes, (List.map_id fresh).symm ▸ hnodup, ?_⟩
    intro i hi j hj hij
    obtain ⟨⟨i', n⟩, hmemi, rfl⟩ := List.mem_map.mp hi
    obtain ⟨j', hj', rfl⟩ := List.mem_map.mp hj
    obtain rfl : i' = j' := hij
    have hold := (hmem i').mp hj'
    rw [Walk.visited_iff.mpr ⟨n, hmemi⟩] at hold
    cases hold.1
  · rw [hnext, List.pairwise_append]
    refine ⟨h.sorted, ?_, ?_⟩
    · rw [List.pairwise_map]
      exact List.pairwise_of_forall fun _ _ => Nat.le_refl _
    · intro x hx y hy
      obtain ⟨j, -, rfl⟩ := List.mem_map.mp hy
      have := ((h.mem_nodes x.node x.depth).mp hx).1
      exact Nat.le_succ_of_le this
  · rw [hedges, List.mem_append, h.mem_edges, List.mem_map]
    constructor
    · rintro (⟨he, n, hn, hnear, hd⟩ | ⟨f, hf, hx⟩)
      · exact ⟨he, n, by omega, hnear, hd⟩
      · cases hx
        obtain ⟨he, hcurrent⟩ := mem_flatMap_leaving.mp hf
        exact ⟨he, depth, Nat.lt_succ_self _, (h.mem_current _).mp hcurrent, rfl⟩
    · rintro ⟨he, n, hn, hnear, rfl⟩
      by_cases hlast : n = depth
      · subst hlast
        exact .inr ⟨e, mem_flatMap_leaving.mpr ⟨he, (h.mem_current _).mpr hnear⟩, rfl⟩
      · exact .inl ⟨he, n, by omega, hnear, rfl⟩
  · rw [hedges]
    exact h.nodup_append hg (List.Sublist.refl _) _

theorem levels_nil (more depth : Nat) (w : Walk) : levels g reverse more depth [] w = w := by
  cases more with
  | zero => simp [levels, close]
  | succ more => rfl

theorem levels_succ (more : Nat) :
    let next := level g reverse (depth + 1) w current
    levels g reverse (more + 1) depth current w =
      levels g reverse more (depth + 1) ((next.nodes.drop w.nodes.length).map (·.node)) next := by
  cases current with
  | nil => simp [levels, level, levels_nil]
  | cons i current => rfl

/-- A walk that is finished: the definitions up to the distance `k`, and the calls between them. -/
structure IsBall (g : CallGraph) (reverse : Bool) (roots : List DefinitionId) (k : Nat)
    (w : Walk) : Prop where
  mem_nodes : ∀ j n, ⟨j, n⟩ ∈ w.nodes ↔ n ≤ k ∧ g.IsDistance reverse roots n j
  nodup_nodes : (w.nodes.map (·.node)).Nodup
  sorted : w.nodes.Pairwise (·.depth ≤ ·.depth)
  mem_edges : ∀ e d, ⟨e, d⟩ ∈ w.edges ↔ e ∈ g.edges ∧ w.visited (farEnd reverse e) = true ∧
    ∃ n, ⟨nearEnd reverse e, n⟩ ∈ w.nodes ∧ d = min k (n + 1)
  nodup_edges : (w.edges.map (·.edge)).Nodup

/-- The far end of a call is at most one call further away than the near one. -/
theorem Visits.visited_farEnd (h : Visits g reverse roots depth current w) {e : CallEdge}
    (he : e ∈ g.edges) {n : Nat} (hn : n < depth)
    (hnear : g.IsDistance reverse roots n (nearEnd reverse e)) :
    w.visited (farEnd reverse e) = true := by
  obtain ⟨m, hm, hd⟩ := CallGraph.exists_isDistance (.call he hnear.1)
  exact h.visited_iff.mpr ⟨m, by omega, hd⟩

theorem isBall_close (h : Visits g reverse roots depth current w) (hg : g.edges.Nodup) :
    IsBall g reverse roots depth (close g reverse depth w current) := by
  refine ⟨h.mem_nodes, h.nodup_nodes, h.sorted, fun e d => ?_,
    h.nodup_append hg List.filter_sublist depth⟩
  have hvisited : (close g reverse depth w current).visited (farEnd reverse e) =
      w.visited (farEnd reverse e) := rfl
  have hnodes : (close g reverse depth w current).nodes = w.nodes := rfl
  rw [hvisited, hnodes]
  simp only [close, List.mem_append, h.mem_edges, List.mem_map, List.mem_filter,
    mem_flatMap_leaving, h.mem_current, h.mem_nodes]
  constructor
  · rintro (⟨he, n, hn, hnear, rfl⟩ | ⟨f, ⟨⟨he, hnear⟩, hfar⟩, hx⟩)
    · exact ⟨he, h.visited_farEnd he hn hnear, n, ⟨by omega, hnear⟩, by omega⟩
    · cases hx
      exact ⟨he, hfar, depth, ⟨Nat.le_refl _, hnear⟩, by omega⟩
  · rintro ⟨he, hfar, n, ⟨hn, hnear⟩, rfl⟩
    by_cases hlast : n = depth
    · subst hlast
      exact .inr ⟨e, ⟨⟨he, hnear⟩, hfar⟩, by rw [Nat.min_eq_left (Nat.le_succ n)]⟩
    · exact .inl ⟨he, n, by omega, hnear, by omega⟩

theorem isBall_levels (more : Nat) (h : Visits g reverse roots depth current w)
    (hg : g.edges.Nodup) : IsBall g reverse roots (depth + more)
      (levels g reverse more depth current w) := by
  induction more generalizing depth current w with
  | zero => exact isBall_close h hg
  | succ more ih =>
    rw [levels_succ, ← Nat.add_assoc, Nat.add_right_comm]
    exact ih (visits_level h hg)

/-- The calls of a finished walk are those between its definitions. -/
theorem IsBall.exists_mem_edges {k : Nat} (h : IsBall g reverse roots k w) (e : CallEdge) :
    (∃ d, ⟨e, d⟩ ∈ w.edges) ↔
      e ∈ g.edges ∧ w.visited e.caller = true ∧ w.visited e.callee = true := by
  have hends : (w.visited (farEnd reverse e) = true ∧ w.visited (nearEnd reverse e) = true) ↔
      (w.visited e.caller = true ∧ w.visited e.callee = true) := by
    cases reverse
    · exact And.comm
    · exact Iff.rfl
  rw [← hends]
  simp only [h.mem_edges]
  constructor
  · rintro ⟨d, he, hfar, n, hnear, -⟩
    exact ⟨he, hfar, Walk.visited_iff.mpr ⟨n, hnear⟩⟩
  · rintro ⟨he, hfar, hnear⟩
    obtain ⟨n, hn⟩ := Walk.visited_iff.mp hnear
    exact ⟨_, he, hfar, n, hn, rfl⟩

end Walk

/-! ## Roots -/

namespace CallGraph

variable {g : CallGraph} {reverse : Bool} {roots : List DefinitionId}

theorem nodup_eraseDups (l : List Nat) : l.eraseDups.Nodup := by
  induction hn : l.length using Nat.strongRecOn generalizing l with
  | ind n ih =>
    cases l with
    | nil => exact .nil
    | cons a l =>
      rw [List.eraseDups_cons, List.nodup_cons, List.mem_eraseDups]
      have hle := List.length_filter_le (fun b => !b == a) l
      rw [List.length_cons] at hn
      exact ⟨by simp, ih _ (by omega) _ rfl⟩

theorem visits_roots (hids : (g.definitions.map (·.id)).Nodup) (reverse : Bool)
    (roots : List DefinitionId) :
    let start := (roots.filterMap g.position?).eraseDups
    Walk.Visits g reverse roots 0 start ⟨start.map fun i => ⟨i, 0⟩, []⟩ := by
  intro start
  have hstart : ∀ j, j ∈ start ↔ g.IsDistance reverse roots 0 j := by
    intro j
    simp only [start, List.mem_eraseDups, List.mem_filterMap, position?_eq_some_iff hids,
      isDistance_zero_iff]
    constructor
    · rintro ⟨id, hid, d, hd, rfl⟩
      exact ⟨d, hd, hid⟩
    · rintro ⟨d, hd, hid⟩
      exact ⟨d.id, hid, d, hd, rfl⟩
  have hnodup : start.Nodup := nodup_eraseDups _
  refine ⟨fun j n => ?_, ?_, ?_, hstart, hnodup, by simp, .nil⟩
  · rw [List.mem_map]
    constructor
    · rintro ⟨i, hi, hx⟩
      cases hx
      exact ⟨Nat.le_refl 0, (hstart j).mp hi⟩
    · rintro ⟨hn, hd⟩
      obtain rfl : n = 0 := by omega
      exact ⟨j, (hstart j).mpr hd, rfl⟩
  · rw [List.map_map]
    exact (List.map_id start).symm ▸ hnodup
  · rw [List.pairwise_map]
    exact List.pairwise_of_forall fun _ _ => Nat.le_refl 0

theorem isBall_walk (hids : (g.definitions.map (·.id)).Nodup) (hg : g.edges.Nodup) (k : Nat) :
    Walk.IsBall g reverse roots k (g.walk roots k reverse) := by
  have h := Walk.isBall_levels k (visits_roots hids reverse roots) hg
  rwa [Nat.zero_add] at h

/-! ## Walks through the graph of an index -/

theorem nodup_edges_build (i : Index) : (build i).edges.Nodup := by
  refine (accounts_build i).ordered.before.imp fun {e f} h hef => ?_
  subst hef
  rcases h with h | h <;> omega

theorem Hops.lt_length {i : Index} {n j : Nat} (h : Hops (build i) reverse roots n j) :
    j < (build i).definitions.length := by
  cases h with
  | root hd _ => exact (List.getElem?_eq_some_iff.mp hd).1
  | call he _ =>
    unfold Walk.farEnd
    split_ifs
    · exact (ends_lt_of_mem_build he).1
    · exact (ends_lt_of_mem_build he).2

theorem idAt_inj (hids : (g.definitions.map (·.id)).Nodup) {i j : Nat}
    (hi : i < g.definitions.length) (hj : j < g.definitions.length) (h : g.idAt i = g.idAt j) :
    i = j := by
  have hlt : i < (g.definitions.map (·.id)).length := by rwa [List.length_map]
  refine (List.getElem?_inj hlt hids).mp ?_
  rw [List.getElem?_map, List.getElem?_map, List.getElem?_eq_getElem hi,
    List.getElem?_eq_getElem hj]
  simpa [idAt, at?, hi, hj] using h

/-- **A walk is a ball with all calls inside.** It visits the definitions that at most `k` calls
lead to from the known roots, each once, nearer ones first, with its distance from the roots. Its
calls are all those between visited definitions, each once, on the level after that of the end it is
followed from, but not beyond the last level. -/
theorem walk_eq_ball (i : Index) (hids : ((build i).definitions.map (·.id)).Nodup)
    (roots : List DefinitionId) (k : Nat) (reverse : Bool) :
    let g := build i
    let w := g.walk roots k reverse
    (∀ j, w.visited j = true ↔ ∃ n ≤ k, g.Hops reverse roots n j) ∧
    (∀ j n, ⟨j, n⟩ ∈ w.nodes ↔ n ≤ k ∧ g.IsDistance reverse roots n j) ∧
    (∀ x ∈ w.nodes, x.node < g.definitions.length) ∧
    (w.nodes.map fun x => g.idAt x.node).Nodup ∧
    w.nodes.Pairwise (·.depth ≤ ·.depth) ∧
    (∀ e, (∃ d, ⟨e, d⟩ ∈ w.edges) ↔
      e ∈ g.edges ∧ w.visited e.caller = true ∧ w.visited e.callee = true) ∧
    (∀ e d n, ⟨e, d⟩ ∈ w.edges → ⟨Walk.nearEnd reverse e, n⟩ ∈ w.nodes → d = min k (n + 1)) ∧
    (w.edges.map (·.edge)).Nodup := by
  intro g w
  have h : Walk.IsBall g reverse roots k w := isBall_walk hids (nodup_edges_build i) k
  have hlt : ∀ x ∈ w.nodes, x.node < g.definitions.length := fun x hx =>
    ((h.mem_nodes x.node x.depth).mp hx).2.1.lt_length
  refine ⟨fun j => ?_, h.mem_nodes, hlt, ?_, h.sorted, h.exists_mem_edges, ?_, h.nodup_edges⟩
  · rw [Walk.visited_iff]
    simp only [h.mem_nodes]
    constructor
    · rintro ⟨n, hn, hd⟩
      exact ⟨n, hn, hd.1⟩
    · rintro ⟨n, hn, hj⟩
      obtain ⟨m, hm, hd⟩ := exists_isDistance hj
      exact ⟨m, by omega, hd⟩
  · have hnodes := h.nodup_nodes
    rw [List.Nodup, List.pairwise_map] at hnodes ⊢
    exact hnodes.imp_of_mem fun hx hy hne hid => hne (idAt_inj hids (hlt _ hx) (hlt _ hy) hid)
  · intro e d n he hnear
    obtain ⟨-, -, m, hm, rfl⟩ := (h.mem_edges e d).mp he
    -- a definition has one distance
    rw [((h.mem_nodes _ _).mp hm).2.unique ((h.mem_nodes _ _).mp hnear).2]

/-- Two functions that call each other, the first of them itself as well. -/
def circle : Index :=
  let function (name : String) (line : UInt32) : Symbol :=
    ⟨⟨"a"⟩, .function, name, "", none, line, line + 2⟩
  let call (name : String) (line : UInt32) : Reference :=
    ⟨⟨"a"⟩, "reference.call", name, line, 5, line, 6⟩
  let file : Summary :=
    ⟨⟨"a"⟩, .python, 40, 0, [], [function "f" 1, function "g" 4],
      [call "f" 2, call "g" 2, call "f" 5]⟩
  ⟨1, ⟨"/"⟩, .epoch, [file], []⟩

/-- Backwards from the first function, named twice, and from an unknown one. -/
theorem walk_eq_ball_circle :
    ((build circle).definitions.map (·.id)).Nodup ∧
    ∀ j n, ⟨j, n⟩ ∈ ((build circle).walk [⟨"x"⟩, .make ⟨"a"⟩ .function "f" 1,
        .make ⟨"a"⟩ .function "f" 1] 1 true).nodes ↔
      n ≤ 1 ∧ (build circle).IsDistance true [⟨"x"⟩, .make ⟨"a"⟩ .function "f" 1,
        .make ⟨"a"⟩ .function "f" 1] n j := by
  have hids : ((build circle).definitions.map (·.id)).Nodup :=
    nodup_ids_build (by decide) (by decide)
  exact ⟨hids, (walk_eq_ball circle hids _ 1 true).2.1⟩

end CallGraph

end SourceAtlas
