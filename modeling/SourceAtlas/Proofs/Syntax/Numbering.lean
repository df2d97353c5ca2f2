import Mathlib.Data.List.Nodup
import Mathlib.Tactic.Common
import SourceAtlas.Syntax
import SourceAtlas.Syntax.Pattern

/-!
# The nodes of trees and their numbers

The nodes of a syntax tree are counted, parents before their children. So a node is told by its
number, and whatever a search finds in a tree can be compared by numbers.

* `Tree.nodes_node`, `Tree.nodes_subset`: the nodes of a tree;
* `Tree.ids_nodes_numbered`: the numbers of its nodes;
* `Tree.IsNumbered`, **`Language.isNumbered_parse`**: nodes are told by their numbers;
* `Match.IsOver`, **`Tree.isOver_of_mem_search`**: a search finds nodes of the tree.
-/

namespace SourceAtlas

namespace Tree

/-! ## The nodes of a tree -/

mutual

theorem nodesBefore_eq (t : Tree) (rest : List Tree) : nodesBefore t rest = nodes t ++ rest := by
  cases t with
  | node l f i s e cs =>
    rw [nodes, nodesBefore, nodesBefore, nodesOfAll_eq cs rest, nodesOfAll_eq cs []]
    simp

theorem nodesOfAll_eq (ts rest : List Tree) : nodesOfAll ts rest = ts.flatMap nodes ++ rest := by
  cases ts with
  | nil => rfl
  | cons t ts =>
    rw [nodesOfAll, nodesBefore_eq t, nodesOfAll_eq ts rest, List.flatMap_cons, List.append_assoc]

end

theorem nodes_node (l : String) (f : Option String) (i s e : Nat) (cs : List Tree) :
    nodes (node l f i s e cs) = node l f i s e cs :: cs.flatMap nodes := by
  rw [nodes, nodesBefore, nodesOfAll_eq, List.append_nil]

theorem self_mem_nodes (t : Tree) : t ∈ t.nodes := by
  cases t
  rw [nodes_node]
  exact List.mem_cons_self

theorem nodes_children_subset (t : Tree) : t.children.flatMap nodes ⊆ t.nodes := by
  cases t
  rw [nodes_node]
  exact List.subset_cons_self _ _

mutual

theorem nodes_subset (t : Tree) : ∀ n ∈ t.nodes, n.nodes ⊆ t.nodes := by
  cases t with
  | node l f i s e cs =>
    intro n hn
    rw [nodes_node] at hn
    rcases List.mem_cons.mp hn with rfl | hn
    · exact List.Subset.refl _
    · have hbelow := nodesAll_subset cs n hn
      exact List.Subset.trans hbelow (nodes_children_subset (node l f i s e cs))

theorem nodesAll_subset (ts : List Tree) : ∀ n ∈ ts.flatMap nodes, n.nodes ⊆ ts.flatMap nodes := by
  cases ts with
  | nil => simp
  | cons t ts =>
    intro n hn
    rw [List.flatMap_cons] at hn ⊢
    rcases List.mem_append.mp hn with hn | hn
    · exact List.Subset.trans (nodes_subset t n hn) (List.subset_append_left _ _)
    · exact List.Subset.trans (nodesAll_subset ts n hn) (List.subset_append_right _ _)

end

/-! ## Numbers -/

/-- Numbers from `n` on, up to but without `next`. -/
def countUp (n next : Nat) : List Nat := List.range' n (next - n)

theorem countUp_append {n m next : Nat} (hm : n ≤ m) (hnext : m ≤ next) :
    countUp n m ++ countUp m next = countUp n next := by
  have hlast : m = n + 1 * (m - n) := by omega
  have hsum : m - n + (next - m) = next - n := by omega
  rw [countUp, countUp, countUp, ← hsum, ← List.range'_append, ← hlast]

mutual

theorem ids_numberFrom (n : Nat) (t : Tree) : n < (numberFrom n t).2 ∧
    (numberFrom n t).1.nodes.map id = countUp n (numberFrom n t).2 := by
  cases t with
  | node l f i s e cs =>
    obtain ⟨hle, hids⟩ := ids_numberAll (n + 1) cs
    have hone : countUp n (n + 1) = [n] := by simp [countUp]
    refine ⟨by rw [numberFrom]; exact hle, ?_⟩
    rw [numberFrom]
    dsimp only
    rw [nodes_node, List.map_cons, hids, ← countUp_append (Nat.le_succ n) hle, hone]
    rfl

theorem ids_numberAll (n : Nat) (ts : List Tree) : n ≤ (numberAll n ts).2 ∧
    ((numberAll n ts).1.flatMap nodes).map id = countUp n (numberAll n ts).2 := by
  cases ts with
  | nil => simp [numberAll, countUp]
  | cons t ts =>
    obtain ⟨hlt, hids⟩ := ids_numberFrom n t
    obtain ⟨hle, hidsAll⟩ := ids_numberAll (numberFrom n t).2 ts
    have hfirst := Nat.le_of_lt hlt
    refine ⟨by rw [numberAll]; exact Nat.le_trans hfirst hle, ?_⟩
    rw [numberAll]
    dsimp only
    rw [List.flatMap_cons, List.map_append, hids, hidsAll, countUp_append hfirst hle]

end

/-- **The nodes of a numbered tree are counted from zero, in their order.** -/
theorem ids_nodes_numbered (t : Tree) :
    t.numbered.nodes.map id = List.range t.numbered.nodes.length := by
  have hids := (ids_numberFrom 0 t).2
  rw [← List.length_map (f := id), numbered, hids]
  simp [countUp, List.range_eq_range']

/-- A tree whose nodes have different numbers. -/
def IsNumbered (t : Tree) : Prop := (t.nodes.map id).Nodup

theorem isNumbered_numbered (t : Tree) : t.numbered.IsNumbered := by
  rw [IsNumbered, ids_nodes_numbered]
  exact List.nodup_range

/-- A node is told by its number. -/
theorem IsNumbered.eq_of_id {t m n : Tree} (ht : t.IsNumbered) (hm : m ∈ t.nodes) (hn : n ∈ t.nodes)
    (h : m.id = n.id) : m = n :=
  List.inj_on_of_nodup_map ht hm hn h

end Tree

theorem Grammar.isNumbered_parse {σ : Type} [BEq σ] [Hashable σ] (g : Grammar σ)
    (tokens : Array Token) : (g.parse tokens).IsNumbered := by
  unfold parse
  split
  · exact Tree.isNumbered_numbered _
  · simp [Tree.IsNumbered, Tree.nodes_node]

/-- **The nodes of every source have different numbers.** -/
theorem Language.isNumbered_parse (language : Language) (source : ByteArray) :
    (language.parse source).IsNumbered := by
  cases language <;> exact Grammar.isNumbered_parse _ _

/-! ## Searches -/

/-- A match whose parts are nodes of a tree. -/
def Match.IsOver (m : Match) (t : Tree) : Prop := ∀ c ∈ m.captures, c.2 ∈ t.nodes

namespace Pattern

theorem of_mem_choices {α : Type} {a : α} {rest l : List α} (h : (a, rest) ∈ choices l) :
    a ∈ l ∧ rest ⊆ l := by
  induction l with
  | nil => exact absurd h List.not_mem_nil
  | cons b l ih =>
    rw [choices, List.mem_cons, Prod.mk.injEq] at h
    rcases h with ⟨rfl, rfl⟩ | h
    · exact ⟨List.mem_cons_self, List.subset_cons_self _ _⟩
    · obtain ⟨ha, hrest⟩ := ih h
      exact ⟨List.mem_cons_of_mem _ ha, List.subset_cons_of_subset _ hrest⟩

mutual

theorem captures_occurrences (p : Pattern) (t : Tree) :
    ∀ m ∈ p.occurrences t, ∀ c ∈ m.captures, c.2 ∈ t.nodes := by
  cases p with
  | mk label field capture optional children =>
    intro m hm c hc
    simp only [occurrences] at hm
    split_ifs at hm
    · obtain ⟨k, hk, rfl⟩ := List.mem_map.mp hm
      rcases List.mem_append.mp hc with hc | hc
      · cases capture with
        | none => exact absurd hc List.not_mem_nil
        | some name =>
          rw [List.mem_singleton.mp hc]
          exact t.self_mem_nodes
      · exact t.nodes_children_subset (captures_occurrencesAll children t.children k hk c hc)
    · exact absurd hm List.not_mem_nil

theorem captures_occurrencesAll (ps : List Pattern) (ts : List Tree) :
    ∀ m ∈ occurrencesAll ps ts, ∀ c ∈ m.captures, c.2 ∈ ts.flatMap Tree.nodes := by
  cases ps with
  | nil =>
    intro m hm c hc
    rw [occurrencesAll, List.mem_singleton] at hm
    rw [hm] at hc
    exact absurd hc List.not_mem_nil
  | cons p ps =>
    intro m hm c hc
    rw [occurrencesAll] at hm
    split_ifs at hm
    · exact captures_occurrencesAll ps ts m hm c hc
    · obtain ⟨⟨t, rest⟩, hchoice, hm⟩ := List.mem_flatMap.mp hm
      obtain ⟨k, hk, hm⟩ := List.mem_flatMap.mp hm
      obtain ⟨j, hj, rfl⟩ := List.mem_map.mp hm
      obtain ⟨ht, hrest⟩ := of_mem_choices hchoice
      rcases List.mem_append.mp hc with hc | hc
      · exact List.mem_flatMap.mpr ⟨t, ht, captures_occurrences p t k hk c hc⟩
      · obtain ⟨u, hu, hcu⟩ := List.mem_flatMap.mp (captures_occurrencesAll ps rest j hj c hc)
        exact List.mem_flatMap.mpr ⟨u, hrest hu, hcu⟩

end

end Pattern

/-- **A search finds nodes of the tree.** -/
theorem Tree.isOver_of_mem_search {t : Tree} {patterns : List Pattern} {m : Match}
    (hm : m ∈ t.search patterns) : m.IsOver t := by
  rw [search, List.mem_mergeSort] at hm
  obtain ⟨n, hn, hm⟩ := List.mem_flatMap.mp hm
  obtain ⟨p, -, hm⟩ := List.mem_flatMap.mp hm
  exact fun c hc => t.nodes_subset n hn (p.captures_occurrences n m hm c hc)

end SourceAtlas
