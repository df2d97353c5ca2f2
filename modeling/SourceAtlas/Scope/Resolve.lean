import SourceAtlas.Scope.Graph

/-!
# Resolution

A plain name means the first definition of that name in the nearest scope that has one, going from a
scope to its parents. A name with a member means the member in the scope that the name's definition
opens, and nowhere else. A use that means nothing stays open.

* `ScopeGraph.resolveName`, `ScopeGraph.resolveDotted`;
* `ScopeGraph.visited`: the scopes below the roots;
* **`ScopeGraph.resolve`**: resolves the uses of all visited scopes;
* `Tally`: how many uses are resolved.
-/

namespace SourceAtlas

namespace ScopeGraph

/-- Looks a name up in a scope and then in its parents, in no more than `n` scopes. -/
def resolveUpward (g : ScopeGraph) (name : String) : Nat → Nat → Option Handle
  | 0, _ => none
  | n + 1, id =>
    match g.scope? id with
    | none => none
    | some s =>
      match s.find? name with
      | some i => some ⟨id, i⟩
      | none =>
        match s.parent with
        | some p => resolveUpward g name n p
        | none => none

/-- What a name means in a scope. As parents may form a cycle, no more scopes are looked at than
there are. -/
def resolveName (g : ScopeGraph) (scope : Nat) (name : String) : Option Handle :=
  g.resolveUpward name (g.size + 1) scope

/-- What a member means that is used together with a name in a scope. -/
def resolveDotted (g : ScopeGraph) (scope : Nat) (name member : String) : Option Handle := do
  let h ← g.resolveName scope name
  let d ← g.definition? h
  let opened ← d.opens
  let s ← g.scope? opened
  let i ← s.find? member
  some ⟨opened, i⟩

/-- What a use means in a scope. -/
def meaning (g : ScopeGraph) (scope : Nat) (u : Use) : Option Handle :=
  match u.member with
  | some m => g.resolveDotted scope u.name m
  | none => g.resolveName scope u.name

/-- The scopes without a parent. -/
def roots (g : ScopeGraph) : List Nat :=
  (g.scopes.toList.filter fun s => s.parent.isNone).map (·.id)

/-- The numbers of scopes that are not in a list. -/
def unseen (g : ScopeGraph) (seen : List Nat) : List Nat :=
  (List.range g.size).filter fun i => !seen.contains i

theorem unseen_cons_lt {g : ScopeGraph} {seen : List Nat} {id : Nat}
    (h : ¬ (seen.contains id ∨ ¬ id < g.size)) :
    (g.unseen (id :: seen)).length < (g.unseen seen).length := by
  obtain ⟨hs, h⟩ : ¬ seen.contains id ∧ id < g.size := by
    rwa [not_or, Decidable.not_not] at h
  have hsub : g.unseen (id :: seen) = (g.unseen seen).filter (· ≠ id) := by
    unfold unseen
    rw [List.filter_filter]
    apply List.filter_congr
    intro x _
    by_cases hx : x = id <;> simp [hx]
  rw [hsub, List.length_filter_lt_length_iff_exists]
  exact ⟨id, by simpa [unseen, h] using hs, by simp⟩

/-- Visits the scopes on a stack and those below them. -/
def visit (g : ScopeGraph) (stack seen : List Nat) : List Nat :=
  match stack with
  | [] => seen
  | id :: rest =>
    if h : seen.contains id ∨ ¬ id < g.size then visit g rest seen
    else
      have : (g.unseen (id :: seen)).length < (g.unseen seen).length := unseen_cons_lt h
      visit g (((g.scope? id).map (·.children)).getD [] ++ rest) (id :: seen)
termination_by ((g.unseen seen).length, stack.length)

/-- The scopes that are reached from the roots. -/
def visited (g : ScopeGraph) : List Nat := g.visit g.roots []

/-- Resolves the uses of the visited scopes. -/
def resolve (g : ScopeGraph) : ScopeGraph :=
  let seen := g.visited
  { g with
    scopes := g.scopes.map fun s =>
      if seen.contains s.id then
        { s with uses := s.uses.map fun u => { u with target := g.meaning s.id u } }
      else s }

/-- The resolved uses with what they mean. -/
def resolvedUses (g : ScopeGraph) : List (Use × Definition) :=
  g.uses.filterMap fun u => (u.target.bind g.definition?).map fun d => (u, d)

/-- The uses that stayed open. -/
def openUses (g : ScopeGraph) : List Use := g.uses.filter (·.target.isNone)

end ScopeGraph

/-- How many uses there are and how many of them are resolved. -/
structure Tally where
  total : Nat
  resolved : Nat
deriving DecidableEq, Repr

namespace Tally

/-- How many uses stayed open. -/
def unresolved (t : Tally) : Nat := t.total - t.resolved

/-- The share of resolved uses, one if there are no uses. -/
def ratio (t : Tally) : Float := if t.total = 0 then 1 else t.resolved.toFloat / t.total.toFloat

end Tally

/-- Counts the uses of a graph. -/
def ScopeGraph.tally (g : ScopeGraph) : Tally :=
  ⟨g.uses.length, (g.uses.filter (·.target.isSome)).length⟩

end SourceAtlas
