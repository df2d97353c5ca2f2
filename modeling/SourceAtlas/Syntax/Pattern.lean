import SourceAtlas.Syntax.Tree

/-!
# Patterns over syntax trees

A pattern describes a node: its label, the place it takes in its parent, and children that occur in
it in this order, among others. Parts of a pattern are captured under a name.

* `Pattern`, `Pattern.leaf`, `Pattern.within`;
* `Pattern.occurrences`: the ways in which a pattern fits a node;
* **`Tree.search`**: the matches of a list of patterns anywhere in a tree, in the order in which
  their last parts are reached when the source is read;
* `Tree.pathTo`, `Tree.enclosing?`: the nodes around a node.
-/

namespace SourceAtlas

/-- A description of nodes. -/
inductive Pattern where
  /-- A node with this label and place, or with any where none is given. If `optional` is set the
  pattern may be skipped where nothing fits it. -/
  | mk (label field capture : Option String) (optional : Bool) (children : List Pattern)

/-- One way in which a pattern fits: the captured nodes in the order of the pattern and the number
of the last node that it needed. -/
structure Match where
  captures : List (String × Tree)
  last : Nat

namespace Pattern

/-- A node with this label, captured under a name. -/
def leaf (label capture : String) : Pattern := .mk (some label) none (some capture) false []

/-- A node with this label that holds the children, captured under a name. -/
def captured (label capture : String) (children : List Pattern) : Pattern :=
  .mk (some label) none (some capture) false children

/-- A node with this label that holds the children. -/
def holding (label : String) (children : List Pattern) : Pattern :=
  .mk (some label) none none false children

/-- Any node, captured under a name. -/
def anything (capture : String) : Pattern := .mk none none (some capture) false []

/-- The pattern in the named place of its parent. -/
def within (field : String) : Pattern → Pattern
  | .mk l _ c o cs => .mk l (some field) c o cs

/-- The pattern, if anything fits it. -/
def maybe : Pattern → Pattern
  | .mk l f c _ cs => .mk l f c true cs

/-- May the pattern be skipped? -/
def isOptional : Pattern → Bool
  | .mk _ _ _ o _ => o

/-- Each element of a list with the elements after it. -/
def choices {α : Type} : List α → List (α × List α)
  | [] => []
  | a :: as => (a, as) :: choices as

mutual

/-- The ways in which a pattern fits a node. -/
def occurrences : Pattern → Tree → List Match
  | .mk label field capture _ children, t =>
    if (label.isNone || label == some t.label) && (field.isNone || field == t.field) then
      let own := match capture with
        | some name => [(name, t)]
        | none => []
      (occurrencesAll children t.children).map fun m => ⟨own ++ m.captures, max t.id m.last⟩
    else []

/-- The ways in which patterns fit nodes that stand side by side, in this order. -/
def occurrencesAll : List Pattern → List Tree → List Match
  | [], _ => [⟨[], 0⟩]
  | p :: ps, ts =>
    let found := (choices ts).flatMap fun (t, rest) =>
      (occurrences p t).flatMap fun m =>
        (occurrencesAll ps rest).map fun k => ⟨m.captures ++ k.captures, max m.last k.last⟩
    if found.isEmpty && p.isOptional then occurrencesAll ps ts else found

end

end Pattern

namespace Tree

mutual

/-- The nodes of a tree in front of `rest`, parents before their children. -/
def nodesBefore : Tree → List Tree → List Tree
  | node l f i s e cs, rest => node l f i s e cs :: nodesOfAll cs rest

/-- The nodes of trees that stand side by side, in front of `rest`. -/
def nodesOfAll : List Tree → List Tree → List Tree
  | [], rest => rest
  | t :: ts, rest => nodesBefore t (nodesOfAll ts rest)

end

/-- All nodes of a tree, parents before their children. -/
def nodes (t : Tree) : List Tree := nodesBefore t []

/-- The matches of the patterns anywhere in a tree, ordered by the last node that they needed. -/
def search (patterns : List Pattern) (t : Tree) : List Match :=
  let found := t.nodes.flatMap fun n => patterns.flatMap fun p => p.occurrences n
  found.mergeSort fun a b => a.last ≤ b.last

mutual

/-- The nodes from the root of a tree down to the one with the number `target`, which is in the
tree. As parents are counted before their children, it lies in the last child that is not counted
after it. -/
def pathTo (target : Nat) : Tree → List Tree
  | node l f i s e cs => node l f i s e cs :: if i < target then pathAmong target cs else []

/-- The nodes down to the one with the number `target`, from the tree that holds it on. -/
def pathAmong (target : Nat) : List Tree → List Tree
  | [] => []
  | [t] => pathTo target t
  | t :: u :: ts => if u.id ≤ target then pathAmong target (u :: ts) else pathTo target t

end

/-- The innermost node around another that has one of the labels. -/
def enclosing? (t : Tree) (labels : List String) (inner : Tree) : Option Tree :=
  ((pathTo inner.id t).filter fun n => n.id < inner.id && labels.contains n.label).getLast?

end Tree

namespace Match

/-- The last node captured under a name. -/
def get? (m : Match) (name : String) : Option Tree :=
  (m.captures.reverse.find? (·.1 == name)).map (·.2)

end Match

end SourceAtlas
