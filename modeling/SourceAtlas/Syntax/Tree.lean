/-!
# Syntax trees

A tree holds the parts of a source that outlines and scopes can tell apart. Every node has a label,
the name of the place it takes in its parent, and the bytes it covers.

* `Tree`, `Tree.label`, `Tree.field`, `Tree.start`, `Tree.stop`, `Tree.children`;
* `Tree.numbered`: the tree with its nodes counted from the root downwards;
* `Tree.hasError`: does some part of the source fit no rule?
-/

namespace SourceAtlas

/-- A node of a syntax tree. -/
inductive Tree where
  | node (label : String) (field : Option String) (id start stop : Nat) (children : List Tree)
deriving Inhabited, Repr

namespace Tree

/-- The label of a part that fits no rule. -/
def errorLabel : String := "ERROR"

/-- What the node is. -/
def label : Tree → String
  | node l _ _ _ _ _ => l

/-- The place the node takes in its parent. -/
def field : Tree → Option String
  | node _ f _ _ _ _ => f

/-- The number of the node. -/
def id : Tree → Nat
  | node _ _ i _ _ _ => i

/-- The offset of the first byte. -/
def start : Tree → Nat
  | node _ _ _ s _ _ => s

/-- The offset after the last byte. -/
def stop : Tree → Nat
  | node _ _ _ _ e _ => e

/-- The nodes below, in source order. -/
def children : Tree → List Tree
  | node _ _ _ _ _ cs => cs

/-- The same node in another place of its parent. -/
def withField (name : String) : Tree → Tree
  | node l _ i s e cs => node l (some name) i s e cs

/-- The first child that takes the given place. -/
def child? (t : Tree) (name : String) : Option Tree := t.children.find? (·.field == some name)

mutual

/-- Counts the nodes of a tree from `n` on, parents before their children, and gives the next
number. -/
def numberFrom (n : Nat) : Tree → Tree × Nat
  | node l f _ s e cs =>
    let (cs, next) := numberAll (n + 1) cs
    (node l f n s e cs, next)

/-- Counts the nodes of trees that stand side by side. -/
def numberAll (n : Nat) : List Tree → List Tree × Nat
  | [] => ([], n)
  | t :: ts =>
    let (t, next) := numberFrom n t
    let (ts, next) := numberAll next ts
    (t :: ts, next)

end

/-- The tree with its nodes counted from zero, parents before their children. -/
def numbered (t : Tree) : Tree := (numberFrom 0 t).1

mutual

/-- Does some part of the source fit no rule? -/
def hasError : Tree → Bool
  | node l _ _ _ _ cs => l == errorLabel || anyError cs

/-- Does a part of one of the trees fit no rule? -/
def anyError : List Tree → Bool
  | [] => false
  | t :: ts => hasError t || anyError ts

end

end Tree

end SourceAtlas
