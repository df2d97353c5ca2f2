import SourceAtlas.CallGraph.Query

/-!
# Walks through call graphs

A walk starts at some definitions and follows calls, level by level, up to a depth. Each definition
is visited once, on the first level that reaches it. The calls between visited definitions belong to
the walk, those from the last level as well.

* `Walk`, `Walk.step`, `Walk.level`, `Walk.levels`;
* **`CallGraph.walk`**.
-/

namespace SourceAtlas

/-- A definition that a walk visits, told by its position. -/
structure WalkNode where
  node : Nat
  /-- How many calls it is away from the nearest start. -/
  depth : Nat
deriving DecidableEq, Repr

/-- A call that a walk follows. -/
structure WalkEdge where
  edge : CallEdge
  /-- The level on which the call was found. -/
  depth : Nat
deriving DecidableEq, Repr

/-- What a walk visits and follows, in order. -/
structure Walk where
  nodes : List WalkNode
  edges : List WalkEdge
deriving DecidableEq, Repr

namespace Walk

/-- Has the walk visited a definition? -/
def visited (w : Walk) (i : Nat) : Bool := w.nodes.any (·.node == i)

/-- The definition at the far end of a call, which is followed backwards if `reverse` is set. -/
def farEnd (reverse : Bool) (e : CallEdge) : Nat := if reverse then e.caller else e.callee

/-- The calls that leave a definition, ordered by their far ends. -/
def leaving (g : CallGraph) (reverse : Bool) (i : Nat) : List CallEdge :=
  if reverse then g.incomingEdges i else g.outgoingEdges i

/-- Follows one call to a level. -/
def step (reverse : Bool) (depth : Nat) (w : Walk) (e : CallEdge) : Walk :=
  let far := farEnd reverse e
  { nodes := if w.visited far then w.nodes else w.nodes ++ [⟨far, depth⟩]
    edges := w.edges ++ [⟨e, depth⟩] }

/-- Follows the calls that leave the definitions of a level. -/
def level (g : CallGraph) (reverse : Bool) (depth : Nat) (w : Walk) (current : List Nat) : Walk :=
  (current.flatMap (leaving g reverse)).foldl (step reverse depth) w

/-- Adds the calls from the definitions of the last level to visited ones. -/
def close (g : CallGraph) (reverse : Bool) (depth : Nat) (w : Walk) (current : List Nat) : Walk :=
  let inside := (current.flatMap (leaving g reverse)).filter fun e => w.visited (farEnd reverse e)
  { w with edges := w.edges ++ inside.map fun e => ⟨e, depth⟩ }

/-- Visits `more` levels after the level `depth`, whose definitions are `current`. -/
def levels (g : CallGraph) (reverse : Bool) : Nat → Nat → List Nat → Walk → Walk
  | 0, depth, current, w => close g reverse depth w current
  | more + 1, depth, current, w =>
    if current.isEmpty then w
    else
      let next := level g reverse (depth + 1) w current
      let found := (next.nodes.drop w.nodes.length).map (·.node)
      levels g reverse more (depth + 1) found next

end Walk

/-- Walks from the definitions with the given ids, as far as they are known, up to a depth, from
callers to callees or, if `reverse` is set, from callees to callers. -/
def CallGraph.walk (g : CallGraph) (roots : List DefinitionId) (depth : Nat) (reverse : Bool) :
    Walk :=
  let start := (roots.filterMap g.position?).eraseDups
  Walk.levels g reverse depth 0 start ⟨start.map fun i => ⟨i, 0⟩, []⟩

end SourceAtlas
