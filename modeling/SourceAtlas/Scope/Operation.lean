import SourceAtlas.Scope.Resolve

/-!
# Operations on scope graphs

The single steps by which a graph grows. A step that names a scope which does not exist fails.

* `Operation`, `Operation.fits`: do the scopes exist that a step names?
* `Operation.apply`, **`Operation.run?`**.
-/

namespace SourceAtlas

/-- One step. -/
inductive Operation where
  | addFile (path : Path)
  | addPackage (key : String)
  | addScope (kind : ScopeKind) (parent : Nat)
  | setParent (child parent : Nat)
  | define (scope : Nat) (definition : Definition)
  | setOpened (handle : Handle) (opened : Nat)
  | addUse (scope : Nat) (use : Use)
  | resolve
deriving DecidableEq, Repr

namespace Operation

/-- What a step tells. -/
inductive Outcome where
  | nothing
  | scope (id : Nat)
  | handle (h : Handle)
  | counts (t : Tally)
deriving DecidableEq, Repr

/-- Do the scopes exist that a step names? -/
def fits (g : ScopeGraph) : Operation → Bool
  | addFile _ | addPackage _ | resolve => true
  | addScope _ parent => parent < g.size
  | setParent child parent => child == parent || (child < g.size && parent < g.size)
  | define scope _ | addUse scope _ => scope < g.size
  | setOpened h _ => h.scope < g.size

/-- The graph after a step, and what the step tells. -/
def apply (g : ScopeGraph) : Operation → ScopeGraph × Outcome
  | addFile path => let (h, id) := g.addFile path; (h, .scope id)
  | addPackage key => let (h, id) := g.addPackage key; (h, .scope id)
  | addScope kind parent => let (h, id) := g.addScope kind parent; (h, .scope id)
  | setParent child parent => (g.setParent child parent, .nothing)
  | define scope d => let (h, handle) := g.define scope d; (h, .handle handle)
  | setOpened h opened => (g.setOpened h opened, .nothing)
  | addUse scope u => (g.addUse scope u, .nothing)
  | resolve => let h := g.resolve; (h, .counts h.tally)

/-- Takes a step if the scopes exist that it names. -/
def run? (g : ScopeGraph) (o : Operation) : Option (ScopeGraph × Outcome) :=
  if o.fits g then some (o.apply g) else none

end Operation

end SourceAtlas
