import SourceAtlas.DefinitionId
import SourceAtlas.Index

/-!
# Call graphs

The definitions of an index and which of them call which. A call is made by the innermost definition
around it in its file and reaches every definition of the called name. Calls of one definition by
another are counted together.

* `CallDefinition`, `CallEdge`, `UnresolvedCall`, `CallGraph`;
* `CallDefinition.arrange`: the definitions of an index in order;
* `enclosing?`: the definition around a call;
* **`CallGraph.build`**.
-/

namespace SourceAtlas

/-- A definition that calls or is called. -/
structure CallDefinition where
  id : DefinitionId
  file : Path
  kind : SymbolKind
  name : String
  signature : String
  receiver : Option String
  startLine : UInt32
  endLine : UInt32
deriving DecidableEq, Repr, Inhabited

namespace CallDefinition

/-- The definition of a symbol. -/
def ofSymbol (s : Symbol) : CallDefinition where
  id := .make s.file s.kind s.name s.startLine
  file := s.file
  kind := s.kind
  name := s.name
  signature := s.signature
  receiver := s.receiver
  startLine := s.startLine
  endLine := s.endLine

/-- Does a line lie in the definition? -/
def containsLine (d : CallDefinition) (line : UInt32) : Bool :=
  d.startLine.toNat ≤ line.toNat && line.toNat ≤ d.endLine.toNat

/-- Definitions are ordered by file, first line, name and kind. -/
def compare (a b : CallDefinition) : Ordering :=
  (a.file.compare b.file).then <|
  (Ord.compare a.startLine.toNat b.startLine.toNat).then <|
  (Ord.compare a.name b.name).then <|
  Ord.compare a.kind.rank b.kind.rank

/-- Leaves out the definitions that follow one with the same id. -/
def dropRepeats : List CallDefinition → List CallDefinition
  | [] => []
  | d :: ds => d :: after d.id ds
where
  /-- The definitions after one with the id `last`. -/
  after (last : DefinitionId) : List CallDefinition → List CallDefinition
    | [] => []
    | d :: ds => if d.id = last then after last ds else d :: after d.id ds

/-- The definitions of symbols, in order. -/
def arrange (symbols : List Symbol) : List CallDefinition :=
  dropRepeats ((symbols.map ofSymbol).mergeSort fun a b => a.compare b != .gt)

end CallDefinition

/-- A call of one definition by another, both told by their positions. -/
structure CallEdge where
  caller : Nat
  callee : Nat
  /-- How many calls there are. -/
  count : Nat
deriving DecidableEq, Repr

/-- A call of a name that nothing defines. -/
structure UnresolvedCall where
  /-- The position of the calling definition. -/
  caller : Option Nat
  file : Path
  name : String
  line : UInt32
  column : UInt32
deriving DecidableEq, Repr

/-- Which definitions call which. -/
structure CallGraph where
  definitions : List CallDefinition
  /-- The calls, ordered by caller and then by callee. -/
  edges : List CallEdge
  unresolved : List UnresolvedCall
  /-- How many calls there are. -/
  callSites : Nat
  /-- How many calls of known names lie outside of all definitions. -/
  topLevelCalls : Nat
deriving DecidableEq, Repr

/-- Does the second definition lie further inside than the first, or as far? -/
def isInner (a b : CallDefinition) : Bool :=
  a.startLine.toNat < b.startLine.toNat ||
    (a.startLine == b.startLine && b.endLine.toNat ≤ a.endLine.toNat)

/-- The positions of the definitions that satisfy `p`. -/
def positions (p : CallDefinition → Bool) (definitions : List CallDefinition) : List Nat :=
  (definitions.zipIdx.filter fun (d, _) => p d).map (·.2)

/-- The position of the innermost definition around a reference in its file, the last one of
several. -/
def enclosing? (definitions : List CallDefinition) (r : Reference) : Option Nat :=
  let around := definitions.zipIdx.filter fun (d, _) =>
    d.containsLine r.startLine && d.file.same r.file
  (around.foldl
    (fun best x =>
      match best with
      | none => some x
      | some b => if isInner b.1 x.1 then some x else best)
    (none : Option (CallDefinition × Nat))).map (·.2)

namespace CallGraph

/-- Counts one more call. -/
def addEdge (caller callee : Nat) : List CallEdge → List CallEdge
  | [] => [⟨caller, callee, 1⟩]
  | e :: es =>
    if e.caller = caller ∧ e.callee = callee then { e with count := e.count + 1 } :: es
    else if caller < e.caller ∨ (caller = e.caller ∧ callee < e.callee) then
      ⟨caller, callee, 1⟩ :: e :: es
    else e :: addEdge caller callee es

/-- Adds a call. -/
def addCall (g : CallGraph) (r : Reference) : CallGraph :=
  let caller := enclosing? g.definitions r
  let callees := positions (·.name == r.name) g.definitions
  let g := { g with callSites := g.callSites + 1 }
  if callees.isEmpty then
    { g with
      unresolved := g.unresolved ++ [⟨caller, r.file, r.name, r.startLine, r.startColumn⟩] }
  else
    match caller with
    | none => { g with topLevelCalls := g.topLevelCalls + 1 }
    | some c => { g with edges := callees.foldl (fun es b => addEdge c b es) g.edges }

/-- The call graph of an index. -/
def build (i : Index) : CallGraph :=
  (i.references.filter (·.isCall)).foldl addCall ⟨CallDefinition.arrange i.symbols, [], [], 0, 0⟩

end CallGraph

end SourceAtlas
