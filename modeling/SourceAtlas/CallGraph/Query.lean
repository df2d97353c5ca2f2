import SourceAtlas.CallGraph.Graph
import SourceAtlas.Regex.Reader

/-!
# Questions about call graphs

* `CallGraph.position?`, `CallGraph.definition?`: definitions by id;
* **`CallGraph.find`**: definitions by name or by pattern;
* `CallGraph.callers`, `CallGraph.callees`, `CallGraph.incoming`, `CallGraph.outgoing`;
* **`CallGraph.deadCandidates`**: definitions that nothing seems to call.
-/

namespace SourceAtlas

namespace CallGraph

/-- The position of the last definition with an id. -/
def position? (g : CallGraph) (id : DefinitionId) : Option Nat :=
  (positions (·.id == id) g.definitions).getLast?

/-- The definition at a position. -/
def at? (g : CallGraph) (i : Nat) : Option CallDefinition := g.definitions[i]?

/-- The definition with an id. -/
def definition? (g : CallGraph) (id : DefinitionId) : Option CallDefinition :=
  (g.position? id).bind g.at?

/-- The id of the definition at a position. -/
def idAt (g : CallGraph) (i : Nat) : DefinitionId := ((g.at? i).map (·.id)).getD default

/-- The definitions with a name, or those whose name matches it as a regular expression. -/
def find (g : CallGraph) (pattern : String) (isRegex : Bool) :
    Except Failure (List CallDefinition) :=
  if isRegex then
    match Regex.ofPattern? pattern with
    | some r => .ok (g.definitions.filter fun d => r.isMatch d.name)
    | none => .error .pattern
  else .ok (g.definitions.filter (·.name == pattern))

/-- The calls that reach a definition. -/
def incomingEdges (g : CallGraph) (i : Nat) : List CallEdge := g.edges.filter (·.callee == i)

/-- The calls that a definition makes. -/
def outgoingEdges (g : CallGraph) (i : Nat) : List CallEdge := g.edges.filter (·.caller == i)

/-- How many definitions call the one with an id. -/
def incoming (g : CallGraph) (id : DefinitionId) : Nat :=
  ((g.position? id).map fun i => (g.incomingEdges i).length).getD 0

/-- How many definitions the one with an id calls. -/
def outgoing (g : CallGraph) (id : DefinitionId) : Nat :=
  ((g.position? id).map fun i => (g.outgoingEdges i).length).getD 0

/-- The definitions that call the one with an id, in order. -/
def callers (g : CallGraph) (id : DefinitionId) : List CallDefinition :=
  match g.position? id with
  | some i => (g.incomingEdges i).filterMap fun e => g.at? e.caller
  | none => []

/-- The definitions that the one with an id calls, in order. -/
def callees (g : CallGraph) (id : DefinitionId) : List CallDefinition :=
  match g.position? id with
  | some i => (g.outgoingEdges i).filterMap fun e => g.at? e.callee
  | none => []

/-! ## Definitions that nothing calls -/

/-- The names by which programs are entered. -/
def entryPoints : List String := ["main", "init", "__init__"]

/-- Is the definition a test, by its name or its file? -/
def isTest (d : CallDefinition) : Bool :=
  let file := d.file.text
  let name := d.file.fileName.getD ""
  d.name.startsWith "Test" || d.name.startsWith "test_" || d.name.startsWith "Benchmark" ||
    name.endsWith "_test.go" || name.endsWith "_test.py" ||
    (name.startsWith "test_" && name.endsWith ".py") ||
    file.startsWith "tests/" || 1 < (file.splitOn "/tests/").length

/-- The definitions that can be called and that no definition calls, except for tests and for the
names by which programs are entered. -/
def deadCandidates (g : CallGraph) (extra : List String) : List CallDefinition :=
  (g.definitions.zipIdx.filter fun (d, i) =>
    (g.incomingEdges i).isEmpty && d.kind.isCallable && !entryPoints.contains d.name &&
      !extra.contains d.name && !isTest d).map (·.1)

end CallGraph

end SourceAtlas
