import SourceAtlas.Path
import SourceAtlas.Scope.Kind

/-!
# Scope graphs

The scopes of a set of files. Scopes have numbers, which count them in the order in which they were
added. Every scope knows its parent and its children; files and packages are roots until they are
moved below another scope. Numbers have no bound, so graphs of `2 ^ 32` scopes and more, where
numbers of 32 bits run out, are left out.

* `Location`, `Definition`, `Handle`, `Use`, `Scope`, **`ScopeGraph`**;
* `ScopeGraph.addFile`, `ScopeGraph.addPackage`, `ScopeGraph.addScope`, `ScopeGraph.setParent`,
  `ScopeGraph.define`, `ScopeGraph.setOpened`, `ScopeGraph.addUse`: the ways to build a graph. A
  number that no scope has leaves the graph as it is.
-/

namespace SourceAtlas

/-- A range in a file; lines and columns count from one. -/
structure Location where
  file : Path
  startLine : UInt32
  startColumn : UInt32
  endLine : UInt32
  /-- The column after the last. -/
  endColumn : UInt32
deriving DecidableEq, Repr

/-- A name bound in a scope. -/
structure Definition where
  name : String
  kind : DefinitionKind
  /-- The text of the declared type. -/
  declaredType : Option String
  /-- What an import imports. -/
  importPath : Option String
  location : Location
  /-- The scope that the definition opens: a body, or what was imported. -/
  opens : Option Nat
deriving DecidableEq, Repr

/-- A definition told by its scope and its position in there. -/
structure Handle where
  scope : Nat
  index : Nat
deriving DecidableEq, Repr

/-- A use of a name. -/
structure Use where
  name : String
  /-- What is looked up in the scope that the name opens. -/
  member : Option String
  location : Location
  /-- The definition that the use means, if it is known. -/
  target : Option Handle
deriving DecidableEq, Repr

/-- The name with its member. -/
def Use.qualifiedName (u : Use) : String :=
  match u.member with
  | some m => u.name ++ "." ++ m
  | none => u.name

/-- A region in which names are bound. -/
structure Scope where
  id : Nat
  kind : ScopeKind
  parent : Option Nat
  children : List Nat
  /-- The names bound here, in the order in which they were added. -/
  definitions : List Definition
  uses : List Use
  /-- The file that the scope lies in; packages lie in none. -/
  file : Option Path
deriving DecidableEq, Repr

/-- The position of the first definition of a name. -/
def Scope.find? (s : Scope) (name : String) : Option Nat :=
  s.definitions.findIdx? (·.name == name)

/-- Scopes, and where those of files and packages are found. -/
structure ScopeGraph where
  scopes : Array Scope
  files : List (Path × Nat)
  packages : List (String × Nat)
deriving DecidableEq, Repr

namespace ScopeGraph

/-- The graph without scopes. -/
def empty : ScopeGraph := ⟨#[], [], []⟩

instance : EmptyCollection ScopeGraph := ⟨empty⟩

instance : Inhabited ScopeGraph := ⟨empty⟩

/-- How many scopes there are. -/
def size (g : ScopeGraph) : Nat := g.scopes.size

/-- The scope with a number. -/
def scope? (g : ScopeGraph) (id : Nat) : Option Scope := g.scopes[id]?

/-- The definition that a handle tells. -/
def definition? (g : ScopeGraph) (h : Handle) : Option Definition :=
  (g.scope? h.scope).bind fun s => s.definitions[h.index]?

/-- The scope of a file. -/
def file? (g : ScopeGraph) (path : Path) : Option Nat :=
  (g.files.find? fun f => f.1.same path).map (·.2)

/-- The scope of a package. -/
def package? (g : ScopeGraph) (key : String) : Option Nat :=
  (g.packages.find? fun p => p.1 == key).map (·.2)

/-- The packages with their scopes, ordered by key. -/
def sortedPackages (g : ScopeGraph) : List (String × Nat) :=
  g.packages.mergeSort fun a b => a.1 ≤ b.1

/-- All uses, scope by scope. -/
def uses (g : ScopeGraph) : List Use := g.scopes.toList.flatMap (·.uses)

/-- Adds a scope that nothing holds. -/
def push (g : ScopeGraph) (kind : ScopeKind) (parent : Option Nat) (file : Option Path) :
    ScopeGraph :=
  { g with scopes := g.scopes.push ⟨g.size, kind, parent, [], [], [], file⟩ }

/-- Changes the scope with a number. -/
def modify (g : ScopeGraph) (id : Nat) (f : Scope → Scope) : ScopeGraph :=
  { g with scopes := g.scopes.modify id f }

/-- The scope of a file, added if it is new. -/
def addFile (g : ScopeGraph) (path : Path) : ScopeGraph × Nat :=
  match g.file? path with
  | some id => (g, id)
  | none =>
    let h := g.push .file none (some path)
    ({ h with files := h.files ++ [(path, g.size)] }, g.size)

/-- The scope of a package, added if it is new. -/
def addPackage (g : ScopeGraph) (key : String) : ScopeGraph × Nat :=
  match g.package? key with
  | some id => (g, id)
  | none =>
    let h := g.push .package none none
    ({ h with packages := h.packages ++ [(key, g.size)] }, g.size)

/-- Adds a scope below another, in the same file. -/
def addScope (g : ScopeGraph) (kind : ScopeKind) (parent : Nat) : ScopeGraph × Nat :=
  match g.scope? parent with
  | some p =>
    let h := g.push kind (some parent) p.file
    (h.modify parent fun s => { s with children := s.children ++ [g.size] }, g.size)
  | none => (g, g.size)

/-- Takes a scope away from its parent. -/
def detach (g : ScopeGraph) (child : Nat) : ScopeGraph :=
  match (g.scope? child).bind (·.parent) with
  | some old => g.modify old fun s => { s with children := s.children.filter (· ≠ child) }
  | none => g

/-- Moves a scope below another. -/
def setParent (g : ScopeGraph) (child parent : Nat) : ScopeGraph :=
  if child = parent ∨ g.size ≤ child ∨ g.size ≤ parent then g
  else
    ((g.detach child).modify child fun s => { s with parent := some parent }).modify parent
      fun s => { s with children := s.children ++ [child] }

/-- Binds a name in a scope. -/
def define (g : ScopeGraph) (scope : Nat) (d : Definition) : ScopeGraph × Handle :=
  let index := ((g.scope? scope).map (·.definitions.length)).getD 0
  (g.modify scope fun s => { s with definitions := s.definitions ++ [d] }, ⟨scope, index⟩)

/-- Tells which scope a definition opens. -/
def setOpened (g : ScopeGraph) (h : Handle) (opened : Nat) : ScopeGraph :=
  g.modify h.scope fun s =>
    { s with definitions := s.definitions.modify h.index fun d => { d with opens := some opened } }

/-- Adds a use to a scope. -/
def addUse (g : ScopeGraph) (scope : Nat) (u : Use) : ScopeGraph :=
  g.modify scope fun s => { s with uses := s.uses ++ [u] }

end ScopeGraph

end SourceAtlas
