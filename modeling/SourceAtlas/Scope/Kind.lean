/-!
# Kinds of scopes and definitions

* `ScopeKind`: what a scope covers, `ScopeKind.ofCapture?`;
* `DefinitionKind`: what a name is bound to, `DefinitionKind.ofCapture?`.
-/

namespace SourceAtlas

/-- What a scope covers. -/
inductive ScopeKind where
  /-- A whole file. -/
  | file
  /-- All files of a package. -/
  | package
  /-- The body of a module or namespace. -/
  | moduleBody
  /-- The body of a class, an implementation or a trait. -/
  | classBody
  /-- A function, method or closure. -/
  | function
  | block
deriving DecidableEq, Repr, Inhabited

namespace ScopeKind

/-- Every kind. -/
def all : List ScopeKind := [.file, .package, .moduleBody, .classBody, .function, .block]

/-- The name of a kind. -/
def name : ScopeKind → String
  | .file => "file"
  | .package => "package"
  | .moduleBody => "module"
  | .classBody => "class"
  | .function => "function"
  | .block => "block"

/-- The kind with this name. -/
def ofName? (name : String) : Option ScopeKind := all.find? (·.name = name)

/-- The kind of scope that a capture marks. -/
def ofCapture? (capture : String) : Option ScopeKind :=
  all.find? fun k => capture = "scope." ++ k.name

end ScopeKind

/-- What a name is bound to. -/
inductive DefinitionKind where
  | function
  /-- A function with a receiver. -/
  | method
  /-- A variable or static. -/
  | value
  /-- A parameter of a function or closure. -/
  | parameter
  /-- An alias, an enumeration or another type. -/
  | type
  /-- A class or struct. -/
  | classType
  /-- An imported module, package or item. -/
  | imported
  | constant
  | field
  /-- An interface or trait. -/
  | interface
deriving DecidableEq, Repr, Inhabited

namespace DefinitionKind

/-- Every kind. -/
def all : List DefinitionKind :=
  [.function, .method, .value, .parameter, .type, .classType, .imported, .constant, .field,
    .interface]

/-- The name of a kind. -/
def name : DefinitionKind → String
  | .function => "function"
  | .method => "method"
  | .value => "variable"
  | .parameter => "param"
  | .type => "type"
  | .classType => "class"
  | .imported => "import"
  | .constant => "constant"
  | .field => "field"
  | .interface => "interface"

/-- The kind with this name. -/
def ofName? (name : String) : Option DefinitionKind := all.find? (·.name = name)

/-- The kind of definition that a capture marks. -/
def ofCapture? (capture : String) : Option DefinitionKind :=
  if capture = "definition.parameter" then some .parameter
  else all.find? fun k => capture = "definition." ++ k.name

/-- Is the kind given up when the same name is marked with another one? -/
def isGeneric (k : DefinitionKind) : Bool := k == .type

end DefinitionKind

end SourceAtlas
