import SourceAtlas.Language

/-!
# Symbols and references

* `SymbolKind`: function, method or type; `SymbolKind.ofCapture?` tells it from the name of a
  capture and `SymbolKind.specificity` decides between two captures of one definition;
* `Symbol`: a definition found in a file;
* `Reference`: a use of a name found in a file, `Reference.isCall`.
-/

namespace SourceAtlas

/-- What a definition defines. -/
inductive SymbolKind where
  | function
  | method
  | type
deriving DecidableEq, Repr, Inhabited, Hashable

namespace SymbolKind

/-- Every kind, in their order. -/
def all : List SymbolKind := [.function, .method, .type]

/-- The name of a kind in snapshots. -/
def name : SymbolKind → String
  | .function => "function_definition"
  | .method => "method_definition"
  | .type => "type_definition"

/-- The short name of a kind in reports. -/
def shortName : SymbolKind → String
  | .function => "function"
  | .method => "method"
  | .type => "type"

/-- The kind of a name. -/
def ofName? (name : String) : Option SymbolKind := all.find? (·.name = name)

/-- Functions come before methods and methods before types. -/
def rank : SymbolKind → Nat
  | .function => 0
  | .method => 1
  | .type => 2

/-- The kind of definition that a capture marks: constructors count as functions, and every
definition that is neither function nor method is a type. -/
def ofCapture? (capture : String) : Option SymbolKind :=
  if capture = "definition.function" || capture = "definition.constructor" then some .function
  else if capture = "definition.method" then some .method
  else if capture.startsWith "definition." then some .type
  else none

/-- Can a definition of this kind be called? -/
def isCallable : SymbolKind → Bool
  | .function | .method => true
  | .type => false

/-- Where several captures mark one definition the most specific kind counts. -/
def specificity : SymbolKind → Nat
  | .method => 2
  | .function => 1
  | .type => 0

end SymbolKind

/-- A definition found in a file. -/
structure Symbol where
  file : Path
  kind : SymbolKind
  name : String
  signature : String
  /-- What a method belongs to. -/
  receiver : Option String
  /-- The first line, counted from one. -/
  startLine : UInt32
  /-- The last line. -/
  endLine : UInt32
deriving DecidableEq, Repr, Inhabited

/-- A use of a name found in a file. Lines and columns count from one, columns count bytes, and the
end column is the one after the last. -/
structure Reference where
  file : Path
  kind : String
  name : String
  startLine : UInt32
  startColumn : UInt32
  endLine : UInt32
  endColumn : UInt32
deriving DecidableEq, Repr, Inhabited

/-- Is the use a call? -/
def Reference.isCall (r : Reference) : Bool :=
  r.kind = "reference.call" || r.kind = "reference.send"

end SourceAtlas
