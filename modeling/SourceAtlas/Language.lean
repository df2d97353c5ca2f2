import SourceAtlas.Path

/-!
# Languages

* `Language`: the languages that can be indexed, `Language.all` in their fixed order;
* `Language.ofExtension?`, **`Language.ofPath?`**: a file's language is told by its extension.
-/

namespace SourceAtlas

/-- A language whose sources can be indexed. -/
inductive Language where
  | go
  | rust
  | python
  | csharp
deriving DecidableEq, Repr, Inhabited, Hashable

namespace Language

/-- Every language, in their fixed order. -/
def all : List Language := [.go, .rust, .python, .csharp]

/-- The name of a language in snapshots and messages. -/
def name : Language → String
  | .go => "go"
  | .rust => "rust"
  | .python => "python"
  | .csharp => "csharp"

/-- The language of a name. -/
def ofName? (name : String) : Option Language := all.find? (·.name = name)

/-- The extensions of a language's files. -/
def extensions : Language → List String
  | .go => ["go"]
  | .rust => ["rs"]
  | .python => ["py", "pyi"]
  | .csharp => ["cs"]

/-- The language of a file extension, in any case. No character outside ASCII has a letter of a
known extension as its lower case, so that folding ASCII letters is enough. -/
def ofExtension? (ext : String) : Option Language :=
  let lower := ext.map Char.toLower
  all.find? fun language => language.extensions.contains lower

/-- The language of a file, told by its extension. -/
def ofPath? (path : Path) : Option Language := path.extension.bind ofExtension?

end Language

end SourceAtlas
