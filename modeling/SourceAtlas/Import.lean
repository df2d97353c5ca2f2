import SourceAtlas.Language

/-!
# Imports

How the languages write an imported path, which name an import binds, and where the import leads.

* `Import.clean`: the path that a piece of source text stands for;
* `Import`: one import as it stands in a source;
* `Import.binding`: the name bound by an import;
* **`Import.link`**: where an import leads, as an `ImportLink`.
-/

namespace SourceAtlas

/-- Where an import leads. -/
inductive ImportLink where
  /-- To the package whose key ends the imported path. -/
  | package (path : String)
  /-- To the first of these files that is known. -/
  | files (candidates : List Path)
  | unlinked
deriving DecidableEq, Repr

/-- An import as it stands in a source. -/
structure Import where
  path : String
  /-- The local name that the source gives. -/
  alias? : Option String
  /-- The kind of the importing statement. -/
  statement : String
  /-- The file that holds the import. -/
  fromFile : Path
deriving DecidableEq, Repr

namespace Import

/-- Without the quotes at both ends. -/
def unquote (cs : List Char) : List Char :=
  let quote := fun c => c == '"' || c == '\x60'
  ((cs.dropWhile quote).reverse.dropWhile quote).reverse

/-- The path that a piece of source text stands for. -/
def clean : Language → String → String
  | .go, raw => String.ofList (unquote (Text.trim raw.toList))
  | _, raw => Text.collapse raw

/-- The last segment of a path that is not empty. -/
def lastSegment (path : String) : String :=
  ((Text.splitBy (fun c => c == '/' || c == '.' || c == ':') path).reverse.find? (· ≠ "")).getD path

/-- The text before the first dot. -/
def firstModule (path : String) : String := (Text.splitBy (· == '.') path).headD path

/-- The text after the last slash. -/
def lastStep (path : String) : String := (Text.splitBy (· == '/') path).getLastD path

/-- The name that an import binds. -/
def binding (language : Language) (i : Import) : String :=
  match i.alias?, language with
  | some name, _ => name
  | none, .go => lastStep i.path
  | none, .python => firstModule i.path
  | none, _ => lastSegment i.path

/-- The files that may hold a module, nearest first. -/
def moduleFiles (module : String) (fromFile : Path) : List Path :=
  let relative := Path.ofSegments (Text.splitBy (· == '.') module)
  let within := fun (p : Path) => [p.withExtension "py", p.join ⟨"__init__.py"⟩]
  match fromFile.parent with
  | some dir =>
    if dir.text = "" then within relative else within (dir.join relative) ++ within relative
  | none => within relative

/-- Where an import leads. -/
def link (language : Language) (i : Import) : ImportLink :=
  match language with
  | .go => .package i.path
  | .python =>
    if i.statement = "import_from_statement" then .unlinked
    else
      let module := if i.alias?.isSome then i.path else firstModule i.path
      .files (moduleFiles module i.fromFile)
  | .rust | .csharp => .unlinked

end Import

namespace Language

/-- Do the files of one directory share a package scope? -/
def sharesPackage : Language → Bool
  | .go => true
  | _ => false

/-- Can the scopes of the language's sources be told? -/
def hasBindings : Language → Bool
  | .csharp => false
  | _ => true

end Language

end SourceAtlas
