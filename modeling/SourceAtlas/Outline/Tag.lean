import SourceAtlas.Import
import SourceAtlas.Outline.Spot
import SourceAtlas.Signature
import SourceAtlas.Summary

/-!
# From tags to symbols and references

A tag is one match of a pattern: the name it found and what the name defines or how it is used.
Several tags may mark one definition, and the most specific kind counts.

* `Tag`, `TaggedNode`;
* `Tag.merge`, `Tag.definitions`: one definition for each marked node;
* `symbol?`, `reference?`: the entries of a summary;
* **`Tag.symbols`**, **`Tag.references`**.
-/

namespace SourceAtlas

/-- A node marked as a definition. -/
structure TaggedNode where
  spot : Spot
  kind : SymbolKind
  /-- What the node's surroundings say a method in it belongs to. -/
  owner : Option String
deriving DecidableEq, Repr

/-- One match of a pattern for definitions and uses. -/
structure Tag where
  name : Option Spot
  definition : Option TaggedNode
  /-- How the name is used. -/
  reference : Option String
deriving DecidableEq, Repr

namespace Tag

/-- A definition found so far: the marked node with its best kind, and its name. -/
structure Found where
  node : TaggedNode
  name : Spot
deriving DecidableEq, Repr

/-- Adds a marked node. If the node is known, the more specific kind counts and the name stays. -/
def merge (node : TaggedNode) (name : Spot) : List Found → List Found
  | [] => [⟨node, name⟩]
  | f :: fs =>
    if f.node.spot.id = node.spot.id then
      (if f.node.kind.specificity < node.kind.specificity then
        { f with node := { f.node with kind := node.kind } }
      else f) :: fs
    else f :: merge node name fs

/-- The definitions that a tag adds to. -/
def addTo (found : List Found) (t : Tag) : List Found :=
  match t.name, t.definition with
  | some name, some node => merge node name found
  | _, _ => found

/-- One definition for each marked node, in the order of their first marks. -/
def definitions (tags : List Tag) : List Found := tags.foldl addTo []

/-- The text between the first parentheses after the word `func`. -/
def parenthesized (signature : String) : Option String :=
  match signature.toList with
  | 'f' :: 'u' :: 'n' :: 'c' :: rest =>
    match Text.trimStart rest with
    | '(' :: inner =>
      if inner.contains ')' then
        let receiver := Text.trim (inner.takeWhile (· != ')'))
        if receiver.isEmpty then none else some (String.ofList receiver)
      else none
    | _ => none
  | _ => none

/-- What a method belongs to. -/
def receiver (language : Language) (signature : String) (owner : Option String) : Option String :=
  match language with
  | .go => parenthesized signature
  | _ => owner

/-- The symbol of a definition, if its name and text can be read and the name is not empty. -/
def symbol? (language : Language) (path : Path) (f : Found) : Option Symbol := do
  let name ← f.name.text
  if name = "" then none
  else
    let text ← f.node.spot.text
    let signature := Signature.summarize text
    some {
      file := path
      kind := f.node.kind
      name
      signature
      receiver :=
        if f.node.kind = .method then receiver language signature f.node.owner else none
      startLine := f.node.spot.startLine
      endLine := f.node.spot.endLine }

/-- The symbols of a list of tags. -/
def symbols (language : Language) (path : Path) (tags : List Tag) : List Symbol :=
  (definitions tags).filterMap (symbol? language path)

/-- The reference of a tag, if it marks a use whose name can be read. -/
def reference? (path : Path) (t : Tag) : Option Reference := do
  let kind ← t.reference
  let spot ← t.name
  let name ← spot.text
  some {
    file := path
    kind
    name
    startLine := spot.startLine
    startColumn := spot.startColumn
    endLine := spot.endLine
    endColumn := spot.endColumn }

/-- The references of a list of tags. -/
def references (path : Path) (tags : List Tag) : List Reference := tags.filterMap (reference? path)

/-- The summary of the tags and the imported texts of a file. -/
def summary (language : Language) (path : Path) (size : Nat) (tags : List Tag)
    (imports : List (Option String)) : Summary :=
  Summary.normalize {
    path
    language
    size := size.toUInt64
    modTime := 0
    imports := (imports.filterMap (·.map (Import.clean language))).filter (· ≠ "")
    symbols := symbols language path tags
    references := references path tags }

end Tag

end SourceAtlas
