import SourceAtlas.Edit
import SourceAtlas.Outline.Patterns
import SourceAtlas.Outline.Tag
import SourceAtlas.Syntax

/-!
# Outlines

The outline of a source is the summary of what it defines, uses and imports.

* `Outline.owner`, `Outline.tag`, `Outline.tags`, `Outline.imports`;
* **`Outline.ofSource`**: the outline of a source and whether all of it fits the grammar;
* `Outline.Mode`, `Outline.mode`: how the outline of a changed source is made.
-/

namespace SourceAtlas

/-- What a source defines, uses and imports. -/
structure Outline where
  summary : Summary
  /-- Some part of the source fits no rule. -/
  hasErrors : Bool
  /-- The source holds nothing: no token and no comment. -/
  isBare : Bool

namespace Outline

/-- What a method in a node belongs to, as the nodes around it tell. -/
def owner (language : Language) (source : ByteArray) (lines : Lines) (tree node : Tree) :
    Option String :=
  let (labels, place) := language.owners
  ((tree.enclosing? labels node).bind (·.child? place)).bind fun t =>
    (Spot.ofTree source lines t).text

/-- The tag of a match in a tree. -/
def tag (language : Language) (source : ByteArray) (lines : Lines) (tree : Tree) (m : Match) :
    Tag :=
  let spot := Spot.ofTree source lines
  { name := (m.get? "name").map spot
    definition := m.captures.reverse.findSome? fun (capture, node) =>
      (SymbolKind.ofCapture? capture).map fun kind =>
        ⟨spot node, kind, owner language source lines tree node⟩
    reference := m.captures.reverse.findSome? fun (capture, _) =>
      if capture.startsWith "reference." then some capture else none }

/-- The tags of a tree. -/
def tags (language : Language) (source : ByteArray) (lines : Lines) (tree : Tree) : List Tag :=
  (tree.search language.tags).map (tag language source lines tree)

/-- The texts of a tree's imports. -/
def imports (language : Language) (source : ByteArray) (tree : Tree) : List (Option String) :=
  (tree.search language.imports).flatMap fun m =>
    m.captures.map fun (_, t) => String.fromUTF8? (source.extract t.start t.stop)

/-- A byte that can start neither a comment nor a token of ASCII characters. -/
def isInvisible (c : UInt8) : Bool := c ≤ 32 || 128 ≤ c

/-- The outline of a source. -/
def ofSource (language : Language) (path : Path) (source : ByteArray) : Outline :=
  let tree := language.parse source
  let found := tags language source (.ofBytes source) tree
  ⟨Tag.summary language path source.size found (imports language source tree), tree.hasError,
    tree.children.isEmpty && source.toList.all isInvisible⟩

/-- How an outline was made. -/
inductive Mode where
  /-- The whole source was read. -/
  | full
  /-- What did not change was taken over. -/
  | incremental
deriving DecidableEq, Repr

/-- The blanks of ASCII that may stand in a source with nothing in it. -/
def isPlainBlank (c : UInt8) : Bool := c == 32 || c == 9 || c == 10 || c == 12 || c == 13

/-- How the outline of a changed source is made. Text added at the end, or a source whose tree has
nothing in it although it is not blank, is read as a whole. -/
def mode (old new : Bytes) (outline : Outline) : Mode :=
  match Edit.between old new with
  | none => .incremental
  | some e =>
    if e.start = old.length then .full
    else if outline.isBare && !new.all isPlainBlank then .full
    else .incremental

end Outline

end SourceAtlas
