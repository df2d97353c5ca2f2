import SourceAtlas.Outline.Spot
import SourceAtlas.Scope.Builder
import SourceAtlas.Scope.Patterns
import SourceAtlas.Syntax

/-!
# Scopes of sources

* `Marks.ofTree`: the marks in a syntax tree;
* `ScopeBuilder.addSource`, **`ScopeGraph.ofSources`**.
-/

namespace SourceAtlas

namespace Marks

/-- Where a spot lies. -/
def locate (path : Path) (s : Spot) : Location :=
  ⟨path, s.startLine, s.startColumn, s.endLine, s.endColumn⟩

/-- The name in a spot, if it can be read. -/
def nameMark? (path : Path) (s : Spot) : Option NameMark :=
  s.text.map fun text => ⟨s.id, ⟨s.start, s.stop⟩, text, locate path s⟩

/-- Adds what one match says. -/
def add (language : Language) (path : Path) (spot : Tree → Spot) (marks : Marks) (m : Match) :
    Marks :=
  let span := fun (t : Tree) => (⟨t.start, t.stop⟩ : Span)
  let name := m.get? "name"
  let textOf := fun (capture : String) => ((m.get? capture).map spot).bind (·.text)
  let main : Option (Tree × Role) := m.captures.reverse.findSome? fun (capture, node) =>
    match Role.ofCapture capture with
    | .scope k => some (node, .scope k)
    | .definition k => some (node, .definition k)
    | .reference => some (node, .reference)
    | _ => none
  match main with
  | some (node, .scope kind) => { marks with scopes := ⟨span node, kind⟩ :: marks.scopes }
  | some (node, .definition kind) =>
    let name := name.bind fun t => nameMark? path (spot t)
    let mark : BindingMark := {
      span := span node
      kind
      name
      declaredType := textOf "type"
      path := (textOf "path").map (Import.clean language)
      statement := node.label
      location := (name.map (·.location)).getD (locate path (spot node)) }
    { marks with bindings := mark :: marks.bindings }
  | some (node, .reference) =>
    match nameMark? path (spot (name.getD node)) with
    | some n =>
      let member := (m.get? "member").bind fun t => nameMark? path (spot t)
      { marks with uses := ⟨n, member⟩ :: marks.uses }
    | none => marks
  | _ => marks

/-- The marks in a syntax tree. -/
def ofTree (language : Language) (path : Path) (source : ByteArray) (tree : Tree) : Marks :=
  let spot := Spot.ofTree source (.ofBytes source)
  let m := (tree.search language.bindings).foldl (add language path spot) ⟨[], [], []⟩
  ⟨m.scopes.reverse, m.bindings.reverse, m.uses.reverse⟩

end Marks

/-- Adds a file with its source. -/
def ScopeBuilder.addSource (b : ScopeBuilder) (path : Path) (language : Language)
    (source : ByteArray) : ScopeBuilder × Nat :=
  if language.hasBindings then
    b.addMarks path language (Marks.ofTree language path source (language.parse source))
  else b.addEmpty path

/-- A file and its content; the content of a file that cannot be read is not known. -/
structure SourceFile where
  path : Path
  language : Language
  content : Option ByteArray

/-- Adds a file. -/
def ScopeBuilder.addFile (b : ScopeBuilder) (f : SourceFile) : ScopeBuilder × Nat :=
  match f.content with
  | some source => b.addSource f.path f.language source
  | none => b.addEmpty f.path

/-- The scope graph of files, added in this order. -/
def ScopeGraph.ofSources (files : List SourceFile) : ScopeGraph :=
  (files.foldl (fun b f => (ScopeBuilder.addFile b f).1) ∅).finish

end SourceAtlas
