import SourceAtlas.Import
import SourceAtlas.Scope.Mark
import SourceAtlas.Scope.Resolve

/-!
# Scope graphs of files

Files are added one by one. The scopes of a file are nested as their regions are; bindings and uses
go to the innermost scope around them. A binding that covers the same bytes as a scope opens it, and
lies one level above it. When all files are added, imports are linked and uses resolved.

* `Region`, `innermost?`;
* `ScopeBuilder`, `ScopeBuilder.addEmpty`, **`ScopeBuilder.addMarks`**, **`ScopeBuilder.finish`**;
* `Path.packageKey`: files with one key share a package.
-/

namespace SourceAtlas

/-- The bytes that a scope covers. -/
structure Region where
  span : Span
  scope : Nat
deriving DecidableEq, Repr

/-- The smallest region around a span, the last one of several. A region that covers the same bytes
does not count if `skipEqual` is set. -/
def innermost? (regions : List Region) (span : Span) (skipEqual : Bool) : Option Region :=
  regions.foldl
    (fun best r =>
      if !r.span.contains span || (skipEqual && r.span == span) then best
      else
        match best with
        | none => some r
        | some b => if r.span.length ≤ b.span.length then some r else best)
    none

/-- The scope of the smallest region around a span, or `file` if there is none. -/
def placeIn (regions : List Region) (file : Nat) (span : Span) (skipEqual : Bool) : Nat :=
  ((innermost? regions span skipEqual).map (·.scope)).getD file

/-- The spelling of a component. -/
def Component.text : Component → String
  | .root => "/"
  | .here => "."
  | .up => ".."
  | .name s => s

/-- The key of the package that a file belongs to: its directory. -/
def Path.packageKey (p : Path) : String :=
  let key := (p.parent.map fun d => "/".intercalate (d.components.map (·.text))).getD ""
  if key = "" then "." else key

/-- An import that waits for the files it may lead to. -/
structure PendingImport where
  definition : Handle
  language : Language
  site : Import
deriving DecidableEq, Repr

/-- A scope graph under construction. -/
structure ScopeBuilder where
  graph : ScopeGraph
  imports : List PendingImport
deriving Repr

namespace ScopeBuilder

/-- Nothing added yet. -/
def empty : ScopeBuilder := ⟨∅, []⟩

instance : EmptyCollection ScopeBuilder := ⟨empty⟩

/-- Adds a file about whose inside nothing is known. -/
def addEmpty (b : ScopeBuilder) (path : Path) : ScopeBuilder × Nat :=
  let (graph, file) := b.graph.addFile path
  ({ b with graph }, file)

/-! ## Scopes -/

/-- Scopes added so far: the open regions, the innermost first, and all regions, the last first. -/
structure Nesting where
  graph : ScopeGraph
  stack : List Region
  placed : List Region

/-- Adds a scope below the innermost open region that holds it. -/
def nest (file : Nat) (n : Nesting) (m : ScopeMark) : Nesting :=
  let stack := n.stack.dropWhile fun r => !r.span.contains m.span
  let parent := (stack.head?.map (·.scope)).getD file
  let (graph, id) := n.graph.addScope m.kind parent
  ⟨graph, ⟨m.span, id⟩ :: stack, ⟨m.span, id⟩ :: n.placed⟩

/-- Adds the scopes of a file and tells their regions. -/
def addScopes (graph : ScopeGraph) (file : Nat) (marks : List ScopeMark) :
    ScopeGraph × List Region :=
  let n := (ScopeMark.arrange marks).foldl (nest file) ⟨graph, [], []⟩
  (n.graph, n.placed.reverse)

/-! ## Bindings -/

/-- The import that a binding stands for. -/
def importOf (path : Path) (m : BindingMark) (imported : String) : Import :=
  ⟨imported, m.name.map (·.text), m.statement, path⟩

/-- The name that a mark binds. -/
def boundName (language : Language) (path : Path) (m : BindingMark) : String :=
  let written := m.name.map (·.text)
  if m.kind = .imported then
    (importOf path m ((m.path.or written).getD "")).binding language
  else written.getD ""

/-- Binds a name in the scope around it. -/
def bind (language : Language) (path : Path) (file : Nat) (regions : List Region)
    (b : ScopeBuilder) (m : BindingMark) : ScopeBuilder :=
  let name := boundName language path m
  if name = "" then b
  else
    let isImport := m.kind = .imported
    let imported := if isImport then m.path.or (m.name.map (·.text)) else m.path
    let (graph, definition) := b.graph.define (placeIn regions file m.span true) {
      name
      kind := m.kind
      declaredType := m.declaredType
      importPath := imported
      location := m.location
      opens := (regions.find? (·.span == m.span)).map (·.scope) }
    match imported with
    | some text =>
      if isImport then ⟨graph, b.imports ++ [⟨definition, language, importOf path m text⟩]⟩
      else { b with graph }
    | none => { b with graph }

/-! ## Uses -/

/-- Adds a use to the scope around it. -/
def addUse (file : Nat) (regions : List Region) (graph : ScopeGraph) (u : UseMark) : ScopeGraph :=
  graph.addUse (placeIn regions file u.name.span false)
    ⟨u.name.text, u.member.map (·.text), u.name.location, none⟩

/-! ## Packages -/

/-- Is a definition of a file visible in the other files of its package? Imports are not, and
methods are reached through their receiver. -/
def isShared (d : Definition) : Bool := d.kind ≠ .imported && d.kind ≠ .method

/-- Moves a file below its package and makes its definitions known there. -/
def joinPackage (graph : ScopeGraph) (path : Path) (file : Nat) : ScopeGraph :=
  let (graph, package) := graph.addPackage path.packageKey
  let graph := graph.setParent file package
  let shared := ((graph.scope? file).map (·.definitions.filter isShared)).getD []
  shared.foldl (fun g d => (g.define package d).1) graph

/-! ## Files -/

/-- Adds a file with its marks. -/
def addMarks (b : ScopeBuilder) (path : Path) (language : Language) (marks : Marks) :
    ScopeBuilder × Nat :=
  let (b, file) := b.addEmpty path
  if language.hasBindings then
    let (graph, regions) := addScopes b.graph file marks.scopes
    let b := (BindingMark.arrange marks.bindings).foldl (bind language path file regions)
      { b with graph }
    let graph := (UseMark.arrange marks.realUses).foldl (addUse file regions) b.graph
    let graph := if language.sharesPackage then joinPackage graph path file else graph
    ({ b with graph }, file)
  else (b, file)

/-! ## Imports -/

/-- Does an imported path end with the key of a package? The files at the root are no package that
can be imported. -/
def leadsTo (imported key : String) : Bool :=
  key != "." && (imported == key || imported.endsWith ("/" ++ key))

/-- The package with the longest key that ends an imported path. -/
def packageFor? (graph : ScopeGraph) (imported : String) : Option Nat :=
  ((graph.sortedPackages.filter fun p => leadsTo imported p.1).foldl
    (fun best p =>
      match best with
      | none => some p
      | some b => if b.1.utf8ByteSize ≤ p.1.utf8ByteSize then some p else best)
    (none : Option (String × Nat))).map (·.2)

/-- The scope that an import leads to. -/
def target? (graph : ScopeGraph) : ImportLink → Option Nat
  | .package path => packageFor? graph path
  | .files candidates => candidates.findSome? graph.file?
  | .unlinked => none

/-- Links an import. -/
def linkImport (graph : ScopeGraph) (p : PendingImport) : ScopeGraph :=
  match target? graph (p.site.link p.language) with
  | some scope => graph.setOpened p.definition scope
  | none => graph

/-- Links the imports and resolves the uses. -/
def finish (b : ScopeBuilder) : ScopeGraph := (b.imports.foldl linkImport b.graph).resolve

end ScopeBuilder

end SourceAtlas
