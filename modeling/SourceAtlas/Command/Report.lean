import SourceAtlas.Atlas
import SourceAtlas.CallGraph.Walk
import SourceAtlas.Decimal

/-!
# Reports

What the commands print.

* `Line`: a line of a report;
* `percent`, `sizeText`, `durationText`, `definitionLine`, `moreLine`;
* **`indexReport`**, **`resolveReport`**, **`callReport`**, **`deadReport`**, **`statsReport`**.
-/

namespace SourceAtlas

/-- A line of a report. -/
inductive Line where
  | text (s : String)
  /-- How long the work took, which is known only when it is done. -/
  | duration
deriving DecidableEq, Repr

/-- The text of a line, given how long the work took. -/
def Line.render (elapsed : String) : Line → String
  | .text s => s
  | .duration => "Duration: " ++ elapsed

namespace Report

/-- An empty line. -/
def blank : Line := .text ""

/-! ## Parts of lines -/

/-- A share as a percentage with one place. -/
def percent (ratio : Float) : String := Decimal.fixed 1 (ratio * 100) ++ "%"

/-- A size in the largest unit that it fills. -/
def sizeText (bytes : Nat) : String :=
  let unit := fun (size : Nat) (name : String) =>
    Decimal.fixed 1 (bytes.toFloat / size.toFloat) ++ " " ++ name
  if Nat.pow 2 30 ≤ bytes then unit (Nat.pow 2 30) "GB"
  else if Nat.pow 2 20 ≤ bytes then unit (Nat.pow 2 20) "MB"
  else if Nat.pow 2 10 ≤ bytes then unit (Nat.pow 2 10) "KB"
  else s!"{bytes} B"

/-- A number of nanoseconds in the largest unit that it fills, with two places. -/
def durationText (nanos : Nat) : String :=
  let unit := fun (size : Nat) (name : String) =>
    let hundredths := Decimal.roundDiv (100 * nanos) size
    s!"{hundredths / 100}." ++ Decimal.padded 2 (hundredths % 100) ++ name
  if Nat.pow 10 9 ≤ nanos then unit (Nat.pow 10 9) "s"
  else if Nat.pow 10 6 ≤ nanos then unit (Nat.pow 10 6) "ms"
  else if Nat.pow 10 3 ≤ nanos then unit (Nat.pow 10 3) "µs"
  else unit 1 "ns"

/-- The kind of a definition in reports. -/
def kindText : SymbolKind → String
  | .function => "function"
  | .method => "method"
  | .type => "type"

/-- The heading for the definitions of a kind. -/
def kindHeading : SymbolKind → String
  | .function => "Functions"
  | .method => "Methods"
  | .type => "Types"

/-- A definition, set in by its depth. -/
def definitionLine (d : CallDefinition) (depth : Nat) : Line :=
  .text <| String.join (List.replicate (depth + 1) "  ") ++
    s!"{d.file.text}:{d.startLine} {kindText d.kind} {d.name}"

/-- How many items of a list are not shown. -/
def moreLine (total shown : Nat) : List Line :=
  if shown < total then [.text s!"  • ... and {total - shown} more"] else []

/-! ## Reports -/

/-- How many problems are shown. -/
def maxProblems : Nat := 5

/-- The problems of an index. -/
def problemLines (problems : List Problem) : List Line :=
  if problems.isEmpty then []
  else
    let input := (problems.filter (·.kind.isInput)).length
    let inner := (problems.filter (·.kind.isInternal)).length
    [blank,
      .text s!"Errors ({problems.length}: {input} in source files, {inner} reading or loading):"] ++
    ((problems.take maxProblems).map fun p => .text s!"  • {p.path.text}: {p.message}") ++
    (if maxProblems < problems.length then
      [.text s!"  ... and {problems.length - maxProblems} more"]
    else [])

/-- The report of a build. -/
def indexReport (cache : Path) (i : Index) (r : BuildReport) : List Line :=
  [blank,
    .text s!"Indexed {i.files.length} files, found {r.symbols} symbols, {r.references} references",
    .text s!"Files: {r.parsed} parsed, {r.reused} reused", .duration,
    .text ("Cache: " ++ cache.text)] ++
  (if r.skipped.isEmpty then []
    else [.text s!"Skipped: {r.skipped.length} directories (unreadable)"]) ++
  problemLines i.problems

/-- The report on the names of a scope graph; the unresolved ones are listed up to a limit. -/
def resolveReport (g : ScopeGraph) (list : Bool) (limit : Nat) : List Line :=
  let t := g.tally
  [.text "Name Resolution", blank, .text s!"  Scopes: {g.size}",
    .text s!"  Packages: {g.sortedPackages.length}",
    .text s!"  Resolved: {t.resolved} of {t.total} ({percent t.ratio})",
    .text s!"  Unresolved: {t.unresolved}"] ++
  (if list && 0 < t.unresolved then
    [blank, .text "Unresolved references:"] ++
    ((g.openUses.take limit).map fun u =>
      let l := u.location
      .text s!"  • {l.file.text}:{l.startLine}:{l.startColumn} {u.qualifiedName}") ++
    moreLine t.unresolved limit
  else [])

/-- The report of a walk from the definitions that a pattern names. -/
def callReport (g : CallGraph) (pattern : String) (roots : List CallDefinition) (depth : Nat)
    (reverse : Bool) : List Line :=
  if roots.isEmpty then [.text s!"No definitions found for \"{pattern}\""]
  else
    let w := g.walk (roots.map (·.id)) depth reverse
    let heading := if reverse then "Callers of" else "Calls from"
    let edge := fun (e : WalkEdge) =>
      let caller := (g.idAt e.edge.caller).display
      let callee := (g.idAt e.edge.callee).display
      Line.text <|
        if reverse then s!"  {callee} <- {caller} x{e.edge.count}"
        else s!"  {caller} -> {callee} x{e.edge.count}"
    [.text s!"{heading} \"{pattern}\" (depth {depth}):", blank] ++
    (w.nodes.filterMap fun n =>
      (g.definition? (g.idAt n.node)).map fun d => definitionLine d n.depth) ++
    (if w.edges.isEmpty then [] else [blank, .text "Edges:"] ++ w.edges.map edge) ++
    [blank, .text s!"Summary: {w.nodes.length} definitions, {w.edges.length} edges"]

/-- How many definitions are shown. -/
def maxDefinitions : Nat := 10

/-- The report on definitions that nothing calls. -/
def deadReport (found : List CallDefinition) : List Line :=
  if found.isEmpty then [.text "No uncalled definitions found"]
  else
    [.text s!"Uncalled definitions ({found.length}):"] ++
    ((found.take maxDefinitions).map fun d => definitionLine d 0) ++
    moreLine found.length maxDefinitions ++
    [blank, .text "Matching is by name only; dynamic dispatch and reflection are not seen."]

/-- A line for each key that counts something. -/
def countLines {α : Type} (keys : List α) (name : α → String) (count : α → Nat) : List Line :=
  (keys.filter fun k => 0 < count k).map fun k => .text s!"    {name k}: {count k}"

/-- The report on an atlas. -/
def statsReport (cache : Path) (cacheSize : String) (a : Atlas) : List Line :=
  let i := a.index
  let t := a.scopes.tally
  [.text "Codescope Index Statistics", blank, .text s!"  Cache: {cache.text} ({cacheSize})",
    .text s!"  Root: {i.root.text}", blank, .text s!"  Files: {i.files.length} total"] ++
  countLines Language.all Language.name (fun l => (i.files.filter (·.language == l)).length) ++
  (if i.problems.isEmpty then [] else [.text s!"    failed: {i.problems.length}"]) ++
  [blank, .text s!"  Symbols: {i.symbols.length} total"] ++
  countLines [.function, .method, .type] kindHeading
    (fun k => (i.symbols.filter (·.kind == k)).length) ++
  [blank, .text s!"  References: {i.references.length}",
    .text s!"  Resolved Names: {t.resolved} of {t.total} ({percent t.ratio})",
    .text (s!"  Call Graph: {a.calls.edges.length} edges, " ++
      s!"{a.calls.unresolved.length} unresolved of {a.calls.callSites} call sites")]

end Report

end SourceAtlas
