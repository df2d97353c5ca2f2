import SourceAtlas.Command.Arguments
import SourceAtlas.Command.Report
import SourceAtlas.Glob.Reader

/-!
# Running commands

A command works on a file tree and leaves one behind, as an index may have been saved in it.

* `cachePath`, `FileTree.cached?`, `FileTree.currentAtlas`;
* `Outcome`, `Invocation.run`;
* **`runArguments`**: from the arguments of the program to what it prints.
-/

namespace SourceAtlas

/-- The directory of the cache in a workspace. -/
def cacheDirectory : String := ".codescope"

/-- The file of the cache in its directory. -/
def cacheFile : String := "index.json"

/-- The name and the version of the program. -/
def versionText (verb : Option Verb) : String :=
  match verb with
  | some v => s!"codescope-{v.name} 0.1.0"
  | none => "codescope 0.1.0"

/-- How the program is used. -/
def usageText : List String :=
  ["Usage: codescope [OPTIONS] <COMMAND>", "", "Commands:"] ++
    Verb.all.map fun v => "  " ++ v.name

namespace FileTree

/-- Where the cache of a workspace is, unless it is told. A single file has its cache beside it. -/
def cachePath (t : FileTree) (workspace : Path) (told : Option Path) : Path :=
  match told with
  | some p => p
  | none =>
    let base := if t.isFile workspace then workspace.parent.getD workspace else workspace
    (base.join ⟨cacheDirectory⟩).join ⟨cacheFile⟩

/-- The index in the cache, if there is one that can be read. -/
def cached? (t : FileTree) (cache : Path) : Option Index := (t.loadIndex cache).toOption

/-- The atlas of a workspace as it is now. What did not change is taken over from the cache. -/
def currentAtlas (t : FileTree) (now : Timestamp) (workspace cache : Path) :
    Except Failure Atlas := do
  let (index, _) ← t.build { previous := t.cached? cache } now workspace
  return t.atlas index

/-- How large the cache is, in words. -/
def cacheSize (t : FileTree) (cache : Path) : String :=
  match t.size cache with
  | .ok bytes => Report.sizeText bytes
  | .error .missing => "not created"
  | .error _ => "size unknown"

end FileTree

/-- What a failure follows from. -/
def Failure.cause? : Failure → Option String
  | .io reason => some reason
  | .pattern => some "regex parse error:"
  | _ => none

/-- What a command leaves behind. -/
structure Outcome where
  status : UInt32
  output : List Line
  errors : List String
  tree : FileTree

namespace Outcome

/-- A command that did its work. -/
def done (t : FileTree) (output : List Line) : Outcome := ⟨0, output, [], t⟩

/-- A command that failed, with what it had printed before. -/
def failed (t : FileTree) (output : List Line) (f : Failure) : Outcome :=
  ⟨1, output, ("error: " ++ f.message) :: (f.cause?.map ("  caused by: " ++ ·)).toList, t⟩

/-- A command that prints a report. -/
def ofReport (t : FileTree) : Except Failure (List Line) → Outcome
  | .ok output => done t output
  | .error f => failed t [] f

end Outcome

/-- Builds the index of a workspace and saves it in the cache. -/
def runIndex (t : FileTree) (now : Timestamp) (workspace cache : Path) (rebuild : Bool)
    (workers : Option Nat) (ignore : List String) : Outcome :=
  let first := Line.text s!"Indexing {workspace.text}..." ::
    (if rebuild then [.text "Rebuilding index from scratch"] else [])
  let work : Except Failure (FileTree × List Line) := do
    let globs ← IgnoreRules.ofPatterns ignore
    let options : BuildOptions :=
      { ignored := fun p _ => globs.ignores p
        workers
        previous := if rebuild then none else t.cached? cache }
    let (index, report) ← t.build options now workspace
    let saved ← t.saveIndex cache index
    return (saved, Report.indexReport cache index report)
  match work with
  | .ok (saved, report) => .done saved (first ++ report)
  | .error f => .failed t first f

/-- Reports on the atlas of a workspace. -/
def runQuery (t : FileTree) (now : Timestamp) (workspace cache : Path)
    (report : Atlas → Except Failure (List Line)) : Outcome :=
  .ofReport t (t.currentAtlas now workspace cache >>= report)

/-- The definitions that a pattern names, with the calls around them. -/
def queryCalls (pattern : String) (depth : Nat) (reverse regex : Bool) (a : Atlas) :
    Except Failure (List Line) :=
  (a.calls.find pattern regex).map fun roots =>
    Report.callReport a.calls pattern roots depth reverse

/-- Runs a command. -/
def Invocation.run (i : Invocation) (t : FileTree) (now : Timestamp) : Outcome :=
  let workspace := i.workspace.getD (FileTree.pathOf t.current)
  let cache := t.cachePath workspace i.cache
  let query := runQuery t now workspace cache
  match i.command with
  | .index rebuild workers ignore => runIndex t now workspace cache rebuild workers ignore
  | .resolve unresolved limit =>
    query fun a => .ok (Report.resolveReport a.scopes unresolved limit)
  | .callgraph pattern depth reverse regex => query (queryCalls pattern depth reverse regex)
  | .dead entries => query fun a => .ok (Report.deadReport (a.calls.deadCandidates entries))
  | .stats => query fun a => .ok (Report.statsReport cache (t.cacheSize cache) a)

/-- Runs the program with its arguments. -/
def runArguments (t : FileTree) (now : Timestamp) (arguments : List String) : Outcome :=
  match Request.ofArguments arguments with
  | .run i => i.run t now
  | .version verb => .done t [.text (versionText verb)]
  | .help => .done t (usageText.map .text)
  | .unusable => ⟨2, [], usageText, t⟩

end SourceAtlas
