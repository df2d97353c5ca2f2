import SourceAtlas.Command.Run
import Std.Time.DateTime.Timestamp

/-!
# The program

The directories that a command works on are read into a file tree. The command runs on the tree, and
an index that it saved there is written back.

* `readEntry`, `readWorkspace`, `readCache`: from the disk into a tree;
* `main`.
-/

namespace SourceAtlas

/-- Reads what stands under a name of a directory of the disk. Only sources are read, and
directories below the root of a walk that it passes by are taken as empty. As walks do not follow
links, a link leads to itself. -/
partial def readEntry (isRoot : Bool) (place name : String) : IO Entry := do
  let file := IO.FS.DirEntry.path ⟨place, name⟩
  let info ← file.symlinkMetadata
  match info.type with
  | .symlink => return .link ⟨file.toString⟩
  | .dir =>
    if !isRoot && isPassedBy name then return .directory []
    try
      let mut entries : Listing := []
      for e in ← file.readDir do
        entries := (e.fileName, ← readEntry false file.toString e.fileName) :: entries
      return .directory entries
    catch _ => return .closed
  | _ =>
    let modified := info.modified.sec * 1000000000 + info.modified.nsec.toNat
    if (Language.ofPath? ⟨name⟩).isNone then return .file ⟨ByteArray.empty, modified, true⟩
    try
      return .file ⟨← IO.FS.readBinFile file, modified, true⟩
    catch _ => return .file ⟨ByteArray.empty, modified, false⟩

/-- The names on a path that starts at the root. -/
def namesOf (text : String) : List String := (Path.segments ⟨text⟩).filter (· ≠ "")

/-- Puts an entry at a list of names, below directories that are made for it. -/
def mount (t : FileTree) (names : List String) (e : Entry) : FileTree :=
  match names.getLast? with
  | none => match e with
    | .directory entries => { t with entries }
    | _ => t
  | some name =>
    let above := names.dropLast
    let t := (t.makeDirectories (FileTree.pathOf above)).toOption.getD t
    t.put above name e

/-- Puts a link at a path that does not lead to a place of its own accord. -/
def mountLink (t : FileTree) (path : Path) (target : List String) : FileTree :=
  if (t.locate path).toOption = some target then t
  else
    mount t (namesOf ((FileTree.pathOf t.current).join path).text)
      (.link (FileTree.pathOf target))

/-- Reads the workspace into a tree, if it exists. -/
def readWorkspace (t : FileTree) (workspace : Path) : IO FileTree := do
  try
    let names := namesOf (← IO.FS.realPath workspace.text).toString
    match names.getLast? with
    | none => return t
    | some name =>
      let above := (FileTree.pathOf names.dropLast).text
      return mountLink (mount t names (← readEntry true above name)) workspace names
  catch _ => return t

/-- Reads the cache into a tree, if it exists. -/
def readCache (t : FileTree) (cache : Path) : IO FileTree := do
  try
    let content ← IO.FS.readBinFile cache.text
    return ((t.makeParents cache).bind (·.write cache ⟨content, 0, true⟩)).toOption.getD t
  catch _ => return t

/-- Writes an index that a command saved. -/
def writeCache (o : Outcome) (cache : Path) : IO Unit := do
  if let .ok content := o.tree.read cache then
    if let some above := cache.parent then
      if above.text ≠ "" then IO.FS.createDirAll above.text
    IO.FS.writeBinFile cache.text content

/-- Runs a command on the disk. -/
def runOnDisk (i : Invocation) (arguments : List String) : IO Outcome := do
  let here := namesOf (← IO.currentDir).toString
  let empty : FileTree := ⟨[], here⟩
  let t := (empty.makeDirectories (FileTree.pathOf here)).toOption.getD empty
  let workspace := i.workspace.getD (FileTree.pathOf here)
  let t ← readWorkspace t workspace
  let cache := t.cachePath workspace i.cache
  let t ← readCache t cache
  let now ← Std.Time.Timestamp.now
  let o := runArguments t (.ofNanos now.toNanosecondsSinceUnixEpoch.val) arguments
  match i.command with
  | .index _ _ _ =>
    if o.status ≠ 0 then return o
    try
      writeCache o cache
      return o
    catch e => return .failed t (o.output.take 1) (.io (toString e))
  | _ => return o

end SourceAtlas

open SourceAtlas in
/-- Runs the program with the arguments of the command line. -/
def main (arguments : List String) : IO UInt32 := do
  let started ← IO.monoNanosNow
  let o ← match Request.ofArguments arguments with
    | .run i => runOnDisk i arguments
    | _ => pure (runArguments ⟨[], []⟩ default arguments)
  let elapsed := Report.durationText ((← IO.monoNanosNow) - started)
  for line in o.output do
    IO.println (line.render elapsed)
  for line in o.errors do
    IO.eprintln line
  return o.status
