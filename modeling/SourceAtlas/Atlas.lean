import SourceAtlas.Build
import SourceAtlas.CallGraph.Graph
import SourceAtlas.FileTree.Change
import SourceAtlas.Scope.Source
import SourceAtlas.Snapshot

/-!
# Atlases and workspaces

An atlas is an index together with the scope graph and the call graph that follow from it. A
workspace keeps the atlas of a directory and replaces it as a whole: whoever holds an earlier atlas
keeps it, and a rebuild that fails changes nothing.

* `FileTree.saveIndex`, `FileTree.loadIndex`: indexes in files;
* `FileTree.scopes`, `Atlas`, **`FileTree.atlas`**;
* `Workspace`, `Workspace.openAt`, **`Workspace.rebuild`**.
-/

namespace SourceAtlas

namespace FileTree

/-- Writes an index to a file and makes the directories that it lies in. -/
def saveIndex (t : FileTree) (p : Path) (i : Index) : Except Failure FileTree :=
  let saved := do
    let t ← t.makeParents p
    t.write p ⟨(Snapshot.save i).toUTF8, 0, true⟩
  saved.mapError fun e => .io e.message

/-- Reads an index from a file. -/
def loadIndex (t : FileTree) (p : Path) : Except Failure Index :=
  match t.read p with
  | .ok content => Snapshot.loadBytes content
  | .error .isDirectory => .error .snapshot
  | .error e => .error (.io e.message)

/-- The scope graph of an index, whose files are read as they are now. A file that cannot be read
any more counts as empty. -/
def scopes (t : FileTree) (i : Index) : ScopeGraph :=
  .ofSources <| i.files.map fun s => ⟨s.path, s.language, (t.read (i.root.join s.path)).toOption⟩

end FileTree

/-- An index and what follows from it. -/
structure Atlas where
  index : Index
  scopes : ScopeGraph
  calls : CallGraph

/-- The atlas of an index. -/
def FileTree.atlas (t : FileTree) (i : Index) : Atlas := ⟨i, t.scopes i, .build i⟩

/-- A directory with its atlas. -/
structure Workspace where
  root : Path
  options : BuildOptions
  atlas : Atlas
  /-- How many atlases have been replaced. -/
  version : Nat

namespace Workspace

/-- Opens a workspace. -/
def openAt (t : FileTree) (o : BuildOptions) (now : Timestamp) (root : Path) :
    Except Failure Workspace := do
  let (index, _) ← t.build o now root
  return ⟨root, o, t.atlas index, 0⟩

/-- Builds the atlas anew from the files as they are and takes over what did not change. -/
def rebuild (w : Workspace) (t : FileTree) (now : Timestamp) :
    Except Failure (Workspace × BuildReport) := do
  let (index, report) ← t.build { w.options with previous := some w.atlas.index } now w.root
  return ({ w with atlas := t.atlas index, version := w.version + 1 }, report)

end Workspace

end SourceAtlas
