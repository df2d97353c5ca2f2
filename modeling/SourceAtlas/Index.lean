import SourceAtlas.Problem
import SourceAtlas.Summary
import SourceAtlas.Timestamp

/-!
# Indexes

An index holds the summaries of the files below a root, ordered by path, and the problems with the
files that could not be summarized.

* `Index`, `Index.assemble`;
* `Index.symbols`, `Index.references`, `Index.isClean`;
* **`Index.file?`**: the summary of a path, found by halving.
-/

namespace SourceAtlas

/-- The summaries of the files below a root. -/
structure Index where
  schemaVersion : UInt32
  root : Path
  /-- When the index was made. -/
  generatedAt : Timestamp
  files : List Summary
  problems : List Problem
deriving DecidableEq, Repr

namespace Index

/-- The version of the snapshots that can be read and written. -/
def currentSchema : UInt32 := 1

/-- The index of summaries and problems, which are ordered by path. -/
def assemble (root : Path) (generatedAt : Timestamp) (files : List Summary)
    (problems : List Problem) : Index where
  schemaVersion := currentSchema
  root
  generatedAt
  files := files.mergeSort fun a b => a.path.le b.path
  problems := problems.mergeSort fun a b => a.path.le b.path

/-- Every symbol, file by file. -/
def symbols (i : Index) : List Symbol := i.files.flatMap (·.symbols)

/-- Every reference, file by file. -/
def references (i : Index) : List Reference := i.files.flatMap (·.references)

/-- Were all files summarized? -/
def isClean (i : Index) : Bool := i.problems.isEmpty

/-- Looks for a path in `size` summaries from `base` on, halving their number in every step, and
gives the position that is left. -/
def search (files : Array Summary) (path : Path) (base size : Nat) : Nat :=
  if size ≤ 1 then base
  else
    let half := size / 2
    let mid := base + half
    let next :=
      match files[mid]? with
      | some f => if f.path.le path then mid else base
      | none => base
    search files path next (size - half)
termination_by size

/-- The summary of a path. -/
def file? (i : Index) (path : Path) : Option Summary :=
  let files := i.files.toArray
  match files[search files path 0 files.size]? with
  | some f => if f.path.same path then some f else none
  | none => none

end Index

end SourceAtlas
