import SourceAtlas.FileTree.Basic
import SourceAtlas.Language

/-!
# Walks through directories

A walk finds the files of a directory and of those below it whose language is known. Hidden
directories and those of vendored dependencies are passed by, and so is what is ignored. Links are
not followed.

* `Ignore`: the paths that are left out;
* `Candidate`, `Finding`;
* **`Finding.ofListing`**: what a walk through a directory finds;
* `Finding.candidates`: the files, in the order of their paths.
-/

namespace SourceAtlas

/-- Is a path below the root left out? The second argument tells whether it is a directory. -/
abbrev Ignore := Path → Bool → Bool

/-- A file that can be summarized. -/
structure Candidate where
  /-- The path below the root of the walk. -/
  path : Path
  language : Language
  file : StoredFile
deriving DecidableEq, Inhabited

/-- What a walk comes upon. -/
inductive Finding where
  | candidate (c : Candidate)
  /-- A directory that cannot be listed. -/
  | skipped (path : Path)
deriving DecidableEq

/-- The names of directories that hold vendored dependencies. -/
def vendorNames : List String := ["vendor", "node_modules", "__pycache__"]

/-- Is a directory passed by for its name? -/
def isPassedBy (name : String) : Bool := name.startsWith "." || vendorNames.contains name

namespace Finding

mutual

/-- What a walk finds at an entry of a directory. -/
def ofEntry (ignored : Ignore) (path : Path) (name : String) : Entry → List Finding
  | .file f =>
    match Language.ofPath? path with
    | some language => if ignored path false then [] else [.candidate ⟨path, language, f⟩]
    | none => []
  | .link _ => []
  | .directory entries =>
    if isPassedBy name || ignored path true then [] else ofListing ignored path entries
  | .closed => if isPassedBy name || ignored path true then [] else [.skipped path]

/-- What a walk finds in a directory with a path. -/
def ofListing (ignored : Ignore) (directory : Path) : List (String × Entry) → List Finding
  | [] => []
  | e :: rest => ofNamed ignored directory e ++ ofListing ignored directory rest

/-- What a walk finds under a name of a directory. -/
def ofNamed (ignored : Ignore) (directory : Path) : String × Entry → List Finding
  | (name, e) => ofEntry ignored (directory.join ⟨name⟩) name e

end

/-- The file, if it is one. -/
def candidate? : Finding → Option Candidate
  | .candidate c => some c
  | .skipped _ => none

/-- The directory that cannot be listed, if it is one. -/
def skipped? : Finding → Option Path
  | .candidate _ => none
  | .skipped p => some p

/-- The files among some findings, in the order of their paths. -/
def candidates (found : List Finding) : List Candidate :=
  (found.filterMap candidate?).mergeSort fun a b => a.path.le b.path

end Finding

end SourceAtlas
