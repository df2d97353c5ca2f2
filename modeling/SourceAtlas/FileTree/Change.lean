import SourceAtlas.FileTree.Basic

/-!
# Changing file trees

* `FileTree.makeDirectory`, **`FileTree.makeDirectories`**: a directory, and those it lies in;
* **`FileTree.write`**: a file, new or in the place of another;
* `FileTree.addLink`, `FileTree.remove`.
-/

namespace SourceAtlas

/-- The path and the paths above it, in no more than `n` steps up. -/
def Path.ancestors : Nat → Path → List Path
  | 0, p => [p]
  | n + 1, p =>
    match p.parent with
    | some q => p :: ancestors n q
    | none => [p]

namespace FileTree

/-- Splits the steps of a path into those that lead to a directory and the last one. Separators at
the end do not count as a step. -/
def lastStep (steps : List String) : List String × String :=
  let steps := (steps.reverse.dropWhile (· = "")).reverse
  (steps.dropLast, steps.getLast?.getD "")

/-- Does a step stay in the directories there are? -/
def isDotStep (step : String) : Bool := step = "" || step = "." || step = ".."

/-- Puts an entry under a name into a directory. -/
def put (t : FileTree) (directory : List String) (name : String) (e : Entry) : FileTree :=
  { t with entries := t.entries.change (Listing.put name e) directory }

/-- Makes a directory. -/
def makeDirectory (t : FileTree) (p : Path) : Except FileError FileTree := do
  let (above, name) := lastStep p.segments
  if isDotStep name then
    let _ ← t.locate p
    throw .taken
  let directory ← t.follow false maxLinks (t.start p) (above ++ ["."])
  match t.get? (directory ++ [name]) with
  | some _ => throw .taken
  | none => return t.put directory name (.directory [])

/-- Makes the first directory of a list, which the others lie above of, from the outside in. -/
def makeAll (t : FileTree) : List Path → Except FileError FileTree
  | [] => .error .missing
  | p :: above =>
    if p.text = "" then .ok t
    else
      match t.makeDirectory p with
      | .ok made => .ok made
      | .error .missing => do
        let outer ← t.makeAll above
        match outer.makeDirectory p with
        | .ok made => return made
        | .error e => if outer.isDirectory p then return outer else throw e
      | .error e => if t.isDirectory p then .ok t else .error e

/-- Makes a directory and those that it lies in, as far as there are none. -/
def makeDirectories (t : FileTree) (p : Path) : Except FileError FileTree :=
  t.makeAll (p.ancestors p.segments.length)

/-- The directory and the name under which the file of a path is or would be, through no more than
`links` links. -/
def filePlace (t : FileTree) (links : Nat) (here steps : List String) :
    Except FileError (List String × String) :=
  match steps.getLast? with
  | none => .error .missing
  | some name =>
    if isDotStep name then
      match t.follow false links here steps with
      | .ok _ => .error .isDirectory
      | .error .missing => .error .isDirectory
      | .error e => .error e
    else
      match t.follow false links here (steps.dropLast ++ ["."]) with
      | .error e => .error e
      | .ok directory =>
        match t.get? (directory ++ [name]) with
        | none | some (.file _) => .ok (directory, name)
        | some (.directory _) | some .closed => .error .isDirectory
        | some (.link target) =>
          match links with
          | 0 => .error .tooManyLinks
          | left + 1 =>
            filePlace t left (if target.isRooted then [] else directory) target.segments

/-- Writes a file, in the place of the one that is there. -/
def write (t : FileTree) (p : Path) (f : StoredFile) : Except FileError FileTree := do
  let (directory, name) ← t.filePlace maxLinks (t.start p) p.segments
  return t.put directory name (.file f)

/-- Makes the directories that a path lies in. -/
def makeParents (t : FileTree) (p : Path) : Except FileError FileTree :=
  match p.parent with
  | some above => if above.text = "" then .ok t else t.makeDirectories above
  | none => .ok t

/-- Puts a link at a path. -/
def addLink (t : FileTree) (p target : Path) : Except FileError FileTree := do
  let (above, name) := lastStep p.segments
  if isDotStep name then throw .taken
  let directory ← t.follow false maxLinks (t.start p) (above ++ ["."])
  match t.get? (directory ++ [name]) with
  | some _ => throw .taken
  | none => return t.put directory name (.link target)

/-- Removes what stands at a path with all that is below it. A link goes and its target stays. -/
def remove (t : FileTree) (p : Path) : Except FileError FileTree := do
  let (steps, last) := lastStep p.segments
  let names ← t.follow true maxLinks (t.start p) (steps ++ [last])
  match names.getLast? with
  | some name => return { t with entries := t.entries.change (Listing.erase name) names.dropLast }
  | none => throw .denied

end FileTree

end SourceAtlas
