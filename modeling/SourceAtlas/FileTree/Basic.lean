import SourceAtlas.Path

/-!
# File trees

A file tree holds directories, files and links to other paths, and the directory from which relative
paths are followed.

* `FileError`: why a path cannot be used;
* `StoredFile`, `Entry`, `FileTree`;
* `FileTree.get?`: what stands at a list of names;
* **`FileTree.locate`**: the place of a path, through all links;
* `FileTree.entry`, `FileTree.read`.
-/

namespace SourceAtlas

/-- Why a path cannot be used. -/
inductive FileError where
  | missing
  | denied
  | taken
  | notDirectory
  | isDirectory
  | tooManyLinks
deriving DecidableEq, Repr, Inhabited

/-- The wording of an error. -/
def FileError.message : FileError → String
  | .missing => "No such file or directory (os error 2)"
  | .denied => "Permission denied (os error 13)"
  | .taken => "File exists (os error 17)"
  | .notDirectory => "Not a directory (os error 20)"
  | .isDirectory => "Is a directory (os error 21)"
  | .tooManyLinks => "Too many levels of symbolic links (os error 40)"

/-- A file. -/
structure StoredFile where
  content : ByteArray
  /-- When the file was last changed, in nanoseconds since the first of January 1970. -/
  modified : Int
  isReadable : Bool := true
deriving Inhabited

instance : DecidableEq StoredFile := fun a b =>
  decidable_of_iff (a.content.data = b.content.data ∧ a.modified = b.modified ∧
      a.isReadable = b.isReadable) <| by
    cases a
    cases b
    simp [ByteArray.ext_iff]

/-- What a directory holds under a name. -/
inductive Entry where
  | file (f : StoredFile)
  | link (target : Path)
  | directory (entries : List (String × Entry))
  /-- A directory whose names cannot be listed. -/
  | closed
deriving Inhabited

/-- The entries of a directory with their names. -/
abbrev Listing := List (String × Entry)

namespace Listing

/-- The entry under a name. -/
def find? (l : Listing) (name : String) : Option Entry := l.lookup name

/-- Puts an entry under a name, in the place of the one that has it. -/
def put (name : String) (e : Entry) : Listing → Listing
  | [] => [(name, e)]
  | (n, old) :: rest => if n = name then (n, e) :: rest else (n, old) :: put name e rest

/-- Without the entry under a name. -/
def erase (name : String) (l : Listing) : Listing := l.filter (·.1 ≠ name)

/-- The entry at a list of names. -/
def get? (l : Listing) : List String → Option Entry
  | [] => some (.directory l)
  | name :: names =>
    match find? l name with
    | some (.directory entries) => get? entries names
    | some e => if names.isEmpty then some e else none
    | none => none

/-- Changes the directory at a list of names. -/
def change (f : Listing → Listing) (l : Listing) : List String → Listing
  | [] => f l
  | name :: names =>
    match find? l name with
    | some (.directory entries) => put name (.directory (change f entries names)) l
    | _ => l

end Listing

/-- A tree of files. -/
structure FileTree where
  /-- What stands at the root. -/
  entries : Listing
  /-- The directory from which relative paths are followed. -/
  current : List String
deriving Inhabited

namespace FileTree

/-- What stands at a list of names below the root. -/
def get? (t : FileTree) (names : List String) : Option Entry := t.entries.get? names

/-- The path of a list of names below the root. -/
def pathOf (names : List String) : Path := ⟨"/" ++ "/".intercalate names⟩

/-- Follows the steps of a path from a directory, through no more than `links` links. A link in the
last step is not followed if `keepsLast` is set. -/
def follow (t : FileTree) (keepsLast : Bool) (links : Nat) (here steps : List String) :
    Except FileError (List String) :=
  match steps with
  | [] => .ok here
  | step :: rest =>
    if step = "" || step = "." then follow t keepsLast links here rest
    else if step = ".." then follow t keepsLast links here.dropLast rest
    else
      match t.get? (here ++ [step]) with
      | none => .error .missing
      | some (.directory _) | some .closed => follow t keepsLast links (here ++ [step]) rest
      | some (.file _) => if rest.isEmpty then .ok (here ++ [step]) else .error .notDirectory
      | some (.link target) =>
        if rest.isEmpty && keepsLast then .ok (here ++ [step])
        else
          match links with
          | 0 => .error .tooManyLinks
          | left + 1 =>
            follow t keepsLast left (if target.isRooted then [] else here) (target.segments ++ rest)
termination_by (links, steps.length)

/-- How many links a path may lead through. -/
def maxLinks : Nat := 40

/-- The directory from which a path is followed. -/
def start (t : FileTree) (p : Path) : List String := if p.isRooted then [] else t.current

/-- The place of a path: the names that lead to it without links. -/
def locate (t : FileTree) (p : Path) : Except FileError (List String) :=
  if p.text = "" then .error .missing else t.follow false maxLinks (t.start p) p.segments

/-- What stands at a path. -/
def entry (t : FileTree) (p : Path) : Except FileError Entry :=
  match t.locate p with
  | .ok names =>
    match t.get? names with
    | some e => .ok e
    | none => .error .missing
  | .error e => .error e

/-- Is there a file at a path? -/
def isFile (t : FileTree) (p : Path) : Bool :=
  match t.entry p with
  | .ok (.file _) => true
  | _ => false

/-- Is there a directory at a path? -/
def isDirectory (t : FileTree) (p : Path) : Bool :=
  match t.entry p with
  | .ok (.directory _) | .ok .closed => true
  | _ => false

/-- The bytes of the file at a path. -/
def read (t : FileTree) (p : Path) : Except FileError ByteArray :=
  match t.entry p with
  | .ok (.file f) => if f.isReadable then .ok f.content else .error .denied
  | .ok _ => .error .isDirectory
  | .error e => .error e

/-- The room that a directory takes up itself. -/
def directorySize : Nat := 4096

/-- The size of what stands at a path. -/
def size (t : FileTree) (p : Path) : Except FileError Nat :=
  match t.entry p with
  | .ok (.file f) => .ok f.content.size
  | .ok _ => .ok directorySize
  | .error e => .error e

end FileTree

end SourceAtlas
