import SourceAtlas.Text.Blank

/-!
# Paths

A path is kept as it was written and compared by its components: repeated and trailing separators
and inner `.` components do not count, a leading `.` does. The text of a path is a string, so paths
whose bytes are not UTF-8 are left out.

* `Component`, `Path.components`, `Path.same`, `Path.compare`;
* `Path.fileName`, `Path.parent`, `Path.extension`;
* `Path.join`, `Path.withExtension`, `Path.ofSegments`.
-/

namespace SourceAtlas

/-- One step of a path. The order of the constructors is the order of paths. -/
inductive Component where
  | root
  | here
  | up
  | name (text : String)
deriving DecidableEq, Repr, Ord

/-- A path as it was written. -/
structure Path where
  text : String
deriving DecidableEq, Repr, Inhabited, Hashable

namespace Path

/-- The pieces of a path's text between separators. -/
def segments (p : Path) : List String := Text.splitBy (· == '/') p.text

/-- Does the path start at the root? -/
def isRooted (p : Path) : Bool := p.text.toList.head? == some '/'

/-- The component that a piece of text stands for, unless it is empty or `.`. -/
def component? (segment : String) : Option Component :=
  if segment = "" then none
  else if segment = "." then none
  else if segment = ".." then some .up
  else some (.name segment)

/-- The steps of a path. -/
def components (p : Path) : List Component :=
  let lead : List Component :=
    if p.isRooted then [.root] else if p.segments.head? = some "." then [.here] else []
  lead ++ p.segments.filterMap component?

/-- Two spellings of one path. -/
def same (p q : Path) : Bool := p.components == q.components

/-- Paths are ordered by their components. -/
def compare (p q : Path) : Ordering := Ord.compare p.components q.components

/-- Does `p` come before `q`, or is it the same? -/
def le (p q : Path) : Bool := p.compare q != .gt

/-- Drops the pieces at the end that stand for no component. -/
def trimTrailing (rooted : Bool) (segments : List String) : List String :=
  (go segments.reverse).reverse
where
  /-- Works on the pieces from the last to the first. -/
  go : List String → List String
    | [] => []
    | [s] => if s = "" || (s = "." && rooted) then [] else [s]
    | s :: rest => if s = "" || s = "." then go rest else s :: rest

/-- The pieces of the text up to the last component. -/
def significant (p : Path) : List String := trimTrailing p.isRooted p.segments

/-- The last component, if it is a name. -/
def fileName (p : Path) : Option String :=
  match p.significant.getLast? with
  | some s => if s = "." || s = ".." then none else some s
  | none => none

/-- The path without its last component; the root and the empty path have none. -/
def parent (p : Path) : Option Path :=
  match p.significant with
  | [] => none
  | segs =>
    let rest := trimTrailing p.isRooted segs.dropLast
    some ⟨if rest.isEmpty then (if p.isRooted then "/" else "") else "/".intercalate rest⟩

/-- A file name up to its last dot and what follows the dot; a name has no extension if its only
dot comes first. -/
def splitName (name : String) : String × Option String :=
  if name = ".." then (name, none)
  else
    match (Text.splitBy (· == '.') name).reverse with
    | [] => (name, none)
    | [_] => (name, none)
    | ext :: stem =>
      let stem := ".".intercalate stem.reverse
      if stem = "" then (name, none) else (stem, some ext)

/-- What follows the last dot of the file name. -/
def extension (p : Path) : Option String := p.fileName.bind fun name => (splitName name).2

/-- Appends a path to another; an absolute path replaces it. An empty path adds a separator to a
path that does not end in one. -/
def join (p q : Path) : Path :=
  if q.isRooted then q
  else if p.text = "" || p.text.toList.getLast? = some '/' then ⟨p.text ++ q.text⟩
  else ⟨p.text ++ "/" ++ q.text⟩

/-- Joins the segments one after the other. -/
def ofSegments (segments : List String) : Path :=
  segments.foldl (fun p s => p.join ⟨s⟩) ⟨""⟩

/-- Replaces the extension of the file name; a path without a file name stays as it is. -/
def withExtension (p : Path) (ext : String) : Path :=
  match p.fileName with
  | none => p
  | some name =>
    let stem := (splitName name).1
    let name := if ext = "" then stem else stem ++ "." ++ ext
    ⟨"/".intercalate (p.significant.dropLast ++ [name])⟩

end Path

end SourceAtlas
