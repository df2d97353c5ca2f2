/-!
# Edits between two buffers

Two versions of a buffer differ by one contiguous edit: the bytes between their longest common
prefix and the longest common suffix of what remains.

* `Point`, `pointAt`: the row and column of a byte offset;
* `Edit`, **`Edit.between`**: the smallest single edit that separates two buffers;
* `Edit.located`: an edit together with the points of its ends.
-/

namespace SourceAtlas

/-- A row and a column, both counted from zero; columns count bytes. -/
structure Point where
  row : Nat
  column : Nat
deriving DecidableEq, Repr, Inhabited

/-- A buffer's contents. -/
abbrev Bytes := List UInt8

/-- The byte that ends a line. -/
def newline : UInt8 := 10

/-- The point reached after reading the bytes `before`. -/
def pointAfter (before : Bytes) : Point where
  row := before.count newline
  column := (before.reverse.takeWhile (· != newline)).length

/-- The row and column of a byte offset; an offset past the end stands for the end. -/
def pointAt (content : Bytes) (offset : Nat) : Point := pointAfter (content.take offset)

/-- The replacement of the bytes from `start` to `oldEnd` of one buffer by the bytes from `start`
to `newEnd` of another. -/
structure Edit where
  start : Nat
  oldEnd : Nat
  newEnd : Nat
deriving DecidableEq, Repr

/-- The number of leading elements on which two lists agree. -/
def commonPrefix {α : Type} [DecidableEq α] : List α → List α → Nat
  | a :: as, b :: bs => if a = b then commonPrefix as bs + 1 else 0
  | _, _ => 0

namespace Edit

/-- The edit that separates two buffers, if they differ. The suffix is measured only over the bytes
after the prefix, so that the two never overlap. -/
def between (old new : Bytes) : Option Edit :=
  if old = new then none
  else
    let shared := commonPrefix old new
    let tail := commonPrefix (old.drop shared).reverse (new.drop shared).reverse
    some ⟨shared, old.length - tail, new.length - tail⟩

/-- The points of an edit's start, old end and new end. The first two are measured in the old
buffer and the last one in the new. -/
structure Located where
  start : Point
  oldEnd : Point
  newEnd : Point
deriving DecidableEq, Repr

/-- Where an edit lies in the two buffers. -/
def located (e : Edit) (old new : Bytes) : Located where
  start := pointAt old e.start
  oldEnd := pointAt old e.oldEnd
  newEnd := pointAt new e.newEnd

end Edit

end SourceAtlas
