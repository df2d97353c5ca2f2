import SourceAtlas.Syntax.Token
import SourceAtlas.Syntax.Tree

/-!
# Spots

A spot is a node together with where it lies in its source and the text it covers.

* `Lines`: the offsets at which the lines of a source start, `Lines.lineBetween`, `Lines.position`;
* `Spot`, **`Spot.ofTree`**.
-/

namespace SourceAtlas

/-- The offsets at which the lines of a source start. -/
structure Lines where
  starts : Array Nat

namespace Lines

/-- The line starts of a source. -/
def ofBytes (b : ByteArray) : Lines :=
  ⟨(List.range b.size).foldl
    (fun starts i => if Scan.byteAt b i == 10 then starts.push (i + 1) else starts) #[0]⟩

/-- The last line from `low` on, before `high`, that starts no later than an offset; `low` if there
is none. -/
def lineBetween (l : Lines) (offset low high : Nat) : Nat :=
  if low + 1 < high then
    if l.starts.getD ((low + high) / 2) 0 ≤ offset then
      lineBetween l offset ((low + high) / 2) high
    else lineBetween l offset low ((low + high) / 2)
  else low
termination_by high - low

/-- The line and column of an offset, both counted from one. -/
def position (l : Lines) (offset : Nat) : UInt32 × UInt32 :=
  let line := l.lineBetween offset 0 l.starts.size
  ((line + 1).toUInt32, (offset - l.starts.getD line 0 + 1).toUInt32)

end Lines

/-- A node, where it lies and what it covers. -/
structure Spot where
  id : Nat
  /-- The offset of the first byte. -/
  start : Nat
  /-- The offset after the last byte. -/
  stop : Nat
  startLine : UInt32
  startColumn : UInt32
  endLine : UInt32
  endColumn : UInt32
  /-- The text, if the bytes are one. -/
  text : Option String
deriving DecidableEq, Repr, Inhabited

/-- The spot of a node. -/
def Spot.ofTree (b : ByteArray) (lines : Lines) (t : Tree) : Spot :=
  let (startLine, startColumn) := lines.position t.start
  let (endLine, endColumn) := lines.position t.stop
  ⟨t.id, t.start, t.stop, startLine, startColumn, endLine, endColumn,
    String.fromUTF8? (b.extract t.start t.stop)⟩

end SourceAtlas
