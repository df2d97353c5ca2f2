/-!
# Ranges of code points

A list of ranges is written as pairs of numbers, the distance from the end of the range before and
the length less one.

* **`Ranges.decode`**, `Ranges.contains`.
-/

namespace SourceAtlas.Text.Ranges

/-- Reads pairs of a distance and a length. -/
def place : List String → Nat → List (Nat × Nat)
  | [], _ => []
  | pair :: rest, last =>
    match pair.splitOn "+" with
    | [gap, length] =>
      let start := last + (gap.toNat?.getD 0)
      let stop := start + (length.toNat?.getD 0)
      (start, stop) :: place rest stop
    | _ => place rest last

/-- Reads the ranges from a text. -/
def decode (text : String) : List (Nat × Nat) := place (text.splitOn " ") 0

/-- Does one of the ranges hold a code point? -/
def contains (ranges : List (Nat × Nat)) (code : Nat) : Bool :=
  ranges.any fun (a, b) => a ≤ code && code ≤ b

end SourceAtlas.Text.Ranges
