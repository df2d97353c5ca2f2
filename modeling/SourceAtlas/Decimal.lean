/-!
# Decimals with a fixed number of places

Binary fractions are written exactly rounded: the nearest decimal of the wanted length, a tie going
to the even neighbour.

* `roundDiv`: a quotient rounded to the nearest integer;
* `binaryParts`: a number as `m · 2 ^ e / 2 ^ d`;
* **`fixed`**: a number with a fixed number of places.
-/

namespace SourceAtlas.Decimal

/-- The integer nearest to `num / den`, a tie going to the even neighbour. -/
def roundDiv (num den : Nat) : Nat :=
  let q := num / den
  let r := num % den
  if 2 * r < den then q
  else if den < 2 * r then q + 1
  else if q % 2 = 0 then q else q + 1

/-- A finite number that is not negative, as numerator and denominator. -/
def binaryParts (x : Float) : Nat × Nat :=
  let bits := x.toBits.toNat
  let exponent := bits / Nat.pow 2 52 % Nat.pow 2 11
  let fraction := bits % Nat.pow 2 52
  let mantissa := if exponent = 0 then fraction else Nat.pow 2 52 + fraction
  let scale := max exponent 1
  if 1075 ≤ scale then (mantissa * Nat.pow 2 (scale - 1075), 1)
  else (mantissa, Nat.pow 2 (1075 - scale))

/-- The digits of a number with zeros in front up to the wanted width. -/
def padded (width n : Nat) : String :=
  let digits := toString n
  String.ofList (List.replicate (width - digits.length) '0') ++ digits

/-- A number that is not negative, with `places` digits after the point. -/
def fixed (places : Nat) (x : Float) : String :=
  let (num, den) := binaryParts x
  let unit := Nat.pow 10 places
  let scaled := roundDiv (num * unit) den
  s!"{scaled / unit}." ++ padded places (scaled % unit)

end SourceAtlas.Decimal
