import Mathlib.Algebra.Group.Nat.Defs
import Mathlib.Data.List.TakeWhile
import Mathlib.Tactic.Common
import SourceAtlas.Timestamp

/-!
# Times are read as they were printed

A printed time is read back as the same time, down to its nanoseconds, if its year has four digits.

* `Timestamp.ofDigitChars_padded`, `Timestamp.readNumber_padded`: numbers of a fixed width;
* `Timestamp.readYear_print`, `Timestamp.readField_padded`, `Timestamp.readFraction_print`: the
  parts of a time;
* **`Timestamp.parse_print`**.
-/

namespace SourceAtlas

namespace Timestamp

variable {c : Char} {rest : List Char} {n width : Nat}

/-! ## Digits -/

theorem isBlank_of_isDigit (hc : c.isDigit = true) : Text.isBlank c = false := by
  have hrange : 48 ≤ c.toNat ∧ c.toNat ≤ 57 := by
    simpa [Char.isDigit, UInt32.le_iff_toNat_le] using hc
  simp only [Text.isBlank, Bool.or_eq_false_iff, Bool.and_eq_false_iff, beq_eq_false_iff_ne,
    decide_eq_false_iff_not]
  omega

theorem digit_ofNat : ∀ d < 10, (Char.ofNat (48 + d)).isDigit = true ∧
    (Char.ofNat (48 + d)).toNat - 48 = d := by decide

@[simp] theorem length_padded (width n : Nat) : (padded width n).length = width := by
  induction width generalizing n with
  | zero => rfl
  | succ width ih => simp [padded, ih]

theorem isDigit_of_mem_padded (hc : c ∈ padded width n) : c.isDigit = true := by
  induction width generalizing n with
  | zero => cases hc
  | succ width ih =>
    rw [padded, List.mem_append, List.mem_singleton] at hc
    rcases hc with hc | rfl
    · exact ih hc
    · exact (digit_ofNat (n % 10) (by omega)).1

theorem ofDigitChars_padded (hn : n < 10 ^ width) : Nat.ofDigitChars 10 (padded width n) 0 = n := by
  induction width generalizing n with
  | zero =>
    rw [padded, Nat.ofDigitChars_nil]
    omega
  | succ width ih =>
    rw [pow_succ] at hn
    rw [padded, Nat.ofDigitChars_append, ih (by omega), Nat.ofDigitChars_cons,
      Nat.ofDigitChars_nil]
    have hlast := (digit_ofNat (n % 10) (by omega)).2
    have hzero : '0'.toNat = 48 := rfl
    omega

theorem exists_padded (hwidth : 0 < width) (n : Nat) :
    ∃ c cs, padded width n = c :: cs ∧ c.isDigit = true := by
  cases h : padded width n with
  | nil =>
    have hlength := length_padded width n
    rw [h, List.length_nil] at hlength
    omega
  | cons c cs => exact ⟨c, cs, rfl, isDigit_of_mem_padded (h ▸ List.mem_cons_self)⟩

theorem trimStart_padded (hwidth : 0 < width) (n : Nat) (rest : List Char) :
    Text.trimStart (padded width n ++ rest) = padded width n ++ rest := by
  obtain ⟨c, cs, hcs, hc⟩ := exists_padded hwidth n
  rw [hcs, List.cons_append, Text.trimStart,
    List.dropWhile_cons_of_neg (by simp [isBlank_of_isDigit hc])]

/-! ## The parts of a time -/

theorem readNumber_padded (hwidth : 0 < width) (hn : n < 10 ^ width) :
    readNumber width (padded width n ++ rest) = some (n, rest) := by
  have htake : (padded width n ++ rest).take width = padded width n :=
    List.take_left' (length_padded width n)
  have hdigits : (padded width n).takeWhile Char.isDigit = padded width n :=
    List.takeWhile_eq_self_iff.mpr fun c hc => isDigit_of_mem_padded hc
  obtain ⟨c, cs, hcs, -⟩ := exists_padded hwidth n
  have hfull : (padded width n).isEmpty = false := by rw [hcs]; rfl
  simp only [readNumber, htake, hdigits, hfull, ofDigitChars_padded hn]
  simp

theorem readField_padded (hn : n < 100) : readField (padded 2 n ++ rest) = some (n, rest) := by
  rw [readField, trimStart_padded (by omega), readNumber_padded (by omega) (by omega)]

theorem readYear_print {year : Int} (hlow : 0 ≤ year) (hhigh : year ≤ 9999) :
    readYear (printYear year ++ rest) = some (year, rest) := by
  obtain ⟨n, rfl⟩ := Int.eq_ofNat_of_zero_le hlow
  rw [printYear, if_pos ⟨hlow, hhigh⟩, Int.toNat_natCast]
  have hread : readNumber 4 (padded 4 n ++ rest) = some (n, rest) :=
    readNumber_padded (by omega) (by omega)
  -- the first digit is no sign
  obtain ⟨c, cs, hcs, hc⟩ : ∃ c cs, padded 4 n = c :: cs ∧ c.isDigit = true :=
    exists_padded (by omega) n
  rw [readYear, trimStart_padded (by omega)]
  split
  · simp_all
  · simp_all
  · rw [hread]
    rfl

theorem readMark_cons (hc : Text.isBlank c = false) : readMark c (c :: rest) = some rest := by
  rw [readMark, Text.trimStart, List.dropWhile_cons_of_neg (by simp [hc])]
  simp

theorem readFraction_padded (hwidth : 0 < width) (hmost : width ≤ 9) (hn : n < 10 ^ width) :
    readFraction ('.' :: (padded width n ++ 'Z' :: rest)) =
      some (n * 10 ^ (9 - width), 'Z' :: rest) := by
  have hdigits : ((padded width n ++ 'Z' :: rest).take 9).takeWhile Char.isDigit =
      padded width n := by
    rw [List.take_append, List.take_of_length_le (by simpa using hmost),
      List.takeWhile_append_of_pos fun c hc => isDigit_of_mem_padded hc]
    cases 9 - (padded width n).length <;> simp
  obtain ⟨c, cs, hcs, -⟩ := exists_padded hwidth n
  have hfull : (padded width n).isEmpty = false := by rw [hcs]; rfl
  simp only [readFraction, hdigits, hfull, ofDigitChars_padded hn]
  simp

/-- The digits that are left out of a fraction are zeros. -/
theorem readFraction_print (hn : n < 1000000000) :
    readFraction (printFraction n ++ 'Z' :: rest) = some (n, 'Z' :: rest) := by
  unfold printFraction
  split_ifs with hzero hmilli hmicro
  · rw [hzero]
    rfl
  all_goals
    rw [List.cons_append, readFraction_padded (by omega) (by omega) (by omega)]
    congr
    omega

/-! ## Times -/

theorem daysIn_le (year : Int) (month : Nat) : daysIn year month ≤ 31 := by
  unfold daysIn
  split_ifs <;> omega

/-- **A time whose year has four digits is read back.** -/
theorem parse_print {t : Timestamp} (ht : t.isValid = true) (hlow : 0 ≤ t.year)
    (hhigh : t.year ≤ 9999) : parse t.print = some t := by
  have hparts := ht
  simp only [isValid, Bool.and_eq_true, decide_eq_true_eq] at hparts
  obtain ⟨⟨⟨⟨⟨⟨⟨⟨-, -⟩, hmonth⟩, -⟩, hday⟩, hhour⟩, hminute⟩, hsecond⟩, hnanos⟩ := hparts
  have hdays := daysIn_le t.year t.month
  have hdash : ∀ cs, readMark '-' ('-' :: cs) = some cs := fun _ => readMark_cons rfl
  have hcolon : ∀ cs, readMark ':' (':' :: cs) = some cs := fun _ => readMark_cons rfl
  have hend : readOffset (Text.trimStart ['Z']) = some (0, []) := rfl
  have hchars : t.print.toList = printYear t.year ++ '-' :: (padded 2 t.month ++ '-' ::
      (padded 2 t.day ++ 'T' :: (padded 2 t.hour ++ ':' :: (padded 2 t.minute ++ ':' ::
        (padded 2 t.second ++ (printFraction t.nanos ++ ['Z'])))))) := by
    simp only [print, printChars, String.toList_ofList, List.append_assoc, List.cons_append]
  rw [parse, hchars, readYear_print hlow hhigh]
  dsimp only [Option.bind_eq_bind, Option.bind_some]
  simp only [hdash, hcolon, hend, readField_padded (show t.month < 100 by omega),
    readField_padded (show t.day < 100 by omega), readField_padded (show t.hour < 100 by omega),
    readField_padded (show t.minute < 100 by omega),
    readField_padded (show t.second < 100 by omega), readFraction_print hnanos, Option.bind_some,
    beq_self_eq_true, Bool.true_or, if_true]
  -- there is no offset, and nothing is left
  simp [earlier, ht, Text.trimStart]

end Timestamp

end SourceAtlas
