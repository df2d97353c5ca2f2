import Mathlib.Data.List.Basic
import SourceAtlas.Proofs.DefinitionId.Encoding

/-!
# Taking ids apart

An id can be taken apart if it has three separators and ends in a line number. Nothing is lost, and
what was put together comes out again.

* `DefinitionId.IsNumeral`, `DefinitionId.line?_eq_some_iff`: the texts that are read as lines;
* `DefinitionId.length_pieces`, `DefinitionId.pieces_of_last`: the pieces of a text;
* `DefinitionId.parts_eq_some_iff`: what the parts of an id are;
* **`DefinitionId.parts_decode`**: the parts of every id and of every text.
-/

namespace SourceAtlas.DefinitionId

/-! ## Line numbers -/

/-- A text of one or more decimal digits, with or without a plus sign in front, and its value. -/
def IsNumeral (s : String) (n : Nat) : Prop :=
  ∃ cs : List Char, (s.toList = cs ∨ s.toList = '+' :: cs) ∧ cs ≠ [] ∧
    (∀ c ∈ cs, c.isDigit = true) ∧ Nat.ofDigitChars 10 cs 0 = n

theorem foldlM_digit_iff {cs : List Char} {m n : Nat} :
    cs.foldlM (fun n c => if c.isDigit then some (10 * n + (c.toNat - '0'.toNat)) else none) m =
        some n ↔
      (∀ c ∈ cs, c.isDigit = true) ∧ Nat.ofDigitChars 10 cs m = n := by
  induction cs generalizing m with
  | nil => simp
  | cons c cs ih =>
    rw [List.foldlM_cons, List.forall_mem_cons, Nat.ofDigitChars_cons]
    by_cases hc : c.isDigit = true
    · rw [if_pos hc, Option.bind_eq_bind, Option.bind_some, ih]
      simp only [hc, true_and]
    · simp [hc]

theorem digits?_eq_some_iff {cs : List Char} {n : Nat} : digits? cs = some n ↔
    cs ≠ [] ∧ (∀ c ∈ cs, c.isDigit = true) ∧ Nat.ofDigitChars 10 cs 0 = n := by
  rw [digits?, ← foldlM_digit_iff]
  cases cs <;> simp

/-- Without a plus sign in front. -/
def unsigned (cs : List Char) : List Char := if cs.head? = some '+' then cs.tail else cs

theorem line?_eq (s : String) : line? s = (digits? (unsigned s.toList)).bind fun n =>
    if n < Nat.pow 2 32 then some n.toUInt32 else none := by
  rw [line?]
  split
  · rename_i cs hcs
    rw [hcs]
    rfl
  · rename_i hcs
    have hhead : s.toList.head? ≠ some '+' := by
      cases h : s.toList with
      | nil => simp
      | cons c cs =>
        rw [List.head?_cons, ne_eq, Option.some.injEq]
        rintro rfl
        exact hcs cs h
    rw [unsigned, if_neg hhead]
    rfl

/-- A plus sign in front is no digit, so that a numeral is read in one way. -/
theorem isNumeral_iff {s : String} {n : Nat} :
    IsNumeral s n ↔ digits? (unsigned s.toList) = some n := by
  simp only [IsNumeral, ← digits?_eq_some_iff]
  rw [unsigned]
  split_ifs with hhead
  · obtain ⟨cs, hcs⟩ := List.head?_eq_some_iff.mp hhead
    have hplus : digits? ('+' :: cs) ≠ some n := fun hn =>
      absurd ((digits?_eq_some_iff.mp hn).2.1 '+' List.mem_cons_self) (by decide)
    rw [hcs]
    constructor
    · rintro ⟨ds, rfl | hds, hn⟩
      · exact absurd hn hplus
      · rwa [(List.cons.inj hds).2]
    · intro hn
      exact ⟨cs, .inr rfl, hn⟩
  · constructor
    · rintro ⟨ds, rfl | hds, hn⟩
      · exact hn
      · exact absurd (by rw [hds]; rfl) hhead
    · intro hn
      exact ⟨_, .inl rfl, hn⟩

theorem line?_eq_some_iff {s : String} {i : UInt32} : line? s = some i ↔ IsNumeral s i.toNat := by
  rw [isNumeral_iff, line?_eq, Option.bind_eq_some_iff]
  constructor
  · rintro ⟨n, hn, hi⟩
    split_ifs at hi with hlt
    obtain rfl := Option.some.inj hi
    rw [hn, Nat.toUInt32, UInt32.toNat_ofNat_of_lt' hlt]
  · intro h
    refine ⟨i.toNat, h, ?_⟩
    rw [if_pos i.toNat_lt, Nat.toUInt32, UInt32.ofNat_toNat]

theorem isNumeral_toString (i : UInt32) : IsNumeral (toString i.toNat) i.toNat := by
  refine ⟨Nat.toDigits 10 i.toNat, .inl (toList_toString_nat _), ?_, fun c hc => ?_,
    Nat.ofDigitChars_ten_toDigits⟩
  · exact Nat.toDigits_ne_nil
  · exact Nat.isDigit_of_mem_toDigits (by omega) (by omega) hc

theorem IsNumeral.isPlain {s : String} {n : Nat} (h : IsNumeral s n) : IsPlain s := by
  obtain ⟨cs, hs, -, hdigits, -⟩ := h
  have hcs : separator ∉ cs := fun hmem => absurd (hdigits _ hmem) (by decide)
  rw [IsPlain]
  rcases hs with hs | hs
  · rwa [hs]
  · rw [hs, List.mem_cons, not_or]
    exact ⟨by decide, hcs⟩

/-! ## Pieces -/

/-- The pieces of a text between the separators. -/
def pieces (raw : String) : List String := Text.splitBy (· == separator) raw

theorem length_pieces (raw : String) : (pieces raw).length = raw.toList.count separator + 1 := by
  rw [pieces, Text.splitBy, List.length_map, Text.length_segments, List.count]

theorem pieces_of_last {front last : String} (hlast : IsPlain last) :
    pieces (front ++ String.singleton separator ++ last) = pieces front ++ [last] := by
  have hone : Text.segments (· == separator) last.toList = [last.toList] := by
    refine Text.segments_of_no_sep fun c hc => ?_
    rw [beq_eq_false_iff_ne]
    rintro rfl
    exact hlast hc
  simp only [pieces, Text.splitBy, String.toList_append, String.toList_singleton,
    List.append_assoc, List.singleton_append]
  rw [Text.segments_append_sep (by simp), hone, List.map_append]
  simp

/-- An id has parts if it is made of four pieces, the last of which is a line number. -/
theorem parts_eq_some_iff {raw : String} {q : Parts} : parts ⟨raw⟩ = some q ↔
    ∃ last, pieces raw = [q.file, q.kind, q.name, last] ∧ IsNumeral last q.line.toNat := by
  simp only [parts, ← line?_eq_some_iff]
  constructor
  · intro h
    split at h
    · rename_i file kind name last hpieces
      obtain ⟨line, hline, rfl⟩ := Option.map_eq_some_iff.mp h
      exact ⟨last, hpieces, hline⟩
    · cases h
  · rintro ⟨last, hpieces, hline⟩
    rw [pieces] at hpieces
    rw [hpieces]
    exact Option.map_eq_some_iff.mpr ⟨q.line, hline, rfl⟩

theorem parts_make {p : Path} {k : SymbolKind} {m : String} {i : UInt32} (hp : IsPlain p.text)
    (hm : IsPlain m) : (make p k m i).parts = some ⟨p.text, k.name, m, i⟩ :=
  parts_eq_some_iff.mpr ⟨_, splitBy_make hp hm, isNumeral_toString i⟩

/-- A text has parts if it has three separators and what follows the last of them is a line
number. -/
theorem isSome_parts_iff {raw : String} : (parts ⟨raw⟩).isSome = true ↔
    raw.toList.count separator = 3 ∧ ∃ front last,
      raw = front ++ String.singleton separator ++ last ∧ IsPlain last ∧
        ∃ n < UInt32.size, IsNumeral last n := by
  rw [Option.isSome_iff_exists]
  constructor
  · rintro ⟨q, hq⟩
    obtain ⟨last, hpieces, hlast⟩ := parts_eq_some_iff.mp hq
    have hlength := length_pieces raw
    have hraw := Text.intercalate_splitBy separator raw
    rw [hpieces, List.length_cons] at hlength
    rw [← pieces, hpieces] at hraw
    refine ⟨by simpa using hlength.symm,
      (String.singleton separator).intercalate [q.file, q.kind, q.name], last, ?_, hlast.isPlain,
      q.line.toNat, q.line.toNat_lt, hlast⟩
    rw [← hraw, ← String.toList_inj]
    simp
  · rintro ⟨hcount, front, last, rfl, hplain, n, hn, hlast⟩
    have hlength := length_pieces (front ++ String.singleton separator ++ last)
    rw [hcount, pieces_of_last hplain, List.length_append, List.length_singleton,
      Nat.add_right_cancel_iff] at hlength
    -- three separators leave three pieces in front of the last one
    obtain ⟨file, kind, name, hfront⟩ := List.length_eq_three.mp hlength
    refine ⟨⟨file, kind, name, UInt32.ofNat n⟩, parts_eq_some_iff.mpr ⟨last, ?_, ?_⟩⟩
    · rw [pieces_of_last hplain, hfront]
      rfl
    · rwa [UInt32.toNat_ofNat_of_lt' hn]

/-- **An id is taken apart into what it was put together from.** If file and name do not hold the
separator, the parts are what the id is made from, so that different definitions have different ids.
A text has parts exactly if it holds three separators and ends in a line number, and its parts, put
together with the text of that number, are the text. -/
theorem parts_decode :
    (∀ (p : Path) (k : SymbolKind) (m : String) (i : UInt32), IsPlain p.text → IsPlain m →
      (make p k m i).parts = some ⟨p.text, k.name, m, i⟩) ∧
    (∀ (p q : Path) (k l : SymbolKind) (m n : String) (i j : UInt32),
      IsPlain p.text → IsPlain m → IsPlain q.text → IsPlain n →
      make p k m i = make q l n j → p = q ∧ k = l ∧ m = n ∧ i = j) ∧
    ∀ raw : String,
      ((parts ⟨raw⟩).isSome = true ↔ raw.toList.count separator = 3 ∧ ∃ front last,
        raw = front ++ String.singleton separator ++ last ∧ IsPlain last ∧
          ∃ n < UInt32.size, IsNumeral last n) ∧
      ∀ q, parts ⟨raw⟩ = some q → ∃ last, IsNumeral last q.line.toNat ∧
        raw = (String.singleton separator).intercalate [q.file, q.kind, q.name, last] := by
  refine ⟨fun p k m i => parts_make, fun p q k l m n i j => make_inj,
    fun raw => ⟨isSome_parts_iff, fun q hq => ?_⟩⟩
  obtain ⟨last, hpieces, hlast⟩ := parts_eq_some_iff.mp hq
  refine ⟨last, hlast, ?_⟩
  rw [← hpieces, pieces, Text.intercalate_splitBy]

/-- A name that looks like a line number, the last line there is, and a line with a sign and
zeros. -/
theorem parts_decode_signed :
    (IsPlain "a+1.go" ∧ IsPlain "+7") ∧
    (make ⟨"a+1.go"⟩ .method "+7" 4294967295).parts =
      some ⟨"a+1.go", "method_definition", "+7", 4294967295⟩ ∧
    (parts ⟨"a\x00b\x00\x00+007"⟩).isSome = true := by
  have hplain : IsPlain "a+1.go" ∧ IsPlain "+7" := by decide
  refine ⟨hplain, parts_decode.1 ⟨"a+1.go"⟩ .method "+7" 4294967295 hplain.1 hplain.2, ?_⟩
  refine (parts_decode.2.2 _).1.mpr ⟨by decide, "a\x00b\x00", "+007", by decide, by decide, 7,
    by decide, "007".toList, .inr (by decide), by decide, by simp, by decide⟩

end SourceAtlas.DefinitionId
