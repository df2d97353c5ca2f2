import Mathlib.Data.List.Nodup
import Mathlib.Data.List.TakeDrop
import Mathlib.Tactic.Common
import SourceAtlas.Json.Printer
import SourceAtlas.Json.Reader

/-!
# Values are read as they were printed

A printed value is read back as the same value, whatever texts are in it, if its numbers fit in 64
bits, no object has a key twice and arrays and objects do not nest too deeply.

* `JsonValue.readText_quote`: texts;
* `JsonValue.readNumber_natural`, `JsonValue.readNumber_negative`: numbers;
* `JsonValue.Fits`: the values that are read back; `JsonValue.Reads`: what that means;
* `JsonValue.readItems_print`, `JsonValue.readMembers_print`: arrays and objects;
* **`JsonValue.reads_of_fits`**: a value that fits is read back wherever it is printed;
* **`JsonValue.parse_print`**: so it is read back from a text that holds nothing else.
-/

namespace SourceAtlas

namespace JsonValue

variable {c : Char} {rest done : List Char} {n : Nat}

/-! ## Blanks -/

theorem skip_cons (hc : isGap c = false) : skip (c :: rest) = c :: rest :=
  List.dropWhile_cons_of_neg (by simp [hc])

theorem skip_newLine (k : Nat) (cs : List Char) : skip (newLine k ++ cs) = skip cs := by
  refine List.dropWhile_append_of_pos fun c hc => ?_
  rcases List.mem_cons.mp hc with rfl | hc
  · rfl
  · rw [List.eq_of_mem_replicate hc]
    rfl

theorem skip_blank (cs : List Char) : skip (' ' :: cs) = skip cs :=
  List.dropWhile_cons_of_pos rfl

/-! ## Texts -/

theorem hexValue?_hexDigit : ∀ n < 16, hexValue? (hexDigit n) = some n := by decide

theorem unit?_hexDigit (hn : n < 256) :
    unit? '0' '0' (hexDigit (n / 16)) (hexDigit (n % 16)) = some n := by
  have hzero : hexValue? '0' = some 0 := by decide
  have hhigh := hexValue?_hexDigit (n / 16) (by omega)
  have hlow := hexValue?_hexDigit (n % 16) (by omega)
  simp only [unit?, hzero, hhigh, hlow, Option.bind_eq_bind, Option.bind_some, Option.some.injEq]
  omega

/-- A unit that is no half of a pair is a character, whether or not another unit follows. -/
theorem readText_unit {a b c d : Char} {u : Nat} (hu : unit? a b c d = some u)
    (hlead : isLeading u = false) (htrail : isTrailing u = false) :
    readText ('\\' :: 'u' :: a :: b :: c :: d :: rest) done =
      readText rest (Char.ofNat u :: done) := by
  by_cases hpair : ∃ e f g h more, rest = '\\' :: 'u' :: e :: f :: g :: h :: more
  · obtain ⟨e, f, g, h, more, rfl⟩ := hpair
    rw [readText, hu]
    simp [hlead, htrail]
  · rw [readText, hu]
    · simp [hlead, htrail]
    · intro e f g h more hrest
      exact hpair ⟨e, f, g, h, more, hrest⟩

theorem readText_letter {x : Char} (hx : unescape? c = some x) :
    readText ('\\' :: c :: rest) done = readText rest (x :: done) := by
  have hc : c ≠ 'u' := by
    rintro rfl
    cases hx
  rw [readText, hx]
  · intro _ _ _ _ _ _ _ _ _ hu
    exact absurd hu hc
  · intro _ _ _ _ _ hu
    exact absurd hu hc

theorem readText_plain (hquote : c ≠ '"') (hback : c ≠ '\\') (hcontrol : ¬ c.toNat < 32) :
    readText (c :: rest) done = readText rest (c :: done) := by
  rw [readText]
  · exact if_neg hcontrol
  · exact hquote
  all_goals
    intros
    contradiction

theorem readText_escape (c : Char) (rest done : List Char) :
    readText (escape c ++ rest) done = readText rest (c :: done) := by
  unfold escape
  split_ifs with hquote hback hb hf hn hr ht hcontrol
  · exact readText_letter (congrArg some (beq_iff_eq.mp hquote).symm)
  · exact readText_letter (congrArg some (beq_iff_eq.mp hback).symm)
  · exact readText_letter (congrArg some (beq_iff_eq.mp hb).symm)
  · exact readText_letter (congrArg some (beq_iff_eq.mp hf).symm)
  · exact readText_letter (congrArg some (beq_iff_eq.mp hn).symm)
  · exact readText_letter (congrArg some (beq_iff_eq.mp hr).symm)
  · exact readText_letter (congrArg some (beq_iff_eq.mp ht).symm)
  · have hlead : isLeading c.toNat = false := by
      rw [isLeading, Bool.and_eq_false_iff]
      exact .inl (by simp; omega)
    have htrail : isTrailing c.toNat = false := by
      rw [isTrailing, Bool.and_eq_false_iff]
      exact .inl (by simp; omega)
    have hread : readText ('\\' :: 'u' :: '0' :: '0' :: hexDigit (c.toNat / 16) ::
        hexDigit (c.toNat % 16) :: rest) done = readText rest (Char.ofNat c.toNat :: done) :=
      readText_unit (unit?_hexDigit (by omega)) hlead htrail
    rwa [Char.ofNat_toNat] at hread
  · exact readText_plain (by simpa using hquote) (by simpa using hback) hcontrol

theorem readText_flatMap (cs rest done : List Char) :
    readText (cs.flatMap escape ++ '"' :: rest) done =
      some (String.ofList (done.reverse ++ cs), rest) := by
  induction cs generalizing done with
  | nil => simp [readText]
  | cons c cs ih =>
    rw [List.flatMap_cons, List.append_assoc, readText_escape, ih]
    simp

/-- **A text in quotes is read as the text.** -/
theorem readText_quote (s : String) (rest : List Char) :
    readText (s.toList.flatMap escape ++ '"' :: rest) [] = some (s, rest) := by
  rw [readText_flatMap]
  simp

/-! ## Numbers -/

/-- No number goes on with what follows. -/
def EndsNumber (rest : List Char) : Prop :=
  ∀ c ∈ rest.head?, c.isDigit = false ∧ c ≠ '.' ∧ c ≠ 'e' ∧ c ≠ 'E'

theorem head?_toDigits (hn : 0 < n) : (Nat.toDigits 10 n).head? ≠ some '0' := by
  induction n using Nat.strongRecOn with
  | ind n ih =>
    rw [Nat.toDigits_eq_if (by omega)]
    split_ifs with hlt
    · have hall : ∀ m < 10, 0 < m → [m.digitChar].head? ≠ some '0' := by decide
      exact hall n hlt hn
    · rw [List.head?_append_of_ne_nil _ Nat.toDigits_ne_nil]
      exact ih (n / 10) (by omega) (by omega)

theorem toDigits_wellFormed (n : Nat) :
    ((Nat.toDigits 10 n).isEmpty || ((Nat.toDigits 10 n).head? == some '0' &&
      decide (1 < (Nat.toDigits 10 n).length))) = false := by
  have hne : (Nat.toDigits 10 n).isEmpty = false := by simp [Nat.toDigits_ne_nil]
  rw [hne, Bool.false_or, Bool.and_eq_false_iff]
  rcases Nat.eq_zero_or_pos n with rfl | hn
  · exact .inr (by rw [Nat.toDigits_zero]; rfl)
  · exact .inl (beq_eq_false_iff_ne.mpr (head?_toDigits hn))

theorem isDigit_of_mem_toDigits (hc : c ∈ Nat.toDigits 10 n) : c.isDigit = true :=
  Nat.isDigit_of_mem_toDigits (by omega) (by omega) hc

theorem exists_toDigits (n : Nat) : ∃ c cs, Nat.toDigits 10 n = c :: cs ∧ c.isDigit = true := by
  obtain ⟨c, cs, hcs⟩ := List.exists_cons_of_ne_nil (Nat.toDigits_ne_nil (n := n) (b := 10))
  exact ⟨c, cs, hcs, isDigit_of_mem_toDigits (hcs ▸ List.mem_cons_self)⟩

theorem digits_append {ds : List Char} (hds : ∀ c ∈ ds, c.isDigit = true)
    (hrest : ∀ c ∈ rest.head?, c.isDigit = false) : digits (ds ++ rest) = (ds, rest) := by
  rw [digits, List.span_eq_takeWhile_dropWhile, List.takeWhile_append_of_pos hds,
    List.dropWhile_append_of_pos hds]
  cases rest with
  | nil => simp
  | cons c rest =>
    have hc : c.isDigit = false := hrest c rfl
    simp [hc]

theorem fraction?_of_endsNumber (hrest : EndsNumber rest) : fraction? rest = some ([], rest) := by
  cases rest with
  | nil => rfl
  | cons c rest =>
    obtain ⟨-, hdot, -⟩ := hrest c rfl
    rw [fraction?.eq_def]
    split <;> simp_all

theorem exponent?_of_endsNumber (hrest : EndsNumber rest) :
    exponent? rest = some (none, rest) := by
  cases rest with
  | nil => rfl
  | cons c rest =>
    obtain ⟨-, -, he, hE⟩ := hrest c rfl
    simp [exponent?, he, hE]

theorem digits_toDigits (hrest : EndsNumber rest) :
    digits (Nat.toDigits 10 n ++ rest) = (Nat.toDigits 10 n, rest) :=
  digits_append (fun _ hc => isDigit_of_mem_toDigits hc) fun c hc => (hrest c hc).1

theorem readNumber_natural (hn : n < Nat.pow 2 64) (hrest : EndsNumber rest) :
    readNumber false (Nat.toDigits 10 n ++ rest) = some (natural n, rest) := by
  simp only [readNumber, digits_toDigits hrest, toDigits_wellFormed, fraction?_of_endsNumber hrest,
    exponent?_of_endsNumber hrest, Nat.ofDigitChars_ten_toDigits, Option.bind_eq_bind,
    Option.bind_some]
  simp [hn]

theorem readNumber_negative (hpos : 0 < n) (hn : n ≤ Nat.pow 2 63) (hrest : EndsNumber rest) :
    readNumber true (Nat.toDigits 10 n ++ rest) = some (negative n, rest) := by
  simp only [readNumber, digits_toDigits hrest, toDigits_wellFormed, fraction?_of_endsNumber hrest,
    exponent?_of_endsNumber hrest, Nat.ofDigitChars_ten_toDigits, Option.bind_eq_bind,
    Option.bind_some]
  simp [hpos, hn]

/-! ## Values that are read back -/

/-- Can a value be read with arrays and objects that nest to a depth? Its numbers must fit in 64
bits, and its objects must not have a key twice. -/
def Fits : Nat → JsonValue → Prop
  | _, null | _, bool _ | _, text _ => True
  | _, natural n => n < Nat.pow 2 64
  | _, negative n => 0 < n ∧ n ≤ Nat.pow 2 63
  | _, real _ => False
  | 0, array _ | 0, object _ => False
  | d + 1, array items => ∀ v ∈ items, Fits d v
  | d + 1, object members => (members.map (·.1)).Nodup ∧ ∀ m ∈ members, Fits d m.2

/-- A value is read back wherever it is printed, with as many steps as it has characters. -/
def Reads (d : Nat) (v : JsonValue) : Prop :=
  ∀ (k n : Nat) (rest : List Char), (printAt k v).length ≤ n → EndsNumber rest →
    readValue n d (printAt k v ++ rest) = some (v, rest)

variable {d k j : Nat} {v : JsonValue}

theorem isGap_of_isDigit (hc : c.isDigit = true) : isGap c = false := by
  rw [isGap, Bool.or_eq_false_iff, Bool.or_eq_false_iff, Bool.or_eq_false_iff]
  refine ⟨⟨⟨?_, ?_⟩, ?_⟩, ?_⟩ <;>
  · rw [beq_eq_false_iff_ne]
    rintro rfl
    cases hc

/-- A printed value starts with something that neither is a blank nor closes an array. -/
theorem exists_printAt (hv : Fits d v) (k : Nat) :
    ∃ c cs, printAt k v = c :: cs ∧ isGap c = false ∧ c ≠ ']' := by
  cases v with
  | null => exact ⟨'n', _, rfl, by decide, by decide⟩
  | bool b => cases b <;> exact ⟨_, _, rfl, by decide, by decide⟩
  | natural n =>
    obtain ⟨c, cs, hcs, hc⟩ := exists_toDigits n
    refine ⟨c, cs, by rw [printAt, hcs], isGap_of_isDigit hc, ?_⟩
    rintro rfl
    cases hc
  | negative n => exact ⟨'-', _, by rw [printAt], by decide, by decide⟩
  | real s => cases d <;> exact hv.elim
  | text s => exact ⟨'"', _, by rw [printAt, quote]; rfl, by decide, by decide⟩
  | array items =>
    cases items with
    | nil => exact ⟨'[', _, by rw [printAt], by decide, by decide⟩
    | cons v vs => exact ⟨'[', _, by rw [printAt]; rfl, by decide, by decide⟩
  | object members =>
    cases members with
    | nil => exact ⟨'\x7b', _, by rw [printAt], by decide, by decide⟩
    | cons m ms => exact ⟨'\x7b', _, by rw [printAt]; rfl, by decide, by decide⟩

theorem endsNumber_newLine (k : Nat) (cs : List Char) : EndsNumber (newLine k ++ cs) := by
  intro c hc
  cases hc
  decide

theorem endsNumber_comma (cs : List Char) : EndsNumber (',' :: cs) := by
  intro c hc
  cases hc
  decide

theorem readValue_newLine (n d k : Nat) (cs : List Char) :
    readValue n d (newLine k ++ cs) = readValue n d cs := by
  cases n with
  | zero => rw [readValue, readValue]
  | succ n => rw [readValue, readValue, skip_newLine]

theorem readValue_blank (n d : Nat) (cs : List Char) :
    readValue n d (' ' :: cs) = readValue n d cs := by
  cases n with
  | zero => rw [readValue, readValue]
  | succ n => rw [readValue, readValue, skip_blank]

theorem readValue_digit (hc : c.isDigit = true) :
    readValue (n + 1) d (c :: rest) = readNumber false (c :: rest) := by
  rw [readValue, skip_cons (isGap_of_isDigit hc)]
  split <;> simp_all

/-! ## Arrays and objects -/

theorem endsNumber_printItems (k j : Nat) (vs : List JsonValue) (cs : List Char) :
    EndsNumber (printItems k vs ++ (newLine j ++ cs)) := by
  cases vs with
  | nil => exact endsNumber_newLine j cs
  | cons v vs =>
    rw [printItems]
    exact endsNumber_comma _

theorem endsNumber_printMembers (k j : Nat) (ms : List (String × JsonValue)) (cs : List Char) :
    EndsNumber (printMembers k ms ++ (newLine j ++ cs)) := by
  cases ms with
  | nil => exact endsNumber_newLine j cs
  | cons m ms =>
    rw [printMembers]
    exact endsNumber_comma _

theorem readItems_item {before : List JsonValue} (hv : Reads d v) (hn : (printAt k v).length ≤ n)
    (hrest : EndsNumber rest) :
    readItems (n + 1) d (newLine k ++ (printAt k v ++ rest)) before =
      match skip rest with
      | ',' :: more => readItems n d more (v :: before)
      | ']' :: after => some (array (v :: before).reverse, after)
      | _ => none := by
  rewrite [readItems, readValue_newLine, hv k n rest hn hrest]
  rfl

/-- **Items are read up to the bracket after the last one.** -/
theorem readItems_print {vs before : List JsonValue} (hv : Reads d v) (hvs : ∀ w ∈ vs, Reads d w)
    (hn : (printAt k v).length + (printItems k vs).length + 1 ≤ n) :
    readItems n d (newLine k ++ (printAt k v ++ (printItems k vs ++ (newLine j ++ ']' :: rest))))
      before = some (array (before.reverse ++ v :: vs), rest) := by
  induction vs generalizing v before n with
  | nil =>
    obtain ⟨n, rfl⟩ : ∃ m, n = m + 1 := ⟨n - 1, by omega⟩
    rw [readItems_item hv (by omega) (endsNumber_printItems k j [] _), printItems, List.nil_append,
      skip_newLine, skip_cons (by decide)]
    simp
  | cons w ws ih =>
    obtain ⟨n, rfl⟩ : ∃ m, n = m + 1 := ⟨n - 1, by omega⟩
    rw [readItems_item hv (by omega) (endsNumber_printItems k j _ _)]
    simp only [printItems, List.cons_append, List.append_assoc, List.length_cons,
      List.length_append] at hn ⊢
    rw [skip_cons (by decide)]
    simp only
    rw [ih (hvs w List.mem_cons_self) (fun x hx => hvs x (List.mem_cons_of_mem w hx)) (by omega)]
    simp

theorem readMembers_member {m : String × JsonValue} {before : List (String × JsonValue)}
    (hm : Reads d m.2) (hn : (printAt k m.2).length ≤ n) (hrest : EndsNumber rest) :
    readMembers (n + 1) d (newLine k ++ (quote m.1 ++ ':' :: ' ' :: (printAt k m.2 ++ rest)))
      before =
      match skip rest with
      | ',' :: more => readMembers n d more (m :: before)
      | '\x7d' :: after => some (object (lastMembers (m :: before).reverse), after)
      | _ => none := by
  simp only [quote, List.cons_append, List.append_assoc, List.nil_append]
  rw [readMembers, skip_newLine, skip_cons (by decide)]
  simp only
  rw [readText_quote]
  simp only
  rw [skip_cons (by decide)]
  simp only
  rewrite [readValue_blank, hm k n rest hn hrest]
  rfl

/-- **Members are read up to the brace after the last one.** -/
theorem readMembers_print {m : String × JsonValue} {ms before : List (String × JsonValue)}
    (hm : Reads d m.2) (hms : ∀ x ∈ ms, Reads d x.2)
    (hn : (printAt k m.2).length + (printMembers k ms).length + 1 ≤ n) :
    readMembers n d (newLine k ++ (quote m.1 ++ ':' :: ' ' :: (printAt k m.2 ++
      (printMembers k ms ++ (newLine j ++ '\x7d' :: rest))))) before =
      some (object (lastMembers (before.reverse ++ m :: ms)), rest) := by
  induction ms generalizing m before n with
  | nil =>
    obtain ⟨n, rfl⟩ : ∃ l, n = l + 1 := ⟨n - 1, by omega⟩
    rw [readMembers_member hm (by omega) (endsNumber_printMembers k j [] _), printMembers,
      List.nil_append, skip_newLine, skip_cons (by decide)]
    simp
  | cons x xs ih =>
    obtain ⟨n, rfl⟩ : ∃ l, n = l + 1 := ⟨n - 1, by omega⟩
    rw [readMembers_member hm (by omega) (endsNumber_printMembers k j _ _)]
    simp only [printMembers, List.cons_append, List.nil_append, List.append_assoc,
      List.length_cons, List.length_append] at hn ⊢
    rw [skip_cons (by decide)]
    simp only
    rw [ih (hms x List.mem_cons_self) (fun y hy => hms y (List.mem_cons_of_mem x hy)) (by omega)]
    simp

theorem lastMembers_of_nodup {ms : List (String × JsonValue)} (h : (ms.map (·.1)).Nodup) :
    lastMembers ms = ms := by
  induction ms with
  | nil => rfl
  | cons m ms ih =>
    rw [List.map_cons, List.nodup_cons] at h
    have hnew : ms.any (·.1 == m.1) = false := by
      rw [List.any_eq_false]
      intro x hx hkey
      exact h.1 (List.mem_map.mpr ⟨x, hx, beq_iff_eq.mp hkey⟩)
    rw [lastMembers, ih h.2, hnew]
    rfl

theorem readValue_bracket {cs : List Char} (hcs : skip cs = c :: rest) (hc : c ≠ ']') :
    readValue (n + 1) (d + 1) ('[' :: cs) = readItems n d cs [] := by
  rw [readValue, skip_cons (by decide)]
  simp [hcs, hc]

theorem readValue_brace {cs : List Char} (hcs : skip cs = c :: rest) (hc : c ≠ '\x7d') :
    readValue (n + 1) (d + 1) ('\x7b' :: cs) = readMembers n d cs [] := by
  rw [readValue, skip_cons (by decide)]
  simp [hcs, hc]

/-- There is always a step for the first character. -/
theorem reads_of_succ (hv : Fits d v)
    (h : ∀ k n rest, (printAt k v).length ≤ n + 1 → EndsNumber rest →
      readValue (n + 1) d (printAt k v ++ rest) = some (v, rest)) : Reads d v := by
  intro k n rest hn hrest
  obtain ⟨c, cs, hcs, -⟩ := exists_printAt hv k
  cases n with
  | zero => simp [hcs] at hn
  | succ n => exact h k n rest hn hrest

theorem reads_array {items : List JsonValue} (hfits : Fits (d + 1) (array items))
    (hreads : ∀ v ∈ items, Reads d v) : Reads (d + 1) (array items) := by
  refine reads_of_succ hfits fun k n rest hn hrest => ?_
  cases items with
  | nil =>
    rw [printAt, readValue]
    rfl
  | cons v vs =>
    simp only [printAt, List.cons_append, List.append_assoc, List.nil_append, List.length_cons,
      List.length_append] at hn ⊢
    obtain ⟨c, cs, hcs, hgap, hclose⟩ := exists_printAt (hfits v List.mem_cons_self) (k + 1)
    have hfirst : ∀ more, skip (newLine (k + 1) ++ (printAt (k + 1) v ++ more)) =
        c :: (cs ++ more) := by
      intro more
      rw [skip_newLine, hcs, List.cons_append, skip_cons hgap]
    rw [readValue_bracket (hfirst _) hclose, readItems_print (hreads v List.mem_cons_self)
      (fun w hw => hreads w (List.mem_cons_of_mem v hw)) (by omega)]
    rfl

theorem reads_object {members : List (String × JsonValue)} (hfits : Fits (d + 1) (object members))
    (hreads : ∀ m ∈ members, Reads d m.2) : Reads (d + 1) (object members) := by
  refine reads_of_succ hfits fun k n rest hn hrest => ?_
  cases members with
  | nil =>
    rw [printAt, readValue]
    rfl
  | cons m ms =>
    simp only [printAt, List.cons_append, List.append_assoc, List.nil_append, List.length_cons,
      List.length_append] at hn ⊢
    have hfirst : ∀ more, skip (newLine (k + 1) ++ (quote m.1 ++ more)) =
        '"' :: (m.1.toList.flatMap escape ++ ['"'] ++ more) := by
      intro more
      rw [skip_newLine, quote, List.cons_append, List.cons_append, skip_cons (by decide)]
    rw [readValue_brace (hfirst _) (by decide), readMembers_print (hreads m List.mem_cons_self)
      (fun x hx => hreads x (List.mem_cons_of_mem m hx)) (by omega), List.reverse_nil,
      List.nil_append, lastMembers_of_nodup hfits.1]

theorem reads_natural (hn : n < Nat.pow 2 64) : Reads d (natural n) := by
  refine reads_of_succ (by rwa [Fits]) fun k m rest hm hrest => ?_
  obtain ⟨c, cs, hcs, hc⟩ := exists_toDigits n
  rw [printAt, hcs, List.cons_append, readValue_digit hc, ← List.cons_append, ← hcs]
  exact readNumber_natural hn hrest

theorem reads_negative (hpos : 0 < n) (hn : n ≤ Nat.pow 2 63) : Reads d (negative n) := by
  refine reads_of_succ (by rw [Fits]; exact ⟨hpos, hn⟩) fun k m rest hm hrest => ?_
  rw [printAt, List.cons_append, readValue, skip_cons (by decide)]
  exact readNumber_negative hpos hn hrest

theorem reads_text (s : String) : Reads d (text s) := by
  refine reads_of_succ (by rw [Fits]; trivial) fun k n rest hn hrest => ?_
  rw [printAt, quote, List.cons_append, List.cons_append, List.append_assoc, readValue,
    skip_cons (by decide)]
  simp only [List.cons_append, List.nil_append, readText_quote, Option.map_some]

/-- **A value that fits is read back wherever it is printed.** The depth falls from an array or
object to what it holds. -/
theorem reads_of_fits : ∀ {d : Nat} {v : JsonValue}, Fits d v → Reads d v
  | _, null, h => reads_of_succ h fun k n rest _ _ => by
    rw [printAt, readValue]
    rfl
  | _, bool b, h => reads_of_succ h fun k n rest _ _ => by
    rw [printAt, readValue]
    cases b <;> rfl
  | _, natural n, h => by
    rw [Fits] at h
    exact reads_natural h
  | _, negative n, h => by
    rw [Fits] at h
    exact reads_negative h.1 h.2
  | _, real s, h => by
    rw [Fits] at h
    exact h.elim
  | _, text s, _ => reads_text s
  | 0, array _, h => h.elim
  | 0, object _, h => h.elim
  | d + 1, array items, h => reads_array h fun v hv => reads_of_fits (h v hv)
  | d + 1, object members, h => reads_object h fun m hm => reads_of_fits (h.2 m hm)

/-- **A value that fits is read back from a text that holds nothing else.** -/
theorem parse_print (h : Fits depthLimit v) : parse (v.print ++ "\n") = some v := by
  have hchars : (v.print ++ "\n").toList = printAt 0 v ++ ['\n'] := by
    rw [String.toList_append, print, String.toList_ofList]
    rfl
  have hread : readValue ((printAt 0 v ++ ['\n']).length + 1) depthLimit (printAt 0 v ++ ['\n']) =
      some (v, ['\n']) :=
    reads_of_fits h 0 _ ['\n'] (by simp; omega) (endsNumber_newLine 0 [])
  rw [parse, hchars, hread]
  rfl

end JsonValue

end SourceAtlas
