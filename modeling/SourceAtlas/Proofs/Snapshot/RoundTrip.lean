import Mathlib.Tactic.Common
import SourceAtlas.Proofs.Json.RoundTrip
import SourceAtlas.Proofs.Timestamp.RoundTrip
import SourceAtlas.Snapshot

/-!
# Snapshots lose nothing

An index of the current version is the same after it was saved and loaded, whatever is in its texts
and however large its numbers are.

* `JsonValue.fields?_object`, `JsonValue.items?_map`: the parts of values;
* `Snapshot.decodeSymbol?_encode`, `Snapshot.decodeReference?_encode`,
  `Snapshot.decodeSummary?_encode`, `Snapshot.decodeProblem?_encode`, `Snapshot.decode?_encode`:
  what is encoded is decoded;
* `Snapshot.fits_encode`: what is encoded can be read;
* **`Snapshot.load_save`**, **`Snapshot.loadBytes_save`**.
-/

namespace SourceAtlas

/-! ## The parts of values -/

namespace JsonValue

theorem get?_object {members : List (String × JsonValue)} (hkeys : (members.map (·.1)).Nodup)
    {m : String × JsonValue} (hm : m ∈ members) : (object members).get? m.1 = some m.2 := by
  induction members with
  | nil => cases hm
  | cons x xs ih =>
    rw [List.map_cons, List.nodup_cons] at hkeys
    rw [get?, List.find?_cons]
    rcases List.mem_cons.mp hm with rfl | hm
    · simp
    · have hne : (x.1 == m.1) = false := by
        rw [beq_eq_false_iff_ne]
        intro heq
        exact hkeys.1 (heq ▸ List.mem_map_of_mem hm)
      rw [hne]
      exact ih hkeys.2 hm

theorem fields?_object {members : List (String × JsonValue)} (hkeys : (members.map (·.1)).Nodup) :
    (object members).fields? (members.map (·.1)) = some (members.map fun m => some m.2) := by
  rw [fields?, List.map_map, Option.some.injEq, List.map_inj_left]
  intro m hm
  exact get?_object hkeys hm

theorem items?_map {α : Type} {read : JsonValue → Option α} {write : α → JsonValue}
    (h : ∀ a, read (write a) = some a) (as : List α) :
    items? read (array (as.map write)) = some as := by
  rw [items?]
  induction as with
  | nil => rfl
  | cons a as ih => simp [h, ih]

theorem ofInt_toInt_cases (z : Int64) :
    (∃ n : Nat, n < Nat.pow 2 63 ∧ z.toInt = n ∧ ofInt z.toInt = natural n) ∨
      ∃ n : Nat, 0 < n ∧ n ≤ Nat.pow 2 63 ∧ z.toInt = -n ∧ ofInt z.toInt = negative n := by
  have hlow : -9223372036854775808 ≤ z.toInt := z.le_toInt
  have hhigh : z.toInt < 9223372036854775808 := z.toInt_lt
  have hlimit : Nat.pow 2 63 = 9223372036854775808 := by decide
  cases hz : z.toInt with
  | ofNat n =>
    have hn : z.toInt = n := hz
    exact .inl ⟨n, by omega, rfl, rfl⟩
  | negSucc n => exact .inr ⟨n + 1, by omega, by omega, rfl, rfl⟩

@[simp] theorem int64?_ofInt (z : Int64) : int64? (ofInt z.toInt) = some z.toInt := by
  rcases ofInt_toInt_cases z with ⟨n, hn, hz, hvalue⟩ | ⟨n, -, hn, hz, hvalue⟩
  · rw [hvalue, int64?, if_pos hn, hz]
  · rw [hvalue, int64?, if_pos hn, hz]

@[simp] theorem text?_text (s : String) : text? (text s) = some s := rfl

@[simp] theorem choice?_text (s : String) : choice? (text s) = some s := rfl

@[simp] theorem optionalText?_ofOptionalText (s : Option String) :
    optionalText? (some (ofOptionalText s)) = some s := by
  cases s <;> rfl

end JsonValue

open JsonValue

@[simp] theorem SymbolKind.ofName?_name (k : SymbolKind) : ofName? k.name = some k := by
  cases k <;> decide

@[simp] theorem Problem.Kind.ofName?_name (k : Problem.Kind) : ofName? k.name = some k := by
  cases k <;> decide

@[simp] theorem Language.ofName?_name (l : Language) : ofName? l.name = some l := by
  cases l <;> decide

namespace Snapshot

/-! ## What is encoded is decoded -/

@[simp] theorem decodePath?_encode (p : Path) : decodePath? (encodePath p) = some p := rfl

@[simp] theorem decodeWord?_natural (w : UInt32) : decodeWord? (natural w.toNat) = some w := by
  have hw : w.toNat ≤ Nat.pow 2 32 - 1 := Nat.le_pred_of_lt w.toNat_lt
  rw [decodeWord?, natural?, if_pos hw]
  simp

theorem decodeSymbol?_encode (s : Symbol) : decodeSymbol? (encodeSymbol s) = some s := by
  have hfields : (encodeSymbol s).fields?
      ["file", "kind", "name", "signature", "receiver", "start_line", "end_line"] = some _ :=
    fields?_object (by simp)
  rw [decodeSymbol?, hfields]
  simp

theorem decodeReference?_encode (r : Reference) :
    decodeReference? (encodeReference r) = some r := by
  have hfields : (encodeReference r).fields?
      ["file", "kind", "name", "start_line", "start_column", "end_line", "end_column"] = some _ :=
    fields?_object (by simp)
  rw [decodeReference?, hfields]
  simp

theorem decodeSummary?_encode (s : Summary) : decodeSummary? (encodeSummary s) = some s := by
  have hfields : (encodeSummary s).fields?
      ["path", "language", "size", "mod_time_ns", "imports", "symbols", "references"] = some _ :=
    fields?_object (by simp)
  have hsize : natural? (Nat.pow 2 64 - 1) (natural s.size.toNat) = some s.size.toNat :=
    if_pos (Nat.le_pred_of_lt s.size.toNat_lt)
  rw [decodeSummary?, hfields]
  simp [hsize, items?_map text?_text, items?_map decodeSymbol?_encode,
    items?_map decodeReference?_encode]

theorem decodeProblem?_encode (p : Problem) : decodeProblem? (encodeProblem p) = some p := by
  have hfields : (encodeProblem p).fields? ["path", "kind", "message"] = some _ :=
    fields?_object (by simp)
  rw [decodeProblem?, hfields]
  simp

/-- **What is encoded is decoded, with the time that is read.** -/
theorem decode?_encode (i : Index) : decode? (encode i) =
    (Timestamp.parse i.generatedAt.print).map fun t => { i with generatedAt := t } := by
  have hfields : (encode i).fields? ["schema_version", "root", "generated_at", "files", "errors"] =
      some _ :=
    fields?_object (by simp)
  rw [decode?, hfields]
  cases htime : Timestamp.parse i.generatedAt.print with
  | none => simp [htime]
  | some t => simp [htime, items?_map decodeSummary?_encode, items?_map decodeProblem?_encode]

theorem version_encode (i : Index) : version (encode i) = i.schemaVersion := by
  simp [version, encode, get?]

/-! ## What is encoded can be read -/

variable (d : Nat)

theorem fits_text (s : String) : Fits d (text s) := by
  rw [Fits]
  trivial

theorem fits_optionalText (s : Option String) : Fits d (ofOptionalText s) := by
  cases s with
  | none =>
    rw [ofOptionalText, Fits]
    trivial
  | some s => exact fits_text d s

theorem fits_natural {n : Nat} (hn : n < 18446744073709551616) : Fits d (natural n) := by
  rw [Fits]
  exact hn

theorem fits_word (w : UInt32) : Fits d (natural w.toNat) :=
  fits_natural d (w.toNat_lt.trans (by decide))

theorem fits_ofInt (z : Int64) : Fits d (ofInt z.toInt) := by
  rcases ofInt_toInt_cases z with ⟨n, hn, -, hvalue⟩ | ⟨n, hpos, hn, -, hvalue⟩
  · rw [hvalue]
    exact fits_natural d (hn.trans (by decide))
  · rw [hvalue, Fits]
    exact ⟨hpos, hn⟩

theorem fits_map {α : Type} {write : α → JsonValue} (h : ∀ a, Fits d (write a)) (as : List α) :
    Fits (d + 1) (array (as.map write)) := by
  rw [Fits, List.forall_mem_map]
  exact fun a _ => h a

theorem fits_encodeSymbol (s : Symbol) : Fits (d + 1) (encodeSymbol s) := by
  refine ⟨by simp, ?_⟩
  simp only [List.forall_mem_cons, List.not_mem_nil, false_imp_iff, implies_true]
  exact ⟨fits_text d _, fits_text d _, fits_text d _, fits_text d _, fits_optionalText d _,
    fits_word d _, fits_word d _, trivial⟩

theorem fits_encodeReference (r : Reference) : Fits (d + 1) (encodeReference r) := by
  refine ⟨by simp, ?_⟩
  simp only [List.forall_mem_cons, List.not_mem_nil, false_imp_iff, implies_true]
  exact ⟨fits_text d _, fits_text d _, fits_text d _, fits_word d _, fits_word d _, fits_word d _,
    fits_word d _, trivial⟩

theorem fits_encodeSummary (s : Summary) : Fits (d + 3) (encodeSummary s) := by
  refine ⟨by simp, ?_⟩
  simp only [List.forall_mem_cons, List.not_mem_nil, false_imp_iff, implies_true]
  exact ⟨fits_text _ _, fits_text _ _, fits_natural _ s.size.toNat_lt, fits_ofInt _ _,
    fits_map _ (fits_text _) _, fits_map _ (fits_encodeSymbol d) _,
    fits_map _ (fits_encodeReference d) _, trivial⟩

theorem fits_encodeProblem (p : Problem) : Fits (d + 1) (encodeProblem p) := by
  refine ⟨by simp, ?_⟩
  simp only [List.forall_mem_cons, List.not_mem_nil, false_imp_iff, implies_true]
  exact ⟨fits_text d _, fits_text d _, fits_text d _, trivial⟩

/-- **An encoded index can be read.** Its arrays and objects nest five deep. -/
theorem fits_encode (i : Index) : Fits (d + 5) (encode i) := by
  refine ⟨by simp, ?_⟩
  simp only [List.forall_mem_cons, List.not_mem_nil, false_imp_iff, implies_true]
  exact ⟨fits_word _ _, fits_text _ _, fits_text _ _, fits_map _ (fits_encodeSummary d) _,
    fits_map _ (fits_encodeProblem (d + 2)) _, trivial⟩

/-! ## Saving and loading -/

variable {i : Index}

/-- What a saved index is loaded as depends on its time only. -/
theorem load_save_eq (hversion : i.schemaVersion = Index.currentSchema) : load (save i) =
    match Timestamp.parse i.generatedAt.print with
    | some t => .ok { i with generatedAt := t }
    | none => .error .snapshot := by
  have hparse : JsonValue.parse (save i) = some (encode i) := parse_print (fits_encode 122 i)
  rw [load, hparse]
  simp only [version_encode, hversion, decode?_encode, if_true]
  cases Timestamp.parse i.generatedAt.print <;> rfl

/-- **An index of the current version is loaded as it was saved.** -/
theorem load_save (hversion : i.schemaVersion = Index.currentSchema)
    (htime : i.generatedAt.isValid = true) (hlow : 0 ≤ i.generatedAt.year)
    (hhigh : i.generatedAt.year ≤ 9999) : load (save i) = .ok i := by
  rw [load_save_eq hversion, Timestamp.parse_print htime hlow hhigh]

theorem eq_of_load_save (hversion : i.schemaVersion = Index.currentSchema) {j : Index}
    (hload : load (save i) = .ok j) : j.root = i.root ∧ j.files = i.files := by
  rw [load_save_eq hversion] at hload
  split at hload
  · cases hload
    exact ⟨rfl, rfl⟩
  · cases hload

theorem loadBytes_toUTF8 (s : String) : loadBytes s.toUTF8 = load s := by
  have h : String.fromUTF8? s.toUTF8 = some s := dif_pos s.isValidUTF8
  rw [loadBytes, h]

/-- **Nothing is lost in a file.** The bytes of an index of the current version are read as the
index, and so it is written as the same bytes once more. -/
theorem loadBytes_save (i : Index) (hversion : i.schemaVersion = Index.currentSchema)
    (htime : i.generatedAt.isValid = true) (hlow : 0 ≤ i.generatedAt.year)
    (hhigh : i.generatedAt.year ≤ 9999) :
    loadBytes (save i).toUTF8 = .ok i ∧
      (loadBytes (save i).toUTF8).map (fun j => (save j).toUTF8) = .ok (save i).toUTF8 := by
  have hload : loadBytes (save i).toUTF8 = .ok i := by
    rw [loadBytes_toUTF8, load_save hversion htime hlow hhigh]
  refine ⟨hload, ?_⟩
  rw [hload]
  rfl

/-- An index with numbers at their limits and characters that are escaped, made in the last second
of a leap day. -/
def awkward : Index where
  schemaVersion := 1
  root := ⟨"/w/\"ü\"\\"⟩
  generatedAt := ⟨0, 2, 29, 23, 59, 60, 120000⟩
  files := [
    { path := ⟨"a b.go"⟩
      language := .go
      size := 18446744073709551615
      modTime := -9223372036854775808
      imports := ["", "\x00\x1f\x7f", "😀"]
      symbols := [
        ⟨⟨"a b.go"⟩, .method, "f", "func (t T) f()\n\t\x08\x0c\r", some "T", 0, 4294967295⟩,
        ⟨⟨"a b.go"⟩, .type, "T", "type T", none, 1, 1⟩]
      references := [⟨⟨"a b.go"⟩, "reference.call", "\\u0041", 1, 2, 3, 4294967295⟩] },
    { path := ⟨""⟩
      language := .csharp
      size := 0
      modTime := 9223372036854775807
      imports := []
      symbols := []
      references := [] }]
  problems := [⟨⟨"/"⟩, .grammarUnavailable, "a / b"⟩]

theorem loadBytes_save_awkward :
    (awkward.generatedAt.isValid = true ∧ awkward.generatedAt.year = 0) ∧
      loadBytes (save awkward).toUTF8 = .ok awkward ∧
      (loadBytes (save awkward).toUTF8).map (fun j => (save j).toUTF8) =
        .ok (save awkward).toUTF8 :=
  ⟨by decide, loadBytes_save awkward rfl (by decide) (by decide) (by decide)⟩

end Snapshot

end SourceAtlas
