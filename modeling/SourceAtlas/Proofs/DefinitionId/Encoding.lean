import Mathlib.Tactic.Common
import SourceAtlas.DefinitionId
import SourceAtlas.Proofs.Text.Split

/-!
# What an id tells

An id is the text of a file, a kind, a name and a line with the character U+0000 between them. If
file and name do not hold that character, nothing is lost.

* `DefinitionId.splitBy_make`: the pieces of an id;
* **`DefinitionId.make_inj`**: an id tells what it is made from.
-/

namespace SourceAtlas

/-- A text without the character that stands between the parts of an id. -/
def IsPlain (s : String) : Prop := DefinitionId.separator ∉ s.toList

instance (s : String) : Decidable (IsPlain s) := by unfold IsPlain; infer_instance

theorem SymbolKind.isPlain_name (k : SymbolKind) : IsPlain k.name := by
  cases k <;> decide

theorem SymbolKind.name_inj {k l : SymbolKind} (h : k.name = l.name) : k = l := by
  revert h
  cases k <;> cases l <;> decide

theorem toList_toString_nat (n : Nat) : (toString n).toList = Nat.toDigits 10 n := by
  rw [Nat.toString_eq_repr, Nat.repr_eq_ofList_toDigits, String.toList_ofList]

theorem isPlain_toString_nat (n : Nat) : IsPlain (toString n) := by
  intro h
  rw [toList_toString_nat] at h
  exact absurd (Nat.isDigit_of_mem_toDigits (by omega) (by omega) h) (by decide)

theorem toString_nat_inj {m n : Nat} (h : toString m = toString n) : m = n := by
  have hdigits : Nat.toDigits 10 m = Nat.toDigits 10 n := by
    rw [← toList_toString_nat, h, toList_toString_nat]
  rw [← @Nat.ofDigitChars_ten_toDigits m, hdigits, Nat.ofDigitChars_ten_toDigits]

namespace DefinitionId

variable {p q : Path} {k l : SymbolKind} {m n : String} {i j : UInt32}

theorem splitBy_make (hp : IsPlain p.text) (hm : IsPlain m) :
    Text.splitBy (· == separator) (make p k m i).raw =
      [p.text, k.name, m, toString i.toNat] := by
  refine Text.splitBy_intercalate (by simp) ?_
  simp only [List.forall_mem_cons, List.not_mem_nil, false_implies, implies_true, and_true]
  exact ⟨hp, k.isPlain_name, hm, isPlain_toString_nat _⟩

/-- **An id tells what it is made from.** -/
theorem make_inj (hp : IsPlain p.text) (hm : IsPlain m) (hq : IsPlain q.text) (hn : IsPlain n)
    (h : make p k m i = make q l n j) : p = q ∧ k = l ∧ m = n ∧ i = j := by
  have hparts : [p.text, k.name, m, toString i.toNat] = [q.text, l.name, n, toString j.toNat] := by
    rw [← splitBy_make hp hm, h, splitBy_make hq hn]
  simp only [List.cons.injEq, and_true] at hparts
  obtain ⟨hfile, hkind, hname, hline⟩ := hparts
  refine ⟨?_, SymbolKind.name_inj hkind, hname, UInt32.toNat_inj.mp (toString_nat_inj hline)⟩
  cases p
  cases q
  exact congrArg Path.mk hfile

end DefinitionId

end SourceAtlas
