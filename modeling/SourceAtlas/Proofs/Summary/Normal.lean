import Mathlib.Data.List.Pairwise
import SourceAtlas.Outline
import SourceAtlas.Proofs.List.Sort
import SourceAtlas.Proofs.Path.Order

/-!
# Normal summaries

In a *normal* summary the symbols and the references stand in their order, nothing is said twice,
and everything that is listed lies in the file of the summary.

* `firstBy_pairwise`, `firstBy_map`: the first element for each key;
* `Symbol.key_eq_of_compare`, `Reference.key_eq_of_compare`: what the orders tell apart;
* `Summary.IsNormal`, `Summary.IsNormal.withPath`, `Summary.withPath_normalize`;
* **`Outline.isNormal_ofSource`**: the outline of every source is normal.
-/

namespace SourceAtlas

open Std

/-! ## The first for each key -/

theorem firstBy_sublist {α κ : Type} [DecidableEq κ] (key : α → κ) (l : List α) :
    (firstBy key l).Sublist l := by
  induction l with
  | nil => exact List.Sublist.refl _
  | cons a l ih => exact (List.filter_sublist.trans ih).cons_cons a

theorem firstBy_pairwise {α κ : Type} [DecidableEq κ] (key : α → κ) (l : List α) :
    (firstBy key l).Pairwise fun a b => key a ≠ key b := by
  induction l with
  | nil => exact List.Pairwise.nil
  | cons a l ih =>
    refine List.Pairwise.cons (fun b hb => ?_) (ih.filter _)
    have hne : key b ≠ key a := by simpa using (List.mem_filter.mp hb).2
    exact hne.symm

theorem firstBy_map {α κ : Type} [DecidableEq κ] {key : α → κ} {f : α → α}
    (h : ∀ a, key (f a) = key a) (l : List α) :
    firstBy key (l.map f) = (firstBy key l).map f := by
  induction l with
  | nil => rfl
  | cons a l ih =>
    rw [List.map_cons, firstBy, firstBy, ih, List.filter_map, List.map_cons]
    simp only [Function.comp_def, h]

/-! ## Orders -/

theorem SymbolKind.rank_inj {k l : SymbolKind} (h : k.rank = l.rank) : k = l := by
  cases k <;> cases l <;> first | rfl | cases h

namespace Symbol

instance : TransCmp Symbol.compare :=
  inferInstanceAs <| TransCmp <| compareLex (compareOn fun a : Symbol => a.startLine.toNat) <|
    compareLex (compareOn fun a => a.endLine.toNat) <|
    compareLex (compareOn fun a => a.kind.rank) (compareOn fun a => a.name)

theorem key_eq_of_compare {a b : Symbol} (h : a.compare b = .eq) : a.key = b.key := by
  simp only [compare, Ordering.then_eq_eq, Std.compare_eq_iff_eq] at h
  obtain ⟨hstart, hend, hkind, hname⟩ := h
  rw [key, key, UInt32.toNat_inj.mp hstart, UInt32.toNat_inj.mp hend, SymbolKind.rank_inj hkind,
    hname]

end Symbol

namespace Reference

instance : TransCmp Reference.compare :=
  inferInstanceAs <| TransCmp <| compareLex (compareOn fun a : Reference => a.startLine.toNat) <|
    compareLex (compareOn fun a => a.startColumn.toNat) <|
    compareLex (compareOn fun a => a.endLine.toNat) <|
    compareLex (compareOn fun a => a.endColumn.toNat) <|
    compareLex (compareOn fun a => a.kind) (compareOn fun a => a.name)

theorem key_eq_of_compare {a b : Reference} (h : a.compare b = .eq) : a.key = b.key := by
  simp only [compare, Ordering.then_eq_eq, Std.compare_eq_iff_eq] at h
  obtain ⟨hline, hcolumn, -, -, hkind, hname⟩ := h
  rw [key, key, UInt32.toNat_inj.mp hline, UInt32.toNat_inj.mp hcolumn, hkind, hname]

end Reference

/-! ## Normal summaries -/

namespace Summary

/-- Symbols and references increase, imports are different, and all of them lie in one file. -/
structure IsNormal (s : Summary) : Prop where
  /-- Symbols increase by first line, last line, kind and name. -/
  symbols : s.symbols.Pairwise fun a b => a.compare b = .lt
  /-- References increase by position, kind and name. -/
  references : s.references.Pairwise fun a b => a.compare b = .lt
  imports : s.imports.Nodup
  symbol_file : ∀ x ∈ s.symbols, x.file = s.path
  reference_file : ∀ x ∈ s.references, x.file = s.path

theorem IsNormal.withPath {s : Summary} (hs : s.IsNormal) (p : Path) : (s.withPath p).IsNormal where
  symbols := List.pairwise_map.mpr hs.symbols
  references := List.pairwise_map.mpr hs.references
  imports := hs.imports
  symbol_file x hx := by
    obtain ⟨y, -, rfl⟩ := List.mem_map.mp hx
    rfl
  reference_file x hx := by
    obtain ⟨y, -, rfl⟩ := List.mem_map.mp hx
    rfl

/-- **Normalization makes a summary normal**, if everything in it lies in its file. -/
theorem isNormal_normalize {s : Summary} (hsymbols : ∀ x ∈ s.symbols, x.file = s.path)
    (hreferences : ∀ x ∈ s.references, x.file = s.path) : s.normalize.IsNormal where
  symbols := pairwise_lt_mergeSort <| (firstBy_pairwise Symbol.key s.symbols).imp
    fun hne heq => hne (Symbol.key_eq_of_compare heq)
  references := pairwise_lt_mergeSort <| (firstBy_pairwise Reference.key s.references).imp
    fun hne heq => hne (Reference.key_eq_of_compare heq)
  imports := firstBy_pairwise id s.imports
  symbol_file x hx := hsymbols x ((firstBy_sublist _ _).subset (List.mem_mergeSort.mp hx))
  reference_file x hx := hreferences x ((firstBy_sublist _ _).subset (List.mem_mergeSort.mp hx))

/-- The canonical form under another path is that of the summary under the path. -/
theorem withPath_normalize (s : Summary) (q : Path) :
    s.normalize.withPath q = (s.withPath q).normalize := by
  have symbols : firstBy Symbol.key (s.symbols.map fun x => { x with file := q }) =
      (firstBy Symbol.key s.symbols).map fun x => { x with file := q } :=
    firstBy_map (by exact fun _ => rfl) _
  have references : firstBy Reference.key (s.references.map fun x => { x with file := q }) =
      (firstBy Reference.key s.references).map fun x => { x with file := q } :=
    firstBy_map (by exact fun _ => rfl) _
  simp only [withPath, normalize, symbols, references]
  congr 1
  · exact List.map_mergeSort fun _ _ _ _ => rfl
  · exact List.map_mergeSort fun _ _ _ _ => rfl

end Summary

/-! ## Outlines -/

theorem Tag.file_of_mem_symbols {language : Language} {path : Path} {tags : List Tag} {x : Symbol}
    (hx : x ∈ symbols language path tags) : x.file = path := by
  obtain ⟨f, -, hf⟩ := List.mem_filterMap.mp hx
  simp only [symbol?, Option.bind_eq_bind, Option.bind_eq_some_iff] at hf
  obtain ⟨name, -, hf⟩ := hf
  by_cases hname : name = ""
  · rw [if_pos hname] at hf
    cases hf
  · rw [if_neg hname] at hf
    obtain ⟨text, -, hf⟩ := Option.bind_eq_some_iff.mp hf
    cases hf
    rfl

theorem Tag.file_of_mem_references {path : Path} {tags : List Tag} {x : Reference}
    (hx : x ∈ references path tags) : x.file = path := by
  obtain ⟨t, -, ht⟩ := List.mem_filterMap.mp hx
  simp only [reference?, Option.bind_eq_bind, Option.bind_eq_some_iff] at ht
  obtain ⟨kind, -, spot, -, name, -, ht⟩ := ht
  cases ht
  rfl

/-- **The outline of every source is normal.** -/
theorem Outline.isNormal_ofSource (language : Language) (path : Path) (source : ByteArray) :
    (ofSource language path source).summary.IsNormal :=
  Summary.isNormal_normalize (fun _ hx => Tag.file_of_mem_symbols hx)
    fun _ hx => Tag.file_of_mem_references hx

end SourceAtlas
