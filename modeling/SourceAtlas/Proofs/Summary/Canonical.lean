import Mathlib.Data.List.Sort
import SourceAtlas.Proofs.Summary.Normal

/-!
# Canonical summaries

A summary is brought into its canonical form by keeping the first of several entries with one key
and by sorting. What results depends neither on the path nor on the order of the entries, unless
there are different ones with one key.

* `mem_firstBy`, `firstBy_of_pairwise`, `pairwise_idxOf_firstBy`: the first entry for each key;
* `sortedFirst`, `mem_sortedFirst`, `sortedFirst_sortedFirst`, `sortedFirst_perm`: the first entries
  in order;
* **`Summary.normalize_canonical`**: the canonical form of a summary.
-/

namespace SourceAtlas

open Std

/-! ## The first for each key -/

section First

variable {α κ : Type} [DecidableEq κ] {key : α → κ} {l m : List α} {x : α}

theorem mem_firstBy : x ∈ firstBy key l ↔ l.find? (key · = key x) = some x := by
  induction l with
  | nil => simp [firstBy]
  | cons a l ih =>
    rw [firstBy, List.mem_cons, List.mem_filter, ih, List.find?_cons]
    by_cases hkey : key a = key x
    · simp [hkey, eq_comm]
    · have hne : x ≠ a := fun h => hkey (h ▸ rfl)
      simp [hkey, hne, Ne.symm hkey]

theorem firstBy_of_pairwise (h : l.Pairwise fun a b => key a ≠ key b) : firstBy key l = l := by
  induction l with
  | nil => rfl
  | cons a l ih =>
    rw [List.pairwise_cons] at h
    rw [firstBy, ih h.2, List.filter_eq_self.mpr fun b hb => by simpa using (h.1 b hb).symm]

/-- Where keys tell the entries apart, one of each is kept. -/
theorem mem_firstBy_of_keyed (h : ∀ a ∈ l, ∀ b ∈ l, key a = key b → a = b) :
    x ∈ firstBy key l ↔ x ∈ l := by
  refine ⟨fun hx => (firstBy_sublist key l).subset hx, fun hx => ?_⟩
  rw [mem_firstBy]
  obtain ⟨a, ha⟩ := Option.isSome_iff_exists.mp
    (List.find?_isSome.mpr ⟨x, hx, by simp⟩ : (l.find? (key · = key x)).isSome)
  have hkey : key a = key x := by simpa using List.find?_some ha
  rw [ha, h a (List.mem_of_find?_eq_some ha) x hx hkey]

theorem pairwise_idxOf_firstBy [DecidableEq α] (l : List α) :
    (firstBy id l).Pairwise fun a b => l.idxOf a < l.idxOf b := by
  induction l with
  | nil => exact .nil
  | cons a l ih =>
    have hne : ∀ b ∈ (firstBy id l).filter fun b => id b ≠ id a, a ≠ b := by
      intro b hb
      simpa using Ne.symm (of_decide_eq_true (List.mem_filter.mp hb).2)
    refine List.Pairwise.cons (fun b hb => ?_) ((ih.filter _).imp_of_mem fun hb hc hbc => ?_)
    · rw [List.idxOf_cons_self, List.idxOf_cons_ne _ (hne b hb)]
      exact Nat.succ_pos _
    · rw [List.idxOf_cons_ne _ (hne _ hb), List.idxOf_cons_ne _ (hne _ hc)]
      exact Nat.succ_lt_succ hbc

end First

/-! ## The first for each key, in order -/

section Sorted

variable {α κ : Type} [DecidableEq κ]

/-- The first entry for each key, sorted. -/
def sortedFirst (key : α → κ) (cmp : α → α → Ordering) (l : List α) : List α :=
  (firstBy key l).mergeSort fun a b => cmp a b != .gt

/-- A comparison tells entries with different keys apart. -/
def TellsApart (cmp : α → α → Ordering) (key : α → κ) : Prop :=
  ∀ a b, cmp a b = .eq → key a = key b

variable {key : α → κ} {cmp : α → α → Ordering} [TransCmp cmp] {l m : List α} {x : α}

omit [TransCmp cmp] in
theorem mem_sortedFirst :
    x ∈ sortedFirst key cmp l ↔ l.find? (key · = key x) = some x := by
  rw [sortedFirst, List.mem_mergeSort, mem_firstBy]

variable (hkey : TellsApart cmp key)

include hkey

theorem pairwise_sortedFirst (l : List α) :
    (sortedFirst key cmp l).Pairwise fun a b => cmp a b = .lt :=
  pairwise_lt_mergeSort ((firstBy_pairwise key l).imp fun hne heq => hne (hkey _ _ heq))

theorem sortedFirst_sortedFirst (l : List α) :
    sortedFirst key cmp (sortedFirst key cmp l) = sortedFirst key cmp l := by
  have hdifferent : (sortedFirst key cmp l).Pairwise fun a b => key a ≠ key b :=
    (List.mergeSort_perm _ _).symm.pairwise (firstBy_pairwise key l) Ne.symm
  have hfirst : firstBy key (sortedFirst key cmp l) = sortedFirst key cmp l :=
    firstBy_of_pairwise hdifferent
  rw [sortedFirst, hfirst, mergeSort_of_pairwise_lt (pairwise_sortedFirst hkey l)]

/-- Where keys tell the entries apart, their order does not matter. -/
theorem sortedFirst_perm (h : m.Perm l) (hkeyed : ∀ a ∈ l, ∀ b ∈ l, key a = key b → a = b) :
    sortedFirst key cmp m = sortedFirst key cmp l := by
  have hkeyed' : ∀ a ∈ m, ∀ b ∈ m, key a = key b → a = b := fun a ha b hb =>
    hkeyed a (h.mem_iff.mp ha) b (h.mem_iff.mp hb)
  refine eq_of_pairwise_lt (pairwise_sortedFirst hkey m) (pairwise_sortedFirst hkey l) fun a => ?_
  rw [sortedFirst, sortedFirst, List.mem_mergeSort, List.mem_mergeSort,
    mem_firstBy_of_keyed hkeyed, mem_firstBy_of_keyed hkeyed', h.mem_iff]

end Sorted

/-! ## The canonical form -/

theorem Symbol.tellsApart : TellsApart Symbol.compare Symbol.key := fun _ _ => key_eq_of_compare

theorem Reference.tellsApart : TellsApart Reference.compare Reference.key :=
  fun _ _ => key_eq_of_compare

namespace Summary

theorem normalize_normalize (s : Summary) : s.normalize.normalize = s.normalize := by
  have himports : firstBy id s.normalize.imports = s.normalize.imports :=
    firstBy_of_pairwise (firstBy_pairwise id s.imports)
  have hsymbols : sortedFirst Symbol.key Symbol.compare s.normalize.symbols =
      s.normalize.symbols :=
    sortedFirst_sortedFirst Symbol.tellsApart s.symbols
  have hreferences : sortedFirst Reference.key Reference.compare s.normalize.references =
      s.normalize.references :=
    sortedFirst_sortedFirst Reference.tellsApart s.references
  calc s.normalize.normalize
    _ = { s.normalize with
          imports := firstBy id s.normalize.imports
          symbols := sortedFirst Symbol.key Symbol.compare s.normalize.symbols
          references := sortedFirst Reference.key Reference.compare s.normalize.references } := rfl
    _ = s.normalize := by rw [himports, hsymbols, hreferences]

/-- **Normalization brings a summary into canonical form.** Symbols and references increase, and
they are the first ones for their keys. Imports are listed once, in the order in which they first
occur, and everything else stays. The canonical form has itself as canonical form, it does not
depend on the path, and where keys tell the entries apart it does not depend on their order. -/
theorem normalize_canonical (s : Summary) :
    let t := s.normalize
    t.symbols.Pairwise (fun a b => a.compare b = .lt) ∧
    (∀ x, x ∈ t.symbols ↔ s.symbols.find? (·.key = x.key) = some x) ∧
    t.references.Pairwise (fun a b => a.compare b = .lt) ∧
    (∀ x, x ∈ t.references ↔ s.references.find? (·.key = x.key) = some x) ∧
    t.imports.Pairwise (fun a b => s.imports.idxOf a < s.imports.idxOf b) ∧
    (∀ x, x ∈ t.imports ↔ x ∈ s.imports) ∧
    (t.path = s.path ∧ t.language = s.language ∧ t.size = s.size ∧ t.modTime = s.modTime) ∧
    t.normalize = t ∧
    (∀ p, (s.withPath p).normalize = t.withPath p) ∧
    (∀ u : Summary, u.symbols.Perm s.symbols →
      (∀ a ∈ s.symbols, ∀ b ∈ s.symbols, a.key = b.key → a = b) →
      u.normalize.symbols = t.symbols) ∧
    ∀ u : Summary, u.references.Perm s.references →
      (∀ a ∈ s.references, ∀ b ∈ s.references, a.key = b.key → a = b) →
      u.normalize.references = t.references := by
  intro t
  refine ⟨pairwise_sortedFirst Symbol.tellsApart s.symbols,
    fun x => mem_sortedFirst, pairwise_sortedFirst Reference.tellsApart _,
    fun x => mem_sortedFirst, pairwise_idxOf_firstBy s.imports,
    fun x => mem_firstBy_of_keyed fun a _ b _ hab => hab, ⟨rfl, rfl, rfl, rfl⟩,
    normalize_normalize s, fun p => (withPath_normalize s p).symm, fun u hu hkeyed => ?_,
    fun u hu hkeyed => ?_⟩
  · exact sortedFirst_perm Symbol.tellsApart hu hkeyed
  · exact sortedFirst_perm Reference.tellsApart hu hkeyed

/-- A file with the given functions and calls, all of them told by their lines. -/
def listing (functions : List (String × UInt32)) (calls : List (String × UInt32)) : Summary where
  path := ⟨"a.go"⟩
  language := .go
  size := 60
  modTime := 0
  imports := ["fmt", "os", "fmt"]
  symbols := functions.map fun (name, line) => ⟨⟨"a.go"⟩, .function, name, "", none, line, line + 2⟩
  references := calls.map fun (name, line) =>
    ⟨⟨"a.go"⟩, "reference.call", name, line, 9, line, 10⟩

/-- Two listings of one file in different orders, with entries that stand there twice. -/
theorem normalize_canonical_listing :
    let s := listing [("B", 5), ("A", 1), ("B", 5)] [("A", 6), ("B", 2), ("A", 6)]
    let u := listing [("B", 5), ("B", 5), ("A", 1)] [("B", 2), ("A", 6), ("A", 6)]
    (u.symbols.Perm s.symbols ∧ ∀ a ∈ s.symbols, ∀ b ∈ s.symbols, a.key = b.key → a = b) ∧
    (u.references.Perm s.references ∧
      ∀ a ∈ s.references, ∀ b ∈ s.references, a.key = b.key → a = b) ∧
    u.normalize.symbols = s.normalize.symbols ∧
    u.normalize.references = s.normalize.references := by
  intro s u
  have hsymbols : u.symbols.Perm s.symbols ∧
      ∀ a ∈ s.symbols, ∀ b ∈ s.symbols, a.key = b.key → a = b := by decide
  have hreferences : u.references.Perm s.references ∧
      ∀ a ∈ s.references, ∀ b ∈ s.references, a.key = b.key → a = b := by decide
  obtain ⟨-, -, -, -, -, -, -, -, -, hsymbols_eq, hreferences_eq⟩ := normalize_canonical s
  exact ⟨hsymbols, hreferences, hsymbols_eq u hsymbols.1 hsymbols.2,
    hreferences_eq u hreferences.1 hreferences.2⟩

end Summary

end SourceAtlas
