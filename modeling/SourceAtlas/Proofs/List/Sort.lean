import Mathlib.Data.List.Sort
import Mathlib.Tactic.Common

/-!
# Stable sorting

Sorting keeps the order of elements of which none comes before the other. A sorted list is built
from its end: each element goes in front of everything that it may stand before.

* **`mergeSort_cons_eq`**: where the first element goes;
* `filter_mergeSort`: what is left out of a sorted list may be left out before;
* `mergeSort_append`: what may stand before all the rest can be sorted apart;
* `pairwise_lt_mergeSort`: sorting what is different gives a list that increases;
* `eq_of_pairwise_lt`: a list that increases is told by its members.
-/

namespace SourceAtlas

open Std

/-! ## Sorting by an order -/

section Order

variable {α : Type} {le : α → α → Bool}
  (trans : ∀ a b c, le a b = true → le b c = true → le a c = true)
  (total : ∀ a b, (le a b || le b a) = true)

include trans total

/-- **The first element goes in front of everything that it may stand before.** -/
theorem mergeSort_cons_eq (a : α) (l : List α) : (a :: l).mergeSort le =
    (l.mergeSort le).filter (fun b => !le a b) ++ a :: (l.mergeSort le).filter (le a) := by
  obtain ⟨l₁, l₂, hcons, hl, hfront⟩ := List.mergeSort_cons trans total a l
  have hsorted := List.pairwise_mergeSort trans total (a :: l)
  rw [hcons, List.pairwise_append, List.pairwise_cons] at hsorted
  have hbehind : ∀ b ∈ l₂, le a b = true := hsorted.2.1.1
  have hfront' : ∀ b ∈ l₁, le a b = false := fun b hb => by simpa using hfront b hb
  rw [hcons, hl, List.filter_append, List.filter_append, List.filter_eq_self.mpr hfront,
    List.filter_eq_self.mpr hbehind, List.filter_eq_nil_iff.mpr fun b hb => by simp [hbehind b hb],
    List.filter_eq_nil_iff.mpr fun b hb => by simp [hfront' b hb], List.append_nil,
    List.nil_append]

theorem filter_mergeSort (p : α → Bool) (l : List α) :
    (l.mergeSort le).filter p = (l.filter p).mergeSort le := by
  induction l with
  | nil => simp
  | cons a l ih =>
    by_cases ha : p a = true
    · rw [mergeSort_cons_eq trans total, List.filter_append, List.filter_cons_of_pos ha,
        List.filter_comm p, List.filter_comm p, ih, List.filter_cons_of_pos ha,
        mergeSort_cons_eq trans total]
    · obtain ⟨l₁, l₂, hcons, hl, -⟩ := List.mergeSort_cons trans total a l
      rw [hcons, List.filter_append, List.filter_cons_of_neg ha, ← List.filter_append, ← hl, ih,
        List.filter_cons_of_neg ha]

/-- What may stand before all the rest can be sorted apart. -/
theorem mergeSort_append {l m : List α} (h : ∀ a ∈ l, ∀ b ∈ m, le a b = true) :
    (l ++ m).mergeSort le = l.mergeSort le ++ m.mergeSort le := by
  induction l with
  | nil => simp
  | cons a l ih =>
    rw [List.forall_mem_cons] at h
    have hnone : (m.mergeSort le).filter (fun b => !le a b) = [] :=
      List.filter_eq_nil_iff.mpr fun b hb => by simp [h.1 b (List.mem_mergeSort.mp hb)]
    have hall : (m.mergeSort le).filter (le a) = m.mergeSort le :=
      List.filter_eq_self.mpr fun b hb => h.1 b (List.mem_mergeSort.mp hb)
    rw [List.cons_append, mergeSort_cons_eq trans total, mergeSort_cons_eq trans total, ih h.2,
      List.filter_append, List.filter_append, hnone, hall, List.append_nil, List.append_assoc,
      List.cons_append]

end Order

/-! ## Sorting by a comparison -/

section Comparison

variable {α : Type} {cmp : α → α → Ordering} [TransCmp cmp]

theorem isLE_iff_ne_gt {o : Ordering} : o.isLE = true ↔ (o != .gt) = true := by
  cases o <;> simp

theorem ne_gt_trans (a b c : α) (hab : (cmp a b != .gt) = true) (hbc : (cmp b c != .gt) = true) :
    (cmp a c != .gt) = true := by
  rw [← isLE_iff_ne_gt] at *
  exact TransCmp.isLE_trans hab hbc

theorem ne_gt_total (a b : α) : ((cmp a b != .gt) || (cmp b a != .gt)) = true := by
  have swap : cmp b a = (cmp a b).swap := OrientedCmp.eq_swap
  rw [swap]
  cases cmp a b <;> simp

theorem pairwise_lt_mergeSort {l : List α} (different : l.Pairwise fun a b => cmp a b ≠ .eq) :
    (l.mergeSort fun a b => cmp a b != .gt).Pairwise fun a b => cmp a b = .lt := by
  have sorted := List.pairwise_mergeSort (@ne_gt_trans α cmp _) ne_gt_total l
  have apart : (l.mergeSort fun a b => cmp a b != .gt).Pairwise fun a b => cmp a b ≠ .eq := by
    refine (List.mergeSort_perm _ _).symm.pairwise different fun {a b} hab => ?_
    rwa [ne_eq, OrientedCmp.eq_comm]
  refine (sorted.and apart).imp fun {a b} hab => ?_
  obtain ⟨hle, hne⟩ := hab
  cases h : cmp a b <;> simp_all

omit [TransCmp cmp] in
theorem mergeSort_of_pairwise_lt {l : List α} (h : l.Pairwise fun a b => cmp a b = .lt) :
    (l.mergeSort fun a b => cmp a b != .gt) = l :=
  List.mergeSort_of_pairwise (h.imp fun hab => by simp [hab])

/-- A list that increases is told by its members. -/
theorem eq_of_pairwise_lt {l m : List α} (hl : l.Pairwise fun a b => cmp a b = .lt)
    (hm : m.Pairwise fun a b => cmp a b = .lt) (h : ∀ a, a ∈ l ↔ a ∈ m) : l = m := by
  have irrefl : Std.Irrefl fun a b => cmp a b = .lt := by
    refine ⟨fun a (ha : cmp a a = .lt) => ?_⟩
    have self : cmp a a = .eq := ReflCmp.compare_self
    rw [self] at ha
    cases ha
  have antisymm : Std.Antisymm fun a b => cmp a b = .lt := by
    refine ⟨fun a b (hab : cmp a b = .lt) (hba : cmp b a = .lt) => ?_⟩
    have swap : cmp b a = (cmp a b).swap := OrientedCmp.eq_swap
    rw [hab, hba] at swap
    cases swap
  exact List.Pairwise.eq_of_mem_iff hl hm h

end Comparison

end SourceAtlas
