import Mathlib.Data.List.Induction
import Mathlib.Tactic.Common

/-!
# The last of the best

A list is gone through from the front, and an element takes the place of the best one so far if it
is as good or better.

* `IsBetter`: the step of such a search;
* `IsLastBest`: as good as everything before and better than everything after;
* **`foldl_best_eq_some_iff`**: the search ends with the last one of the best elements.
-/

namespace SourceAtlas

variable {α : Type}

/-- One step of a search keeps the better one of two elements, and the later one of equals. -/
structure IsBetter (le : α → α → Bool) (step : Option α → α → Option α) : Prop where
  first : ∀ x, step none x = some x
  later : ∀ b x, step (some b) x = if le b x then some x else some b
  trans : ∀ a b c, le a b = true → le b c = true → le a c = true
  total : ∀ a b, (le a b || le b a) = true

/-- An element of a list that is as good as all before it and better than all after it. -/
def IsLastBest (le : α → α → Bool) (l : List α) (m : α) : Prop :=
  ∃ l₁ l₂, l = l₁ ++ m :: l₂ ∧ (∀ x ∈ l₁, le x m = true) ∧ ∀ x ∈ l₂, le m x = false

variable {le : α → α → Bool} {step : Option α → α → Option α} {l : List α} {m n : α}

theorem IsLastBest.le_best (hs : IsBetter le step) (h : IsLastBest le l m) :
    ∀ x ∈ l, le x m = true := by
  obtain ⟨l₁, l₂, rfl, h₁, h₂⟩ := h
  have hself : le m m = true := by simpa using hs.total m m
  intro x hx
  rcases List.mem_append.mp hx with hx | hx
  · exact h₁ x hx
  · rcases List.mem_cons.mp hx with rfl | hx
    · exact hself
    · have := hs.total m x
      simpa [h₂ x hx] using this

theorem IsLastBest.unique (hm : IsLastBest le l m) (hn : IsLastBest le l n) : m = n := by
  obtain ⟨l₁, l₂, rfl, h₁, h₂⟩ := hm
  obtain ⟨k₁, k₂, hk, g₁, g₂⟩ := hn
  rw [List.append_eq_append_iff] at hk
  rcases hk with ⟨a, rfl, ha⟩ | ⟨a, rfl, ha⟩
  · cases a with
    | nil => exact (List.cons.inj ha).1
    | cons y a =>
      -- `n` comes after `m`
      obtain ⟨rfl, rfl⟩ := List.cons.inj ha
      have := g₁ m (by simp)
      simp [h₂ n (by simp)] at this
  · cases a with
    | nil => exact (List.cons.inj ha).1.symm
    | cons y a =>
      obtain ⟨rfl, rfl⟩ := List.cons.inj ha
      have := h₁ n (by simp)
      simp [g₂ m (by simp)] at this

theorem foldl_best_isSome (hs : IsBetter le step) (hl : l ≠ []) :
    ∃ m, l.foldl step none = some m := by
  induction l using List.reverseRecOn with
  | nil => exact absurd rfl hl
  | append_singleton l x ih =>
    rw [List.foldl_append, List.foldl_cons, List.foldl_nil]
    cases l.foldl step none with
    | none => exact ⟨x, hs.first x⟩
    | some b =>
      rw [hs.later]
      split_ifs
      · exact ⟨x, rfl⟩
      · exact ⟨b, rfl⟩

theorem isLastBest_of_foldl (hs : IsBetter le step) (h : l.foldl step none = some m) :
    IsLastBest le l m := by
  induction l using List.reverseRecOn generalizing m with
  | nil => cases h
  | append_singleton l x ih =>
    rw [List.foldl_append, List.foldl_cons, List.foldl_nil] at h
    cases hb : l.foldl step none with
    | none =>
      rw [hb, hs.first] at h
      cases h
      by_cases hl : l = []
      · exact ⟨[], [], by simp [hl], by simp, by simp⟩
      · obtain ⟨b, hsome⟩ := foldl_best_isSome hs hl
        rw [hb] at hsome
        cases hsome
    | some b =>
      rw [hb, hs.later] at h
      split_ifs at h with hle
      · cases h
        refine ⟨l, [], rfl, fun y hy => ?_, by simp⟩
        exact hs.trans y b x (IsLastBest.le_best hs (ih hb) y hy) hle
      · cases h
        obtain ⟨l₁, l₂, rfl, h₁, h₂⟩ := ih hb
        refine ⟨l₁, l₂ ++ [x], by simp, h₁, fun y hy => ?_⟩
        rcases List.mem_append.mp hy with hy | hy
        · exact h₂ y hy
        · rw [List.mem_singleton.mp hy]
          simpa using hle

/-- **The search ends with the last one of the best elements.** -/
theorem foldl_best_eq_some_iff (hs : IsBetter le step) :
    l.foldl step none = some m ↔ IsLastBest le l m := by
  refine ⟨isLastBest_of_foldl hs, fun hm => ?_⟩
  have hl : l ≠ [] := by
    obtain ⟨l₁, l₂, rfl, -, -⟩ := hm
    simp
  obtain ⟨n, hn⟩ := foldl_best_isSome hs hl
  rw [hn, (isLastBest_of_foldl hs hn).unique hm]

end SourceAtlas
