import Mathlib.Data.List.TakeWhile
import Mathlib.Tactic.Common
import SourceAtlas.Edit

/-!
# Points before and after an edit

An edit leaves the bytes in front of it and behind it as they are. No point in front of it changes.
Behind it all points go up or down by the same number of rows, and only those on the row where the
edit ends move along their row.

* `Point.move`, **`pointAfter_append`**: a point is reached in steps;
* `exists_commonPrefix`, `Edit.exists_parts`: what two buffers share and what an edit replaces;
* **`Edit.located_between`**: where the bytes around an edit come to lie.
-/

namespace SourceAtlas

/-! ## Steps from point to point -/

namespace Point

/-- Points are ordered by row and then by column. -/
instance : LE Point where
  le p q := p.row < q.row ∨ (p.row = q.row ∧ p.column ≤ q.column)

/-- The point that is reached from a point by reading bytes which lead to `step` from the start of a
buffer. -/
def move (p step : Point) : Point where
  row := p.row + step.row
  column := if step.row = 0 then p.column + step.column else step.column

variable (p step : Point)

@[simp] theorem move_row : (p.move step).row = p.row + step.row := rfl

theorem move_column_of_eq (h : step.row = 0) :
    (p.move step).column = p.column + step.column := if_pos h

theorem move_column_of_ne (h : step.row ≠ 0) : (p.move step).column = step.column := if_neg h

theorem le_move : p ≤ p.move step := by
  by_cases h : step.row = 0
  · exact .inr ⟨by rw [move_row, h, Nat.add_zero], by rw [move_column_of_eq p step h]; omega⟩
  · exact .inl (by rw [move_row]; omega)

end Point

/-- All bytes lie in one row if and only if none of them ends a line. -/
theorem takeWhile_reverse_eq_iff {bs : Bytes} :
    bs.reverse.takeWhile (· != newline) = bs.reverse ↔ (pointAfter bs).row = 0 := by
  rw [List.takeWhile_eq_self_iff, pointAfter, List.count_eq_zero]
  constructor
  · intro h hmem
    have := h newline (List.mem_reverse.mpr hmem)
    simp at this
  · intro h b hb
    rw [bne_iff_ne]
    rintro rfl
    exact h (List.mem_reverse.mp hb)

/-- **Reading on leads from point to point.** -/
theorem pointAfter_append (a b : Bytes) :
    pointAfter (a ++ b) = (pointAfter a).move (pointAfter b) := by
  have hrow : (pointAfter (a ++ b)).row = (pointAfter a).row + (pointAfter b).row :=
    List.count_append
  have hcolumn : (pointAfter (a ++ b)).column = ((pointAfter a).move (pointAfter b)).column := by
    rw [pointAfter, List.reverse_append, List.takeWhile_append]
    by_cases hb : (pointAfter b).row = 0
    · -- the row that `a` ends in goes on through all of `b`
      have hall := takeWhile_reverse_eq_iff.mpr hb
      rw [if_pos (congrArg List.length hall), Point.move_column_of_eq _ _ hb, List.length_append,
        Nat.add_comm]
      simp only [pointAfter, hall]
    · have hsome : (b.reverse.takeWhile (· != newline)).length ≠ b.reverse.length := fun hlength =>
        hb (takeWhile_reverse_eq_iff.mp ((List.takeWhile_prefix _).eq_of_length hlength))
      rw [if_neg hsome, Point.move_column_of_ne _ _ hb]
      rfl
  exact congrArg₂ Point.mk hrow hcolumn

theorem pointAt_append (a b : Bytes) (k : Nat) :
    pointAt (a ++ b) (a.length + k) = (pointAfter a).move (pointAt b k) := by
  rw [pointAt, List.take_length_add_append, pointAfter_append, pointAt]

theorem pointAt_length (a b : Bytes) : pointAt (a ++ b) a.length = pointAfter a := by
  rw [pointAt, List.take_left]

/-! ## The parts of two buffers -/

theorem exists_commonPrefix {α : Type} [DecidableEq α] (as bs : List α) :
    ∃ s as' bs', as = s ++ as' ∧ bs = s ++ bs' ∧ s.length = commonPrefix as bs := by
  induction as generalizing bs with
  | nil => exact ⟨[], [], bs, rfl, rfl, by cases bs <;> rfl⟩
  | cons a as ih =>
    cases bs with
    | nil => exact ⟨[], a :: as, [], rfl, rfl, rfl⟩
    | cons b bs =>
      by_cases hab : a = b
      · subst hab
        obtain ⟨s, as', bs', has, hbs, hs⟩ := ih bs
        refine ⟨a :: s, as', bs', by rw [has]; rfl, by rw [hbs]; rfl, ?_⟩
        rw [commonPrefix, if_pos rfl, List.length_cons, hs]
      · exact ⟨[], a :: as, b :: bs, rfl, rfl, by rw [commonPrefix, if_neg hab]; rfl⟩

namespace Edit

/-- An edit replaces bytes between what two buffers share in front and what they share behind. -/
theorem exists_parts {old new : Bytes} (hne : old ≠ new) :
    ∃ before gone added after, old = before ++ gone ++ after ∧ new = before ++ added ++ after ∧
      between old new =
        some ⟨before.length, (before ++ gone).length, (before ++ added).length⟩ := by
  obtain ⟨before, olds, news, hold, hnew, hshared⟩ := exists_commonPrefix old new
  obtain ⟨tail, gone, added, holds, hnews, htail⟩ :=
    exists_commonPrefix olds.reverse news.reverse
  -- the suffix is found in the reversed rests
  have holds' : olds = gone.reverse ++ tail.reverse := by
    rw [← List.reverse_append, ← holds, List.reverse_reverse]
  have hnews' : news = added.reverse ++ tail.reverse := by
    rw [← List.reverse_append, ← hnews, List.reverse_reverse]
  refine ⟨before, gone.reverse, added.reverse, tail.reverse, ?_, ?_, ?_⟩
  · rw [hold, holds', List.append_assoc]
  · rw [hnew, hnews', List.append_assoc]
  · have hlength : old.length = before.length + (gone.length + tail.length) ∧
        new.length = before.length + (added.length + tail.length) := by
      simp only [hold, hnew, holds', hnews', List.length_append, List.length_reverse, and_self]
    have hrests : old.drop before.length = olds ∧ new.drop before.length = news := by
      rw [hold, hnew, List.drop_left, List.drop_left]
      exact ⟨rfl, rfl⟩
    rw [between, if_neg hne]
    simp only [← hshared, hrests.1, hrests.2, ← htail]
    simp only [List.length_append, List.length_reverse, Option.some.injEq, mk.injEq, true_and]
    omega

/-- **Where the bytes around an edit come to lie.** Up to its start every point stays the same. From
its end on a point goes up or down with the end; on the row where the edit ends it moves along the
row with the end, and on later rows it keeps its column. -/
theorem located_between (old new : Bytes) (hne : old ≠ new) :
    ∃ e, between old new = some e ∧
      let place := e.located old new
      (∀ o ≤ e.start, pointAt old o = pointAt new o) ∧
      place.start ≤ place.oldEnd ∧ place.start ≤ place.newEnd ∧
      ∀ o, e.oldEnd ≤ o → o ≤ old.length →
        let p := pointAt old o
        let q := pointAt new (o - e.oldEnd + e.newEnd)
        place.oldEnd.row ≤ p.row ∧ q.row = p.row - place.oldEnd.row + place.newEnd.row ∧
        (place.oldEnd.row < p.row → q.column = p.column) ∧
        (p.row = place.oldEnd.row → place.oldEnd.column ≤ p.column ∧
          q.column = p.column - place.oldEnd.column + place.newEnd.column) := by
  obtain ⟨before, gone, added, after, rfl, rfl, hedit⟩ := exists_parts hne
  refine ⟨_, hedit, ?_⟩
  dsimp only [located]
  rw [pointAt_length, pointAt_length, List.append_assoc, List.append_assoc, pointAt_length]
  refine ⟨fun o ho => ?_, ?_, ?_, fun o hend ho => ?_⟩
  · rw [pointAt, pointAt, List.take_append_of_le_length ho, List.take_append_of_le_length ho]
  · rw [pointAfter_append]
    exact Point.le_move _ _
  · rw [pointAfter_append]
    exact Point.le_move _ _
  · obtain ⟨k, rfl⟩ := Nat.exists_eq_add_of_le hend
    rw [← List.append_assoc, ← List.append_assoc, Nat.add_sub_cancel_left, Nat.add_comm k,
      pointAt_append, pointAt_append]
    -- both points are reached by the same step, each from its own end of the edit
    generalize pointAt after k = step
    refine ⟨Nat.le_add_right _ _, ?_, fun hlater => ?_, fun hsame => ?_⟩
    · simp only [Point.move_row]
      omega
    · rw [Point.move_row] at hlater
      rw [Point.move_column_of_ne _ _ (by omega), Point.move_column_of_ne _ _ (by omega)]
    · rw [Point.move_row] at hsame
      rw [Point.move_column_of_eq _ _ (by omega), Point.move_column_of_eq _ _ (by omega)]
      omega

/-- Three lines, the last of them without an end. -/
def threeLines : Bytes := [97, 98, 10, 99, 100, 10, 101]

/-- The lines, of which the first two are joined. -/
def joinedLines : Bytes := [97, 98, 99, 100, 10, 101]

theorem located_between_joined :
    threeLines ≠ joinedLines ∧ between threeLines joinedLines = some ⟨2, 3, 2⟩ ∧
      (∀ o ≤ 2, pointAt threeLines o = pointAt joinedLines o) ∧
      (pointAt joinedLines 3).row = 0 ∧ (pointAt joinedLines 3).column = 3 ∧
      (pointAt joinedLines 5).column = 0 := by
  have hne : threeLines ≠ joinedLines := by decide
  have hedit : between threeLines joinedLines = some ⟨2, 3, 2⟩ := by decide
  obtain ⟨e, he, hbefore, -, -, hbehind⟩ := located_between threeLines joinedLines hne
  rw [hedit] at he
  cases he
  obtain ⟨-, hrow, -, hcolumn⟩ := hbehind 4 (by decide) (by decide)
  obtain ⟨-, -, hlater, -⟩ := hbehind 6 (by decide) (by decide)
  exact ⟨hne, hedit, hbefore, hrow, (hcolumn rfl).2, hlater (by decide)⟩

end Edit

end SourceAtlas
