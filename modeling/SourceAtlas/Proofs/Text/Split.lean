import Mathlib.Tactic.Common
import SourceAtlas.Text.Blank

/-!
# Texts and their pieces

A text can be taken apart at a character and put together again, and pieces that do not hold the
character can be put together and taken apart again.

* `Text.segments_append_sep`, `Text.segments_of_no_sep`, `Text.of_mem_segments`: separators end
  pieces, and only they do;
* `Text.length_segments`: the number of pieces;
* `Text.splitBy_eq_splitOn`: the pieces of a text;
* **`Text.intercalate_splitBy`**, **`Text.splitBy_intercalate`**: the two ways round.
-/

namespace SourceAtlas.Text

section Pieces

variable {α : Type} {sep : α → Bool} {cs : List α}

theorem segments_eq_splitOnP (sep : α → Bool) (cs : List α) :
    segments sep cs = cs.splitOnP sep := by
  induction cs with
  | nil => rfl
  | cons c cs ih =>
    rw [segments, List.splitOnP_cons_eq_if_modifyHead, ih]
    split_ifs
    · rfl
    · cases h : cs.splitOnP sep with
      | nil => exact absurd h (List.splitOnP_ne_nil _ _)
      | cons w ws => rfl

theorem segments_ne_nil (sep : α → Bool) (cs : List α) : segments sep cs ≠ [] := by
  rw [segments_eq_splitOnP]
  exact List.splitOnP_ne_nil sep cs

theorem segments_append_sep {c : α} (hc : sep c = true) (ds cs : List α) :
    segments sep (cs ++ c :: ds) = segments sep cs ++ segments sep ds := by
  simp only [segments_eq_splitOnP]
  exact List.splitOnP_append_cons cs ds hc

theorem segments_of_no_sep (h : ∀ c ∈ cs, sep c = false) : segments sep cs = [cs] := by
  rw [segments_eq_splitOnP]
  exact List.splitOnP_eq_singleton h

theorem of_mem_segments {w : List α} (hw : w ∈ segments sep cs) :
    ∀ c ∈ w, c ∈ cs ∧ sep c = false := by
  induction cs generalizing w with
  | nil => simp_all [segments]
  | cons a cs ih =>
    have hrest : ∀ {v : List α}, v ∈ segments sep cs → ∀ c ∈ v, c ∈ a :: cs ∧ sep c = false :=
      fun hv c hc => (ih hv c hc).imp (List.mem_cons_of_mem a) id
    rw [segments] at hw
    split_ifs at hw with ha
    · rcases List.mem_cons.mp hw with rfl | hw
      · simp
      · exact hrest hw
    · cases hseg : segments sep cs with
      | nil => exact absurd hseg (segments_ne_nil sep cs)
      | cons v vs =>
        rw [hseg] at hw hrest
        rcases List.mem_cons.mp hw with rfl | hw
        · rw [List.forall_mem_cons]
          exact ⟨⟨List.mem_cons_self, Bool.eq_false_iff.mpr ha⟩, hrest List.mem_cons_self⟩
        · exact hrest (List.mem_cons_of_mem _ hw)

theorem length_segments (sep : α → Bool) (cs : List α) :
    (segments sep cs).length = cs.countP sep + 1 := by
  induction cs with
  | nil => rfl
  | cons a cs ih =>
    rw [segments, List.countP_cons]
    split_ifs with ha
    · rw [List.length_cons, ih]
    · cases hseg : segments sep cs with
      | nil => exact absurd hseg (segments_ne_nil sep cs)
      | cons v vs => rwa [hseg] at ih

end Pieces

theorem splitBy_eq_splitOn (c : Char) (s : String) :
    splitBy (· == c) s = (s.toList.splitOn c).map String.ofList :=
  congrArg (List.map String.ofList) (segments_eq_splitOnP _ _)

theorem intercalate_splitBy (c : Char) (s : String) :
    (String.singleton c).intercalate (splitBy (· == c) s) = s := by
  have htexts : (splitBy (· == c) s).map String.toList = s.toList.splitOn c := by
    simp [splitBy_eq_splitOn, Function.comp_def]
  rw [← String.toList_inj, String.toList_intercalate, htexts, String.toList_singleton]
  exact List.intercalate_splitOn c

/-- Texts without a character are the pieces of what they are put together to. -/
theorem splitBy_intercalate {c : Char} {ws : List String} (hws : ws ≠ [])
    (h : ∀ w ∈ ws, c ∉ w.toList) :
    splitBy (· == c) ((String.singleton c).intercalate ws) = ws := by
  have htexts : ((String.singleton c).intercalate ws).toList.splitOn c = ws.map String.toList := by
    rw [String.toList_intercalate, String.toList_singleton]
    refine List.splitOn_intercalate c (fun cs hcs => ?_) (by simpa using hws)
    obtain ⟨w, hw, rfl⟩ := List.mem_map.mp hcs
    exact h w hw
  rw [splitBy_eq_splitOn, htexts, List.map_map]
  simp [Function.comp_def]

end SourceAtlas.Text
