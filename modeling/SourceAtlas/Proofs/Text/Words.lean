import Mathlib.Data.List.Induction
import Mathlib.Data.List.TakeWhile
import SourceAtlas.Proofs.Text.Split

/-!
# The words of a text

Blanks only separate words. Words that are joined by single spaces are read back, and blanks at the
end of a text belong to no word.

* `Text.IsWord`, `Text.isWord_of_mem_words`: what a word is;
* **`Text.words_append_blank`**: a blank separates the words before it from those behind it;
* **`Text.words_joinWords`**: joined words are read back;
* `Text.words_trimEnd`, `Text.exists_lastWord`: the end of a text.
-/

namespace SourceAtlas.Text

/-- A text that can be a word: it has characters, and none of them is blank. -/
def IsWord (w : List Char) : Prop := w ≠ [] ∧ ∀ c ∈ w, isBlank c = false

@[simp] theorem words_nil : words [] = [] := rfl

theorem isWord_of_mem_words {cs w : List Char} (hw : w ∈ words cs) : IsWord w := by
  obtain ⟨hmem, hne⟩ := List.mem_filter.mp hw
  exact ⟨by simpa using hne, fun c hc => (of_mem_segments hmem c hc).2⟩

theorem mem_of_mem_words {cs w : List Char} {c : Char} (hw : w ∈ words cs) (hc : c ∈ w) :
    c ∈ cs :=
  (of_mem_segments (List.mem_filter.mp hw).1 c hc).1

/-- **A blank separates words.** -/
theorem words_append_blank {c : Char} (hc : isBlank c = true) (cs ds : List Char) :
    words (cs ++ c :: ds) = words cs ++ words ds := by
  rw [words, segments_append_sep hc, List.filter_append]
  rfl

theorem words_of_letters {w : List Char} (h : ∀ c ∈ w, isBlank c = false) :
    words w = if w = [] then [] else [w] := by
  rw [words, segments_of_no_sep h]
  split_ifs with hw <;> simp [hw]

/-! ## Joined words -/

theorem joinWords_cons (w : List Char) {ws : List (List Char)} (hws : ws ≠ []) :
    joinWords (w :: ws) = w ++ ' ' :: joinWords ws := by
  obtain ⟨v, vs, rfl⟩ := List.exists_cons_of_ne_nil hws
  rfl

/-- **Joined words are read back.** -/
theorem words_joinWords {ws : List (List Char)} (h : ∀ w ∈ ws, IsWord w) :
    words (joinWords ws) = ws := by
  induction ws with
  | nil => rfl
  | cons w ws ih =>
    rw [List.forall_mem_cons] at h
    have hone : words w = [w] := by rw [words_of_letters h.1.2, if_neg h.1.1]
    by_cases hws : ws = []
    · subst hws
      simpa [joinWords] using hone
    · rw [joinWords_cons w hws, words_append_blank (by decide), hone, ih h.2]
      rfl

/-- Joined words hold nothing but their characters and spaces. -/
theorem mem_joinWords {ws : List (List Char)} {c : Char} (hc : c ∈ joinWords ws) :
    c = ' ' ∨ ∃ w ∈ ws, c ∈ w := by
  induction ws with
  | nil => simp [joinWords] at hc
  | cons w ws ih =>
    by_cases hws : ws = []
    · subst hws
      exact .inr ⟨w, List.mem_cons_self, by simpa [joinWords] using hc⟩
    · rw [joinWords_cons w hws, List.mem_append, List.mem_cons] at hc
      rcases hc with hc | hc | hc
      · exact .inr ⟨w, List.mem_cons_self, hc⟩
      · exact .inl hc
      · exact (ih hc).imp id fun ⟨v, hv, hcv⟩ => ⟨v, List.mem_cons_of_mem w hv, hcv⟩

/-! ## The end of a text -/

/-- Every text can be cut behind its last blank. The words before the cut do not depend on what
stands behind it. -/
theorem exists_lastWord (cs : List Char) : ∃ front w, cs = front ++ w ∧
    (∀ c ∈ front.getLast?, isBlank c = true) ∧ (∀ c ∈ w, isBlank c = false) ∧
      ∀ v, words (front ++ v) = words front ++ words v := by
  induction cs using List.reverseRecOn with
  | nil => exact ⟨[], [], rfl, by simp, by simp, fun v => rfl⟩
  | append_singleton cs c ih =>
    by_cases hc : isBlank c = true
    · refine ⟨cs ++ [c], [], by simp, by simpa using hc, by simp, fun v => ?_⟩
      rw [List.append_assoc, List.singleton_append, words_append_blank hc, words_append_blank hc,
        words_nil, List.append_nil]
    · obtain ⟨front, w, rfl, hend, hw, hfront⟩ := ih
      refine ⟨front, w ++ [c], by simp, hend, fun d hd => ?_, hfront⟩
      rcases List.mem_append.mp hd with hd | hd
      · exact hw d hd
      · rw [List.mem_singleton.mp hd]
        exact Bool.eq_false_iff.mpr hc

theorem words_append_blanks {cs bs : List Char} (hbs : ∀ c ∈ bs, isBlank c = true) :
    words (cs ++ bs) = words cs := by
  induction bs generalizing cs with
  | nil => rw [List.append_nil]
  | cons c bs ih =>
    rw [List.forall_mem_cons] at hbs
    have hnone : words bs = [] := @ih [] hbs.2
    rw [words_append_blank hbs.1, hnone, List.append_nil]

theorem words_trimEnd (cs : List Char) : words (trimEnd cs) = words cs := by
  have hcut : cs = trimEnd cs ++ (cs.reverse.takeWhile isBlank).reverse := by
    rw [trimEnd, ← List.reverse_append, List.takeWhile_append_dropWhile, List.reverse_reverse]
  conv_rhs => rw [hcut]
  refine (words_append_blanks fun c hc => ?_).symm
  exact List.mem_takeWhile_imp (List.mem_reverse.mp hc)

theorem isBlank_of_getLast?_trimEnd (cs : List Char) :
    ∀ c ∈ (trimEnd cs).getLast?, isBlank c = false := by
  intro c hc
  rw [trimEnd, List.getLast?_reverse] at hc
  have hhead := List.head?_dropWhile_not isBlank cs.reverse
  rw [Option.mem_def.mp hc] at hhead
  exact hhead

end SourceAtlas.Text
