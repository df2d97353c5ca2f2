import SourceAtlas.Proofs.Text.Words
import SourceAtlas.Signature

/-!
# Signatures and layout

A signature depends only on the words of a definition's first line, and it is laid out in one way
only.

* `Signature.Strips`: words without a final semicolon;
* `Signature.strips_dropSemicolon`: a semicolon at the end of a text is one at the end of its words;
* `Signature.words_summarize`: the words of a signature;
* **`Signature.summarize_layout`**: signatures do not depend on layout.
-/

namespace SourceAtlas.Signature

open Text

/-! ## Final semicolons -/

/-- Words are those of a list without one final semicolon: it is taken from the last word, and with
it the word if nothing else is left. -/
structure Strips (ws vs : List (List Char)) : Prop where
  ended : ∀ front w, ws = front ++ [w ++ [';']] → vs = if w = [] then front else front ++ [w]
  other : (∀ front w, ws ≠ front ++ [w ++ [';']]) → vs = ws

variable {ws vs us : List (List Char)}

theorem Strips.unique (hv : Strips ws vs) (hu : Strips ws us) : vs = us := by
  by_cases h : ∃ front w, ws = front ++ [w ++ [';']]
  · obtain ⟨front, w, hws⟩ := h
    rw [hv.ended front w hws, hu.ended front w hws]
  · simp only [not_exists] at h
    rw [hv.other h, hu.other h]

theorem strips_ended (front : List (List Char)) (w : List Char) :
    Strips (front ++ [w ++ [';']]) (if w = [] then front else front ++ [w]) := by
  refine ⟨fun front' w' h => ?_, fun h => absurd rfl (h front w)⟩
  obtain ⟨rfl, hw⟩ := List.append_singleton_inj.mp h
  rw [(List.append_singleton_inj.mp hw).1]

theorem strips_other (h : ∀ front w, ws ≠ front ++ [w ++ [';']]) : Strips ws ws :=
  ⟨fun front w hws => absurd hws (h front w), fun _ => rfl⟩

theorem dropSemicolon_cases (cs : List Char) : (∃ ds, cs = ds ++ [';'] ∧ dropSemicolon cs = ds) ∨
    ((∀ ds, cs ≠ ds ++ [';']) ∧ dropSemicolon cs = cs) := by
  by_cases h : ∃ ds, cs = ds ++ [';']
  · obtain ⟨ds, rfl⟩ := h
    exact .inl ⟨ds, rfl, by simp [dropSemicolon]⟩
  · rw [not_exists] at h
    refine .inr ⟨h, ?_⟩
    rw [dropSemicolon]
    split
    · rename_i rest hrest
      rw [List.reverse_eq_iff, List.reverse_cons] at hrest
      exact absurd hrest (h _)
    · rfl

/-- A semicolon at the end of a text is one at the end of its last word. -/
theorem strips_append (cs : List Char) : Strips (words (cs ++ [';'])) (words cs) := by
  obtain ⟨front, w, rfl, -, hw, hfront⟩ := exists_lastWord cs
  have hended : ∀ c ∈ w ++ [';'], isBlank c = false := fun c hc => by
    rcases List.mem_append.mp hc with hc | hc
    · exact hw c hc
    · rw [List.mem_singleton.mp hc]
      decide
  have hlast : words front ++ (if w = [] then [] else [w]) =
      if w = [] then words front else words front ++ [w] := by
    split_ifs <;> simp
  rw [List.append_assoc, hfront, hfront, words_of_letters hended, words_of_letters hw,
    if_neg (by simp), hlast]
  exact strips_ended (words front) w

/-- A last word with a semicolon at its end stands at the end of the text, unless blanks follow. -/
theorem exists_of_words_eq {cs : List Char} {front : List (List Char)} {w : List Char}
    (hend : ∀ c ∈ cs.getLast?, isBlank c = false) (h : words cs = front ++ [w ++ [';']]) :
    ∃ ds, cs = ds ++ [';'] := by
  obtain ⟨before, last, rfl, hbefore, hlast, hwords⟩ := exists_lastWord cs
  rw [hwords, words_of_letters hlast] at h
  by_cases hnil : last = []
  · -- the text ends in a blank then, or it is empty and has no words
    subst hnil
    rw [List.append_nil] at hend
    cases hgot : before.getLast? with
    | none =>
      rw [List.getLast?_eq_none_iff.mp hgot] at h
      simp at h
    | some c => exact absurd (hbefore c hgot) (by simp [hend c hgot])
  · rw [if_neg hnil] at h
    rw [(List.append_singleton_inj.mp h).2, ← List.append_assoc]
    exact ⟨_, rfl⟩

/-- **A final semicolon is dropped from the words of a text**, if the text does not end in a
blank. -/
theorem strips_dropSemicolon {cs : List Char} (hend : ∀ c ∈ cs.getLast?, isBlank c = false) :
    Strips (words cs) (words (dropSemicolon cs)) := by
  rcases dropSemicolon_cases cs with ⟨ds, rfl, hdrop⟩ | ⟨hother, hdrop⟩
  · rw [hdrop]
    exact strips_append ds
  · rw [hdrop]
    refine strips_other fun front w hws => ?_
    obtain ⟨ds, hds⟩ := exists_of_words_eq hend hws
    exact hother ds hds

/-! ## Signatures -/

theorem words_summarize (t : String) :
    words (summarize t).toList = words (dropSemicolon (trimEnd (head t.toList))) := by
  rw [summarize, String.toList_ofList]
  exact words_joinWords fun w => isWord_of_mem_words

theorem toList_summarize (t : String) :
    (summarize t).toList = joinWords (words (summarize t).toList) := by
  rw [words_summarize, summarize, String.toList_ofList]

theorem strips_summarize (t : String) :
    Strips (words (head t.toList)) (words (summarize t).toList) := by
  rw [words_summarize, ← words_trimEnd (head t.toList)]
  exact strips_dropSemicolon (isBlank_of_getLast?_trimEnd _)

theorem mem_head_of_mem_words {t : String} {w : List Char} {c : Char}
    (hw : w ∈ words (summarize t).toList) (hc : c ∈ w) : c ∈ head t.toList := by
  rw [words_summarize] at hw
  have hdrop := mem_of_mem_words hw hc
  have htrim : c ∈ trimEnd (head t.toList) := by
    rcases dropSemicolon_cases (trimEnd (head t.toList)) with ⟨ds, hds, hdropped⟩ | ⟨-, hsame⟩
    · rw [hds]
      exact List.mem_append_left _ (hdropped ▸ hdrop)
    · rwa [hsame] at hdrop
  rw [trimEnd, List.mem_reverse] at htrim
  exact List.mem_reverse.mp ((List.dropWhile_sublist _).subset htrim)

theorem notMem_summarize {t : String} {c : Char} (hc : c ∉ head t.toList) (hspace : c ≠ ' ') :
    c ∉ (summarize t).toList := by
  intro hmem
  rw [toList_summarize] at hmem
  rcases mem_joinWords hmem with rfl | ⟨w, hw, hcw⟩
  · exact hspace rfl
  · exact hc (mem_head_of_mem_words hw hcw)

/-- **Signatures do not depend on layout.** Texts whose heads have the same words have the same
signature. A signature is one line without an opening brace, in which single spaces stand between
words and no other blanks occur, so that there is nothing to collapse. Its words are those of the
head, without one final semicolon. -/
theorem summarize_layout :
    (∀ t u : String, words (head t.toList) = words (head u.toList) → summarize t = summarize u) ∧
    ∀ t : String,
      ('\n' ∉ (summarize t).toList ∧ '\x7b' ∉ (summarize t).toList) ∧
      ((summarize t).toList = [' '].intercalate (words (summarize t).toList) ∧
        ∀ w ∈ words (summarize t).toList, w ≠ [] ∧ ∀ c ∈ w, isBlank c = false) ∧
      collapse (summarize t) = summarize t ∧
      Strips (words (head t.toList)) (words (summarize t).toList) := by
  have hstop : ∀ (cs : List Char) (c : Char), c = '\n' ∨ c = '\x7b' → c ∉ head cs := by
    intro cs c hc hmem
    have hkept := List.mem_takeWhile_imp hmem
    rcases hc with rfl | rfl <;> simp at hkept
  refine ⟨fun t u h => ?_, fun t => ⟨⟨?_, ?_⟩, ⟨toList_summarize t, fun w => isWord_of_mem_words⟩,
    ?_, strips_summarize t⟩⟩
  · -- the words of both signatures are what is left of the same words
    have hstrips := strips_summarize t
    rw [h] at hstrips
    have hwords := hstrips.unique (strips_summarize u)
    rw [← String.toList_inj, toList_summarize t, toList_summarize u, hwords]
  · exact notMem_summarize (hstop _ _ (.inl rfl)) (by decide)
  · exact notMem_summarize (hstop _ _ (.inr rfl)) (by decide)
  · rw [collapse, ← toList_summarize, String.ofList_toList]

/-- A semicolon on its own, blanks of several kinds, and the two ways in which a head ends. -/
theorem summarize_layout_spaced :
    words (head "func\tRun( )\u3000 ; \x7b ;".toList) =
      words (head " func  Run( ) ;\n\x7b".toList) ∧
    summarize "func\tRun( )\u3000 ; \x7b ;" = summarize " func  Run( ) ;\n\x7b" := by
  have hwords : words (head "func\tRun( )\u3000 ; \x7b ;".toList) =
      words (head " func  Run( ) ;\n\x7b".toList) := by decide
  exact ⟨hwords, summarize_layout.1 _ _ hwords⟩

end SourceAtlas.Signature
