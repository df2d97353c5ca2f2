import Mathlib.Tactic.Common
import SourceAtlas.Proofs.Path.Order
import SourceAtlas.Proofs.Text.Split
import SourceAtlas.Scope.Builder

/-!
# Keys of packages

The key of a package is the directory of its files, spelled with slashes. Files have the same key
exactly if they are in the same directory. An import leads to a package if the steps of the key are
the last steps of the imported path.

* `steps`, `intercalate_steps`, `steps_intercalate`: the pieces of a text between slashes;
* **`steps_isSuffix_iff`**: a text ends with the steps of another one;
* `Path.directory`, **`Path.packageKey_eq_iff`**: keys and directories;
* `ScopeBuilder.leadsTo_iff`: the keys at the end of an imported path.
-/

namespace SourceAtlas

/-! ## Steps -/

/-- The pieces of a text between slashes. -/
def steps (s : String) : List String := Text.splitBy (· == '/') s

theorem intercalate_steps (s : String) : "/".intercalate (steps s) = s :=
  Text.intercalate_splitBy '/' s

theorem steps_inj {s t : String} (h : steps s = steps t) : s = t := by
  rw [← intercalate_steps s, h, intercalate_steps]

theorem steps_intercalate {ws : List String} (hws : ws ≠ []) (h : ∀ w ∈ ws, '/' ∉ w.toList) :
    steps ("/".intercalate ws) = ws :=
  Text.splitBy_intercalate hws h

theorem steps_append (s t : String) : steps (s ++ "/" ++ t) = steps s ++ steps t := by
  have h := @Text.segments_append_sep Char (· == '/') '/' (by decide) t.toList s.toList
  simp only [steps, Text.splitBy, String.toList_append]
  rw [← List.map_append, ← h]
  simp

theorem slash_notMem_of_mem_steps {s w : String} (hw : w ∈ steps s) : '/' ∉ w.toList := by
  obtain ⟨cs, hcs, rfl⟩ := List.mem_map.mp hw
  intro hslash
  rw [String.toList_ofList] at hslash
  exact absurd (Text.of_mem_segments hcs '/' hslash).2 (by decide)

/-- **A text ends with the steps of another one exactly if it is that one, or ends with a slash and
that one.** -/
theorem steps_isSuffix_iff {s t : String} :
    steps t <:+ steps s ↔ s = t ∨ ∃ u, s = u ++ "/" ++ t := by
  constructor
  · rintro ⟨ws, hws⟩
    by_cases hnil : ws = []
    · rw [hnil, List.nil_append] at hws
      exact .inl (steps_inj hws.symm)
    · refine .inr ⟨"/".intercalate ws, steps_inj ?_⟩
      have hslash : ∀ w ∈ ws, '/' ∉ w.toList := fun w hw =>
        slash_notMem_of_mem_steps (hws ▸ List.mem_append_left _ hw)
      rw [steps_append, steps_intercalate hnil hslash, hws]
  · rintro (rfl | ⟨u, rfl⟩)
    · exact List.suffix_rfl
    · rw [steps_append]
      exact List.suffix_append _ _

/-! ## Directories -/

namespace Component

/-- A step of a path after its start. -/
def IsStep : Component → Prop
  | .root | .here => False
  | .up => True
  | .name s => isFileName s = true

/-- The component with a spelling, unless it is the root. -/
def ofText (s : String) : Component :=
  if s = "." then .here else if s = ".." then .up else .name s

theorem IsStep.ofText_text {c : Component} (hc : c.IsStep) : ofText c.text = c := by
  cases c with
  | root | here => exact hc.elim
  | up => rfl
  | name s =>
    simp only [IsStep, isFileName, Bool.and_eq_true, bne_iff_ne] at hc
    simp [ofText, text, hc]

theorem IsStep.slash_notMem {c : Component} (hc : c.IsStep) : '/' ∉ c.text.toList := by
  cases c with
  | root | here => exact hc.elim
  | up => decide
  | name s =>
    simp only [IsStep, isFileName, Bool.and_eq_true, Bool.not_eq_true'] at hc
    simpa [text] using hc.2

theorem IsStep.text_ne {c : Component} (hc : c.IsStep) : c.text ≠ "" := by
  cases c with
  | root | here => exact hc.elim
  | up => decide
  | name s =>
    simp only [IsStep, isFileName, Bool.and_eq_true, bne_iff_ne] at hc
    simp [text, hc]

end Component

/-- Components as paths have them: only the first one may be no step. -/
inductive IsSpelled : List Component → Prop
  | root {cs : List Component} (hcs : ∀ c ∈ cs, c.IsStep) : IsSpelled (.root :: cs)
  | here {cs : List Component} (hcs : ∀ c ∈ cs, c.IsStep) : IsSpelled (.here :: cs)
  | steps {cs : List Component} (hcs : ∀ c ∈ cs, c.IsStep) : IsSpelled cs

/-- Components, spelled with slashes. -/
def spell (cs : List Component) : String := "/".intercalate (cs.map (·.text))

/-- The components with a spelling. A spelling that starts with a slash is that of the root. -/
def unspell (s : String) : List Component :=
  match SourceAtlas.steps s with
  | "" :: ws => if ws = [] then [] else .root :: ws.tail.map Component.ofText
  | ws => ws.map Component.ofText

theorem unspell_of_steps {s w : String} {ws : List String} (hs : SourceAtlas.steps s = w :: ws)
    (hw : w ≠ "") : unspell s = (w :: ws).map Component.ofText := by
  rw [unspell, hs]
  split
  · rename_i heq
    exact absurd (List.cons.inj heq).1 hw
  · rfl

theorem map_ofText_text {cs : List Component} (hcs : ∀ c ∈ cs, c.IsStep) :
    (cs.map (·.text)).map Component.ofText = cs := by
  rw [List.map_map]
  exact (List.map_congr_left fun c hc => (hcs c hc).ofText_text).trans (List.map_id _)

/-- Components are told by their spelling. -/
theorem unspell_spell {cs : List Component} (hcs : IsSpelled cs) : unspell (spell cs) = cs := by
  have hslash : ∀ {cs : List Component}, (∀ c ∈ cs, c.IsStep) →
      ∀ w ∈ cs.map (·.text), '/' ∉ w.toList := by
    intro cs hcs w hw
    obtain ⟨c, hc, rfl⟩ := List.mem_map.mp hw
    exact (hcs c hc).slash_notMem
  cases hcs with
  | @root cs hcs =>
    cases cs with
    | nil => decide +kernel
    | cons c cs =>
      have hspell : spell (.root :: c :: cs) = "/" ++ "/" ++ spell (c :: cs) := by
        simp [spell, Component.text]
      have hroot : SourceAtlas.steps "/" = ["", ""] := by decide +kernel
      have hsteps : SourceAtlas.steps (spell (.root :: c :: cs)) =
          "" :: "" :: (c :: cs).map (·.text) := by
        rw [hspell, steps_append, hroot, spell, steps_intercalate (by simp) (hslash hcs)]
        rfl
      rw [unspell, hsteps]
      exact congrArg (.root :: ·) (map_ofText_text hcs)
  | @here cs hcs =>
    have hsteps : SourceAtlas.steps (spell (.here :: cs)) = "." :: cs.map (·.text) := by
      refine steps_intercalate (by simp) fun w hw => ?_
      rcases List.mem_cons.mp hw with rfl | hw
      · decide
      · exact hslash hcs w hw
    rw [unspell_of_steps hsteps (by decide), List.map_cons, map_ofText_text hcs]
    rfl
  | steps hcs =>
    cases cs with
    | nil => decide +kernel
    | cons c cs =>
      have hsteps : SourceAtlas.steps (spell (c :: cs)) = c.text :: cs.map (·.text) :=
        steps_intercalate (by simp) (hslash hcs)
      rw [unspell_of_steps hsteps (hcs c List.mem_cons_self).text_ne]
      exact map_ofText_text hcs

theorem spell_inj {cs ds : List Component} (hcs : IsSpelled cs) (hds : IsSpelled ds)
    (h : spell cs = spell ds) : cs = ds := by
  rw [← unspell_spell hcs, h, unspell_spell hds]

namespace Path

theorem isStep_of_mem_segments {p : Path} {c : Component}
    (hc : c ∈ p.segments.filterMap component?) : c.IsStep := by
  obtain ⟨w, hw, hwc⟩ := List.mem_filterMap.mp hc
  have hslash := slash_notMem_of_mem_steps hw
  unfold component? at hwc
  split_ifs at hwc
  · cases hwc
    trivial
  · cases hwc
    simp_all [Component.IsStep, isFileName]

theorem isSpelled_components (p : Path) : IsSpelled p.components := by
  have hsteps : ∀ c ∈ p.segments.filterMap component?, c.IsStep := fun _ => isStep_of_mem_segments
  unfold components
  dsimp only
  split_ifs
  · exact .root hsteps
  · exact .here hsteps
  · exact .steps hsteps

/-- The directory of a file. The empty path and `.` are one directory. -/
def directory (p : Path) : List Component :=
  let cs := (p.parent.map (·.components)).getD []
  if cs = [.here] then [] else cs

theorem isSpelled_directory (p : Path) : IsSpelled p.directory := by
  have hempty : IsSpelled [] := .steps (by simp)
  unfold directory
  dsimp only
  split_ifs
  · exact hempty
  · cases p.parent with
    | none => exact hempty
    | some d => exact isSpelled_components d

theorem directory_ne_here (p : Path) : p.directory ≠ [.here] := by
  unfold directory
  dsimp only
  split_ifs with hhere
  · simp
  · exact hhere

theorem packageKey_eq (p : Path) :
    p.packageKey = if p.directory = [] then "." else spell p.directory := by
  have hparent : (p.parent.map fun d => "/".intercalate (d.components.map (·.text))).getD "" =
      spell ((p.parent.map (·.components)).getD []) := by
    cases p.parent <;> rfl
  have hspelled : IsSpelled ((p.parent.map (·.components)).getD []) := by
    cases p.parent with
    | none => exact .steps (by simp)
    | some d => exact isSpelled_components d
  rw [packageKey, hparent, directory]
  generalize (p.parent.map (·.components)).getD [] = cs at hspelled
  by_cases hnil : cs = []
  · subst hnil
    rfl
  · have hne : spell cs ≠ "" := fun h => hnil (spell_inj hspelled (.steps (by simp)) h)
    by_cases hhere : cs = [.here]
    · subst hhere
      rfl
    · simp [hne, hhere, hnil]

/-- **Files have the same key exactly if they are in the same directory.** -/
theorem packageKey_eq_iff {p q : Path} :
    p.packageKey = q.packageKey ↔ p.directory = q.directory := by
  have hdot : ∀ r : Path, spell r.directory ≠ "." := fun r h =>
    r.directory_ne_here (spell_inj r.isSpelled_directory (.here (by simp)) h)
  constructor
  · intro h
    rw [packageKey_eq, packageKey_eq] at h
    split_ifs at h with hp hq hq
    · rw [hp, hq]
    · exact absurd h.symm (hdot q)
    · exact absurd h (hdot p)
    · exact spell_inj p.isSpelled_directory q.isSpelled_directory h
  · intro h
    rw [packageKey_eq, packageKey_eq, h]

end Path

/-! ## Imported paths -/

namespace ScopeBuilder

/-- **An import leads to a package if the steps of the key are the last steps of the path.** -/
theorem leadsTo_iff {imported key : String} :
    leadsTo imported key = true ↔ key ≠ "." ∧ steps key <:+ steps imported := by
  have hends : imported.endsWith ("/" ++ key) = true ↔ ∃ u, imported = u ++ "/" ++ key := by
    rw [String.endsWith_eq_endsWith_toSlice, String.Slice.endsWith_string_iff,
      String.copy_toSlice]
    constructor
    · rintro ⟨cs, hcs⟩
      exact ⟨String.ofList cs, by simp [← String.toList_inj, ← hcs]⟩
    · rintro ⟨u, rfl⟩
      exact ⟨u.toList, by simp⟩
  rw [leadsTo, Bool.and_eq_true, Bool.or_eq_true, bne_iff_ne, beq_iff_eq, hends, steps_isSuffix_iff]

theorem utf8ByteSize_le_of_isSuffix {s t : String} (h : steps t <:+ steps s) :
    t.utf8ByteSize ≤ s.utf8ByteSize ∧ (s.utf8ByteSize ≤ t.utf8ByteSize → s = t) := by
  rcases steps_isSuffix_iff.mp h with rfl | ⟨u, rfl⟩
  · exact ⟨Nat.le_refl _, fun _ => rfl⟩
  · have hslash : ("/" : String).utf8ByteSize = 1 := by decide
    rw [String.utf8ByteSize_append, String.utf8ByteSize_append, hslash]
    refine ⟨by omega, fun hle => ?_⟩
    omega

end ScopeBuilder

end SourceAtlas
