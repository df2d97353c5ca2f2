import SourceAtlas.Proofs.Build.Outcome
import SourceAtlas.Proofs.Index.Lookup

/-!
# Indexes that recount their files

An index that was built from scratch has the outlines of its files. Each of them is found again by
the path of its file, and it stands for the file as long as that looks the same.

* `StoredFile.summary`, `Candidate.outline_ok_iff`: the outline of a file that can be read;
* `Candidate.looksLike`, `Candidate.of_reuse?_eq_some`: what is taken over;
* `Index.Recounts`, **`Index.Recounts.reuse?_isSome`**: every outline is taken over.
-/

namespace SourceAtlas

namespace StoredFile

/-- The summary of the bytes of a file under a path. -/
def summary (f : StoredFile) (language : Language) (p : Path) : Summary :=
  { (Outline.ofSource language p f.content).summary with
    size := f.recordedSize
    modTime := f.recordedTime }

variable (f : StoredFile) (language : Language) (p : Path)

@[simp] theorem summary_path : (f.summary language p).path = p := rfl

@[simp] theorem summary_language : (f.summary language p).language = language := rfl

@[simp] theorem summary_size : (f.summary language p).size = f.recordedSize := rfl

@[simp] theorem summary_modTime : (f.summary language p).modTime = f.recordedTime := rfl

end StoredFile

namespace Candidate

/-- Do two files look the same: path, language, size and time of change? -/
def looksLike (c d : Candidate) : Bool :=
  c.path.same d.path && c.language == d.language &&
    c.file.recordedSize == d.file.recordedSize && c.file.recordedTime == d.file.recordedTime

variable {c d : Candidate} {s : Summary}

theorem looksLike_iff : c.looksLike d = true ↔ c.path.same d.path = true ∧
    c.language = d.language ∧ c.file.recordedSize = d.file.recordedSize ∧
      c.file.recordedTime = d.file.recordedTime := by
  simp [looksLike, and_assoc]

theorem looksLike_refl (c : Candidate) : c.looksLike c = true :=
  looksLike_iff.mpr ⟨Path.same_iff.mpr rfl, rfl, rfl, rfl⟩

theorem outline_ok_iff : c.outline = .ok s ↔ c.file.isReadable = true ∧
    c.file.content.validateUTF8 = true ∧ s = c.file.summary c.language c.path := by
  rw [outline]
  constructor
  · intro h
    split_ifs at h with hread hvalid
    cases h
    exact ⟨by simpa using hread, by simpa using hvalid, rfl⟩
  · rintro ⟨hread, hvalid, rfl⟩
    simp [hread, hvalid, StoredFile.summary]

theorem isOk_outline_iff : c.outline.isOk = true ↔
    c.file.isReadable = true ∧ c.file.content.validateUTF8 = true := by
  rw [outline]
  cases c.file.isReadable <;> cases c.file.content.validateUTF8 <;>
    simp [Except.isOk, Except.toBool]

theorem outline_of_isOk (h : c.outline.isOk = true) :
    c.outline = .ok (c.file.summary c.language c.path) := by
  obtain ⟨hread, hvalid⟩ := isOk_outline_iff.mp h
  exact outline_ok_iff.mpr ⟨hread, hvalid, rfl⟩

/-- The outline of a file stands for every file that looks the same. -/
theorem isCurrent_of_looksLike (h : d.outline = .ok s) (hlook : d.looksLike c = true) :
    c.isCurrent s = true := by
  obtain ⟨-, -, rfl⟩ := outline_ok_iff.mp h
  obtain ⟨-, hlanguage, hsize, htime⟩ := looksLike_iff.mp hlook
  simp [isCurrent, hlanguage, hsize, htime]

theorem of_reuse?_eq_some {baseline : Option Index} (h : c.reuse? baseline = some s) :
    ∃ i ∈ baseline, ∃ t ∈ i.files, t.path.same c.path = true ∧ c.isCurrent t = true ∧
      s = t.withPath c.path := by
  rw [reuse?] at h
  split at h
  · rename_i t ht
    split_ifs at h with hcurrent
    cases h
    obtain ⟨i, hi, hfile⟩ := Option.bind_eq_some_iff.mp ht
    obtain ⟨hmem, hpath⟩ := Index.of_file?_eq_some hfile
    exact ⟨i, hi, t, hmem, hpath, hcurrent, rfl⟩
  · cases h

theorem outcome_of_no_files {baseline : Option Index} (h : ∀ i ∈ baseline, i.files = []) :
    c.outcome baseline = c.outline := by
  rw [outcome]
  split
  · rename_i s hs
    obtain ⟨i, hi, t, ht, -⟩ := of_reuse?_eq_some hs
    rw [h i hi] at ht
    cases ht
  · rfl

end Candidate

namespace Index

variable {i : Index} {found : List Finding}

/-- An index holds the outlines of the files that were found, in the order of their paths, which are
different. -/
structure Recounts (i : Index) (found : List Finding) : Prop where
  different : (Finding.files found).Pairwise fun c d => ¬ c.path.same d.path = true
  files : i.files = (Candidate.summaries (outcomes none found)).mergeSort
    fun a b => a.path.le b.path

namespace Recounts

variable (h : i.Recounts found)

include h

theorem mem_files_iff {s : Summary} :
    s ∈ i.files ↔ ∃ c ∈ Finding.files found, c.outline = .ok s := by
  rw [h.files, List.mem_mergeSort, Candidate.mem_summaries, mem_outcomes]
  rfl

/-- **The outline of every file is found and taken over,** by whatever looks like the file. -/
theorem reuse?_isSome {c d : Candidate} (hd : d ∈ Finding.files found) {s : Summary}
    (hs : d.outline = .ok s) (hlook : d.looksLike c = true) :
    (c.reuse? (some i)).isSome = true := by
  have sorted : i.files.Pairwise fun a b => a.path.le b.path = true := by
    rw [h.files]
    exact pairwise_mergeSort_path Summary.path _
  have unique : ∀ a ∈ i.files, ∀ b ∈ i.files, a.path.same b.path = true → a = b := by
    intro a ha b hb
    rw [h.files, List.mem_mergeSort, Candidate.mem_summaries] at ha hb
    exact eq_of_same_path h.different ha hb
  have hpath : s.path.same c.path = true := by
    rw [Candidate.outline_path hs]
    exact (Candidate.looksLike_iff.mp hlook).1
  have hfile : i.file? c.path = some s :=
    (file?_eq_some_iff sorted unique).mpr ⟨h.mem_files_iff.mpr ⟨d, hd, hs⟩, hpath⟩
  simp [Candidate.reuse?, hfile, Candidate.isCurrent_of_looksLike hs hlook]

theorem reused_eq {o : BuildOptions} {root : Path} (now : Timestamp) {later : List Finding}
    (hbase : o.baseline root = some i) (hlook : ∀ c ∈ Finding.files later,
      ∃ d ∈ Finding.files found, d.outline.isOk = true ∧ d.looksLike c = true) :
    (ofFindings o now root later).2.reused = (Finding.candidates later).length := by
  simp only [ofFindings, hbase]
  rw [List.filterMap_length_eq_length]
  intro c hc
  obtain ⟨d, hd, hok, hdc⟩ := hlook c (Finding.mem_candidates.mp hc)
  exact h.reuse?_isSome hd (Candidate.outline_of_isOk hok) hdc

end Recounts

theorem recounts_ofFindings (o : BuildOptions) (now : Timestamp) (root : Path)
    (different : (Finding.files found).Pairwise fun c d => ¬ c.path.same d.path = true)
    (hbase : ∀ j ∈ o.baseline root, j.files = []) :
    (ofFindings o now root found).1.Recounts found := by
  have hsame : outcomes (o.baseline root) found = outcomes none found :=
    List.map_congr_left fun _ _ => Candidate.outcome_of_no_files hbase
  exact ⟨different, by rw [ofFindings_files o now root different, hsame]⟩

end Index

theorem FileTree.build_recounts {t : FileTree} {ignored : Ignore} {p place : Path}
    {found : List Finding} (proper : t.isProper = true)
    (hsurvey : t.survey ignored p = .ok (place, found)) (workers : Option Nat) (now : Timestamp) :
    ∃ i r, t.build { ignored, workers } now p = .ok (i, r) ∧ i.root = place ∧ i.Recounts found := by
  rw [build_eq_survey, hsurvey]
  exact ⟨_, _, rfl, rfl, Index.recounts_ofFindings _ _ _ (survey_pairwise proper hsurvey)
    fun _ hnone => by cases hnone⟩

end SourceAtlas
