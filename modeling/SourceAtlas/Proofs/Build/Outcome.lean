import Mathlib.Data.List.Pairwise
import SourceAtlas.Build
import SourceAtlas.Proofs.FileTree.Walk

/-!
# What a build makes of its files

A build takes some summaries over and leaves the other files to its workers. What comes out depends
neither on the workers nor on which files went which way, but only on the *outcome* of every file.

* `Workers.run_eq_map`: workers do what one worker would do;
* `Candidate.outcome`, `Candidate.summaries_perm`, `Candidate.problems_eq`;
* `FileTree.survey`, `FileTree.build_eq_survey`: what a build looks at;
* **`Index.ofFindings_files`**, **`Index.ofFindings_problems`**: an index lists the outcomes of its
  files in the order of their paths.
-/

namespace SourceAtlas

/-! ## Workers -/

namespace Workers

theorem flatten_blocks {α : Type} (size : Nat) (jobs : List α) :
    (blocks size jobs).flatten = jobs := by
  fun_induction blocks size jobs with
  | case1 => rfl
  | case2 j js ih => rw [List.flatten_cons, ih, List.cons_append, List.take_append_drop]

/-- **Workers do what one worker would do.** -/
theorem run_eq_map {α β : Type} (workers : Nat) (work : α → β) (jobs : List α) :
    run workers work jobs = jobs.map work := by
  rw [run, List.flatMap, ← List.map_flatten, flatten_blocks]

end Workers

/-! ## Outcomes -/

namespace Candidate

/-- What a build makes of a file: the summary that is taken over, or else its outline. -/
def outcome (baseline : Option Index) (c : Candidate) : Except Problem Summary :=
  match c.reuse? baseline with
  | some s => .ok s
  | none => c.outline

@[simp] theorem outcome_none (c : Candidate) : c.outcome none = c.outline := rfl

@[simp] theorem summaries_nil : summaries [] = [] := rfl

@[simp] theorem summaries_ok (s : Summary) (os : List (Except Problem Summary)) :
    summaries (.ok s :: os) = s :: summaries os := rfl

@[simp] theorem summaries_error (p : Problem) (os : List (Except Problem Summary)) :
    summaries (.error p :: os) = summaries os := rfl

@[simp] theorem problems_nil : problems [] = [] := rfl

@[simp] theorem problems_ok (s : Summary) (os : List (Except Problem Summary)) :
    problems (.ok s :: os) = problems os := rfl

@[simp] theorem problems_error (p : Problem) (os : List (Except Problem Summary)) :
    problems (.error p :: os) = p :: problems os := rfl

theorem mem_summaries {os : List (Except Problem Summary)} {s : Summary} :
    s ∈ summaries os ↔ .ok s ∈ os := by
  induction os with
  | nil => simp
  | cons o os ih => cases o <;> simp [ih]

theorem mem_problems {os : List (Except Problem Summary)} {p : Problem} :
    p ∈ problems os ↔ .error p ∈ os := by
  induction os with
  | nil => simp
  | cons o os ih => cases o <;> simp [ih]

variable (baseline : Option Index)

/-- The files that a build leaves to its workers. -/
def jobs (cs : List Candidate) : List Candidate := cs.filter fun c => (c.reuse? baseline).isNone

theorem summaries_perm (cs : List Candidate) :
    (cs.filterMap (reuse? baseline) ++ summaries ((jobs baseline cs).map outline)).Perm
      (summaries (cs.map (outcome baseline))) := by
  induction cs with
  | nil => exact .refl _
  | cons c cs ih =>
    rw [jobs] at ih ⊢
    cases hr : c.reuse? baseline with
    | some s =>
      have ho : c.outcome baseline = .ok s := by simp [outcome, hr]
      simpa [hr, ho] using ih
    | none =>
      have ho : c.outcome baseline = c.outline := by simp [outcome, hr]
      cases hc : c.outline with
      | error p => simpa [hr, ho, hc] using ih
      -- what is found stands behind everything that is taken over
      | ok s => simpa [hr, ho, hc] using List.perm_middle.trans (ih.cons s)

/-- All problems are found by the workers. -/
theorem problems_eq (cs : List Candidate) :
    problems ((jobs baseline cs).map outline) = problems (cs.map (outcome baseline)) := by
  induction cs with
  | nil => rfl
  | cons c cs ih =>
    rw [jobs] at ih ⊢
    cases hr : c.reuse? baseline with
    | some s =>
      have ho : c.outcome baseline = .ok s := by simp [outcome, hr]
      simpa [hr, ho] using ih
    | none =>
      have ho : c.outcome baseline = c.outline := by simp [outcome, hr]
      cases hc : c.outline <;> simp [hr, ho, hc, ih]

variable {baseline}

theorem reuse?_path {c : Candidate} {s : Summary} (h : c.reuse? baseline = some s) :
    s.path = c.path := by
  rw [reuse?] at h
  split at h
  · split_ifs at h
    cases h
    rfl
  · cases h

theorem outline_path {c : Candidate} {s : Summary} (h : c.outline = .ok s) : s.path = c.path := by
  rw [outline] at h
  split_ifs at h
  cases h
  rfl

theorem outcome_path {c : Candidate} {s : Summary} (h : c.outcome baseline = .ok s) :
    s.path = c.path := by
  rw [outcome] at h
  split at h
  · rename_i hr
    cases h
    exact reuse?_path hr
  · exact outline_path h

theorem outline_problem_path {c : Candidate} {e : Problem} (h : c.outline = .error e) :
    e.path = c.path := by
  rw [outline] at h
  split_ifs at h <;> (cases h; rfl)

theorem outcome_problem_path {c : Candidate} {e : Problem} (h : c.outcome baseline = .error e) :
    e.path = c.path := by
  rw [outcome] at h
  split at h
  · cases h
  · exact outline_problem_path h

end Candidate

/-! ## Surveys -/

/-- What a build looks at: the root, and what a walk finds below it. -/
def FileTree.survey (t : FileTree) (ignored : Ignore) (p : Path) :
    Except Failure (Path × List Finding) :=
  match t.locate p with
  | .error _ => .error (.io ("index root not found: " ++ p.text))
  | .ok names =>
    match t.get? names with
    | some (.file f) =>
      let path : Path := ⟨names.getLast?.getD ""⟩
      .ok (pathOf names.dropLast,
        (Language.ofPath? path).toList.map fun l => Finding.candidate ⟨path, l, f⟩)
    | some (.directory entries) => .ok (pathOf names, Finding.ofListing ignored ⟨""⟩ entries)
    | _ => .ok (pathOf names, [.skipped (pathOf names)])

theorem FileTree.build_eq_survey (t : FileTree) (o : BuildOptions) (now : Timestamp) (p : Path) :
    t.build o now p = (t.survey o.ignored p).map fun v => Index.ofFindings o now v.1 v.2 := by
  rw [build, survey]
  cases t.locate p with
  | error e => rfl
  | ok names =>
    dsimp only
    cases t.get? names with
    | none => rfl
    | some e => cases e <;> rfl

/-- The files of a survey of a proper tree have different paths. -/
theorem FileTree.survey_pairwise {t : FileTree} {ignored : Ignore} {p root : Path}
    {found : List Finding} (ht : t.isProper = true) (h : t.survey ignored p = .ok (root, found)) :
    (Finding.files found).Pairwise fun c d => ¬ c.path.same d.path = true := by
  rw [survey] at h
  split at h
  · cases h
  · split at h
    · cases h
      cases Language.ofPath? _ <;> simp
    · rename_i entries hget
      cases h
      exact Finding.files_pairwise ignored (by decide) (Listing.isProper_get? ht hget)
    · cases h
      simp

/-! ## Indexes -/

namespace Index

variable (o : BuildOptions) (now : Timestamp) (root : Path) {found : List Finding}

/-- The outcomes of the files that were found. -/
def outcomes (baseline : Option Index) (found : List Finding) : List (Except Problem Summary) :=
  (Finding.candidates found).map (Candidate.outcome baseline)

theorem mem_outcomes {baseline : Option Index} {r : Except Problem Summary} :
    r ∈ outcomes baseline found ↔ ∃ c ∈ Finding.files found, c.outcome baseline = r := by
  simp [outcomes, Finding.mem_candidates]

theorem eq_of_same_files
    (different : (Finding.files found).Pairwise fun c d => ¬ c.path.same d.path = true)
    {c d : Candidate} (hc : c ∈ Finding.files found) (hd : d ∈ Finding.files found)
    (hsame : c.path.same d.path = true) : c = d := by
  have symm : Std.Symm fun c d : Candidate => ¬ c.path.same d.path = true :=
    ⟨fun c d h => by rwa [Path.same_comm]⟩
  by_contra hne
  exact different.forall hc hd hne hsame

/-- Files with different paths have summaries with different paths. -/
theorem eq_of_same_path {baseline : Option Index}
    (different : (Finding.files found).Pairwise fun c d => ¬ c.path.same d.path = true)
    {a b : Summary} (ha : .ok a ∈ outcomes baseline found) (hb : .ok b ∈ outcomes baseline found)
    (hab : a.path.same b.path = true) : a = b := by
  obtain ⟨c, hc, hca⟩ := mem_outcomes.mp ha
  obtain ⟨d, hd, hdb⟩ := mem_outcomes.mp hb
  rw [Candidate.outcome_path hca, Candidate.outcome_path hdb] at hab
  obtain rfl := eq_of_same_files different hc hd hab
  exact Except.ok.inj (hca.symm.trans hdb)

theorem ofFindings_files_eq : (ofFindings o now root found).1.files =
    ((Finding.candidates found).filterMap (Candidate.reuse? (o.baseline root)) ++
      Candidate.summaries ((Candidate.jobs (o.baseline root) (Finding.candidates found)).map
        Candidate.outline)).mergeSort fun a b => a.path.le b.path := by
  simp only [ofFindings, assemble, Workers.run_eq_map]
  rfl

/-- **An index lists the summaries of its files in the order of their paths.** -/
theorem ofFindings_files
    (different : (Finding.files found).Pairwise fun c d => ¬ c.path.same d.path = true) :
    (ofFindings o now root found).1.files =
      (Candidate.summaries (outcomes (o.baseline root) found)).mergeSort
        fun a b => a.path.le b.path := by
  have hperm := Candidate.summaries_perm (o.baseline root) (Finding.candidates found)
  rw [ofFindings_files_eq]
  refine mergeSort_path_eq Summary.path hperm fun a ha b hb => ?_
  rw [hperm.mem_iff, Candidate.mem_summaries] at ha hb
  exact eq_of_same_path different ha hb

/-- **An index lists the problems with its files in the order of their paths.** -/
theorem ofFindings_problems :
    (ofFindings o now root found).1.problems =
      (Candidate.problems (outcomes (o.baseline root) found)).mergeSort
        fun a b => a.path.le b.path := by
  simp only [ofFindings, assemble, Workers.run_eq_map]
  exact congrArg (List.mergeSort · _) (Candidate.problems_eq _ _)

theorem mem_ofFindings_files {s : Summary} (h : s ∈ (ofFindings o now root found).1.files) :
    ∃ c ∈ Finding.files found, c.outcome (o.baseline root) = .ok s := by
  rw [ofFindings_files_eq, List.mem_mergeSort, (Candidate.summaries_perm _ _).mem_iff,
    Candidate.mem_summaries] at h
  exact mem_outcomes.mp h

end Index

end SourceAtlas
