import SourceAtlas.Proofs.Build.Reuse
import SourceAtlas.Proofs.Summary.Normal

/-!
# What a build accounts for

Every file that a walk finds is accounted for in the index, once: by a summary or by a problem. The
summaries are normal, also those that were taken over from index to index.

* `Finding.ofPath?_of_mem`: what a walk takes for the language of a file is told by its path;
* `Candidate.paths_perm`: the outcomes of files have the paths of the files;
* `Index.IsBuilt`, `Index.IsBuilt.isNormal`: the summaries of builds upon builds;
* **`FileTree.build_isSound`**: what is said about an index that a build returns.
-/

namespace SourceAtlas

/-! ## Languages -/

namespace Finding

mutual

theorem ofPath?_entry (ignored : Ignore) (path : Path) (name : String) : ∀ e : Entry,
    ∀ c ∈ files (ofEntry ignored path name e), Language.ofPath? c.path = some c.language
  | .file f, c, hc => by
    rw [ofEntry] at hc
    split at hc
    · rename_i language hlanguage
      split_ifs at hc
      · simp at hc
      · obtain rfl : c = _ := by simpa using hc
        exact hlanguage
    · simp at hc
  | .link _, c, hc => by simp [ofEntry] at hc
  | .closed, c, hc => by
    rw [ofEntry] at hc
    split_ifs at hc <;> simp at hc
  | .directory entries, c, hc => by
    rw [ofEntry] at hc
    split_ifs at hc
    · simp at hc
    · exact ofPath?_of_mem ignored path entries c hc

/-- **What a walk takes for the language of a file is told by its path.** -/
theorem ofPath?_of_mem (ignored : Ignore) (directory : Path) : ∀ l : List (String × Entry),
    ∀ c ∈ files (ofListing ignored directory l), Language.ofPath? c.path = some c.language
  | [], c, hc => by simp [ofListing] at hc
  | x :: rest, c, hc => by
    rw [ofListing, files_append, List.mem_append] at hc
    rcases hc with hc | hc
    · exact ofPath?_named ignored directory x c hc
    · exact ofPath?_of_mem ignored directory rest c hc

theorem ofPath?_named (ignored : Ignore) (directory : Path) : ∀ x : String × Entry,
    ∀ c ∈ files (ofNamed ignored directory x), Language.ofPath? c.path = some c.language
  | (name, e), c, hc => by
    rw [ofNamed] at hc
    exact ofPath?_entry ignored (directory.join ⟨name⟩) name e c hc

end

end Finding

theorem FileTree.survey_language {t : FileTree} {ignored : Ignore} {p root : Path}
    {found : List Finding} (h : t.survey ignored p = .ok (root, found)) :
    ∀ c ∈ Finding.files found, Language.ofPath? c.path = some c.language := by
  rw [survey] at h
  split at h
  · cases h
  · split at h
    · rename_i names _ _ f _
      cases h
      intro c hc
      cases hl : Language.ofPath? ⟨names.getLast?.getD ""⟩ with
      | none => simp [hl] at hc
      | some language =>
        obtain rfl : c = ⟨⟨names.getLast?.getD ""⟩, language, f⟩ := by simpa [hl] using hc
        exact hl
    · cases h
      exact Finding.ofPath?_of_mem ignored _ _
    · cases h
      simp

/-! ## Paths -/

namespace Candidate

variable {baseline : Option Index} {c : Candidate}

theorem paths_perm (baseline : Option Index) (cs : List Candidate) :
    ((summaries (cs.map (outcome baseline))).map (·.path) ++
      (problems (cs.map (outcome baseline))).map (·.path)).Perm (cs.map (·.path)) := by
  induction cs with
  | nil => exact .refl _
  | cons c cs ih =>
    rw [List.map_cons, List.map_cons]
    cases hc : c.outcome baseline with
    | ok s =>
      rw [summaries_ok, problems_ok, List.map_cons, List.cons_append, outcome_path hc]
      exact ih.cons _
    | error e =>
      rw [summaries_error, problems_error, List.map_cons, outcome_problem_path hc]
      exact List.perm_middle.trans (ih.cons _)

theorem outcome_language {s : Summary} (h : c.outcome baseline = .ok s) :
    s.language = c.language := by
  rw [outcome] at h
  split at h
  · rename_i hr
    cases h
    obtain ⟨j, -, old, -, -, hcurrent, rfl⟩ := of_reuse?_eq_some hr
    simp only [isCurrent, Bool.and_eq_true, beq_iff_eq] at hcurrent
    exact hcurrent.1.1
  · rw [outline] at h
    split_ifs at h
    cases h
    rfl

end Candidate

/-! ## Builds upon builds -/

namespace Index

variable {o : BuildOptions} {now : Timestamp} {root : Path} {found : List Finding}

/-- An index that a build returned, which may have taken summaries over from one that a build
returned. -/
inductive IsBuilt : Index → Prop
  | build {t : FileTree} {o : BuildOptions} {now : Timestamp} {p : Path} {i : Index}
      {r : BuildReport}
      (hprevious : ∀ j, o.previous = some j → j.root.same i.root = true → IsBuilt j)
      (hbuild : t.build o now p = .ok (i, r)) : IsBuilt i

theorem exists_survey {t : FileTree} {p : Path} {i : Index} {r : BuildReport}
    (hbuild : t.build o now p = .ok (i, r)) : ∃ found,
      t.survey o.ignored p = .ok (i.root, found) ∧ ofFindings o now i.root found = (i, r) := by
  rw [FileTree.build_eq_survey] at hbuild
  cases hsurvey : t.survey o.ignored p with
  | error e => simp [hsurvey, Except.map] at hbuild
  | ok v =>
    obtain ⟨place, found⟩ := v
    simp only [hsurvey, Except.map, Except.ok.injEq] at hbuild
    have hroot : i.root = place := by
      rw [← congrArg (·.1.root) hbuild]
      rfl
    subst hroot
    exact ⟨found, rfl, hbuild⟩

theorem isNormal_ofFindings
    (hbaseline : ∀ j ∈ o.baseline root, ∀ s ∈ j.files, s.IsNormal) :
    ∀ s ∈ (ofFindings o now root found).1.files, s.IsNormal := by
  intro s hs
  obtain ⟨c, -, hc⟩ := mem_ofFindings_files o now root hs
  rw [Candidate.outcome] at hc
  split at hc
  · rename_i hr
    cases hc
    obtain ⟨j, hj, old, hold, -, -, rfl⟩ := Candidate.of_reuse?_eq_some hr
    exact (hbaseline j hj old hold).withPath c.path
  · obtain ⟨-, -, rfl⟩ := Candidate.outline_ok_iff.mp hc
    have hnormal := Outline.isNormal_ofSource c.language c.path c.file.content
    exact ⟨hnormal.symbols, hnormal.references, hnormal.imports, hnormal.symbol_file,
      hnormal.reference_file⟩

theorem mem_baseline {j : Index} (hj : j ∈ o.baseline root) :
    o.previous = some j ∧ j.root.same root = true := by
  simpa [BuildOptions.baseline, Option.filter_eq_some_iff] using hj

/-- **Builds upon builds make normal summaries.** -/
theorem IsBuilt.isNormal {i : Index} (hi : i.IsBuilt) : ∀ s ∈ i.files, s.IsNormal := by
  induction hi with
  | @build t o now p i r _ hbuild ih =>
    obtain ⟨found, -, hfound⟩ := exists_survey hbuild
    have hfiles : (ofFindings o now i.root found).1.files = i.files := by rw [hfound]
    rw [← hfiles]
    refine isNormal_ofFindings fun j hj => ?_
    obtain ⟨hprevious, hroot⟩ := mem_baseline hj
    exact ih j hprevious hroot

end Index

/-! ## What an index accounts for -/

namespace Index

variable (o : BuildOptions) (now : Timestamp) (root : Path) (found : List Finding)

theorem files_sorted :
    (ofFindings o now root found).1.files.Pairwise fun a b => a.path.le b.path = true := by
  rw [ofFindings_files_eq]
  exact pairwise_mergeSort_path Summary.path _

theorem problems_sorted :
    (ofFindings o now root found).1.problems.Pairwise fun a b => a.path.le b.path = true := by
  rw [ofFindings_problems]
  exact pairwise_mergeSort_path Problem.path _

theorem paths_perm_ofFindings :
    ((ofFindings o now root found).1.files.map (·.path) ++
      (ofFindings o now root found).1.problems.map (·.path)).Perm
        ((Finding.candidates found).map (·.path)) := by
  have hfiles : (ofFindings o now root found).1.files.Perm
      (Candidate.summaries (outcomes (o.baseline root) found)) := by
    rw [ofFindings_files_eq]
    exact (List.mergeSort_perm _ _).trans (Candidate.summaries_perm _ _)
  have hproblems : (ofFindings o now root found).1.problems.Perm
      (Candidate.problems (outcomes (o.baseline root) found)) := by
    rw [ofFindings_problems]
    exact List.mergeSort_perm _ _
  exact ((hfiles.map _).append (hproblems.map _)).trans (Candidate.paths_perm _ _)

theorem length_files_ofFindings : (ofFindings o now root found).1.files.length =
    (ofFindings o now root found).2.parsed + (ofFindings o now root found).2.reused := by
  rw [ofFindings_files_eq, List.length_mergeSort, List.length_append, Nat.add_comm]
  simp only [ofFindings, Workers.run_eq_map]
  rfl

theorem paths_pairwise {found : List Finding}
    (different : (Finding.files found).Pairwise fun c d => ¬ c.path.same d.path = true) :
    ((ofFindings o now root found).1.files.map (·.path) ++
      (ofFindings o now root found).1.problems.map (·.path)).Pairwise
        fun p q => p.same q = false := by
  have symm : ∀ {p q : Path}, p.same q = false → q.same p = false := fun {p q} h => by
    rwa [Path.same_comm]
  have hfound : ((Finding.files found).map (·.path)).Pairwise fun p q => p.same q = false :=
    List.pairwise_map.mpr (different.imp fun h => Bool.eq_false_iff.mpr h)
  have hcandidates : ((Finding.candidates found).map (·.path)).Perm
      ((Finding.files found).map (·.path)) := (List.mergeSort_perm _ _).map _
  exact ((paths_perm_ofFindings o now root found).trans hcandidates).symm.pairwise hfound symm

end Index

/-- **An index that a build returns is sound and complete.** Its summaries and its problems increase
by path, no path has both, and together they have the paths of the files that the walk found. The
report counts each of these files once. Every summary is normal, and its language is the one that
its path tells. What the build takes over must come from builds, too. -/
theorem FileTree.build_isSound (t : FileTree) (o : BuildOptions) (now : Timestamp) (p : Path)
    (i : Index) (r : BuildReport) (proper : t.isProper = true)
    (previous : ∀ j, o.previous = some j → j.root.same i.root = true → j.IsBuilt)
    (hbuild : t.build o now p = .ok (i, r)) :
    i.files.Pairwise (fun a b => a.path.compare b.path = .lt) ∧
    i.problems.Pairwise (fun a b => a.path.compare b.path = .lt) ∧
    (∀ a ∈ i.files, ∀ b ∈ i.problems, a.path.same b.path = false) ∧
    (∃ found, t.survey o.ignored p = .ok (i.root, found) ∧
      (i.files.map (·.path) ++ i.problems.map (·.path)).Perm
        ((Finding.candidates found).map (·.path)) ∧
      r.candidates = (Finding.candidates found).length) ∧
    (r.candidates = r.parsed + r.reused + r.failed ∧ r.parsed + r.reused = i.files.length ∧
      r.failed = i.problems.length) ∧
    ∀ s ∈ i.files, s.IsNormal ∧ Language.ofPath? s.path = some s.language := by
  obtain ⟨found, hsurvey, hfound⟩ := Index.exists_survey hbuild
  have hperm := Index.paths_perm_ofFindings o now i.root found
  have hpaths := Index.paths_pairwise o now i.root (survey_pairwise proper hsurvey)
  have hfiles := Index.files_sorted o now i.root found
  have hproblems := Index.problems_sorted o now i.root found
  have htaken := Index.length_files_ofFindings o now i.root found
  have hcandidates : (Index.ofFindings o now i.root found).2.candidates =
      (Finding.candidates found).length := rfl
  have hfailed : (Index.ofFindings o now i.root found).2.failed =
      (Index.ofFindings o now i.root found).1.problems.length := rfl
  rw [hfound] at hperm hpaths hfiles hproblems htaken hcandidates hfailed
  dsimp only at hperm hpaths hfiles hproblems htaken hcandidates hfailed
  obtain ⟨hfilePaths, hproblemPaths, hcross⟩ := List.pairwise_append.mp hpaths
  refine ⟨pairwise_path_lt hfiles hfilePaths, pairwise_path_lt hproblems hproblemPaths,
    fun a ha b hb => hcross _ (List.mem_map_of_mem ha) _ (List.mem_map_of_mem hb),
    ⟨found, hsurvey, hperm, hcandidates⟩, ⟨?_, htaken.symm, hfailed⟩, fun s hs => ⟨?_, ?_⟩⟩
  · have hlength := hperm.length_eq
    simp only [List.length_append, List.length_map] at hlength
    omega
  · exact (Index.IsBuilt.build previous hbuild).isNormal s hs
  · have hs' : s ∈ (Index.ofFindings o now i.root found).1.files := by rwa [hfound]
    obtain ⟨c, hc, hout⟩ := Index.mem_ofFindings_files o now i.root hs'
    rw [Candidate.outcome_path hout, Candidate.outcome_language hout]
    exact survey_language hsurvey c hc

theorem FileTree.build_isSound_reduced :
    ∃ j s i r, BuildStep.repaired.tree.build {} .epoch ⟨"/w"⟩ = .ok (j, s) ∧
      BuildStep.reduced.tree.build { previous := some j } .epoch ⟨"/w"⟩ = .ok (i, r) ∧
      r.candidates = 1 ∧ r.reused = 1 ∧ r.parsed = 0 ∧ r.failed = 0 ∧ i.files.length = 1 := by
  have hfirst : BuildStep.repaired.tree.survey (fun _ _ => false) ⟨"/w"⟩ = _ :=
    BuildStep.survey_sample _ true _
  obtain ⟨j, s, hj, hroot, hrecounts⟩ := build_recounts rfl hfirst none .epoch
  have hbuilt : j.IsBuilt := .build (fun _ hnone => by cases hnone) hj
  have hbase : BuildOptions.baseline { previous := some j } ⟨"/w"⟩ = some j :=
    Option.filter_eq_some_iff.mpr ⟨rfl, by rw [hroot]; decide +kernel⟩
  obtain ⟨i, r, hi, hone, hreused⟩ : ∃ i r,
      BuildStep.reduced.tree.build { previous := some j } .epoch ⟨"/w"⟩ = .ok (i, r) ∧
        r.candidates = 1 ∧ r.reused = 1 := by
    have hsecond : BuildStep.reduced.tree.survey (fun _ _ => false) ⟨"/w"⟩ = _ :=
      BuildStep.survey_sample _ false _
    have hlength : (Finding.candidates (Finding.ofListing (fun _ _ => false) ⟨""⟩
        [("a.go", .file ⟨"package a\n".toUTF8, 5, true⟩)])).length = 1 := by decide +kernel
    have hstays : ∀ c ∈ Finding.files (Finding.ofListing (fun _ _ => false) ⟨""⟩
        [("a.go", .file ⟨"package a\n".toUTF8, 5, true⟩)]),
        c ∈ Finding.files (Finding.ofListing (fun _ _ => false) ⟨""⟩
          [("a.go", .file ⟨"package a\n".toUTF8, 5, true⟩),
            ("b.py", .file ⟨"x".toUTF8, 9, true⟩)]) ∧
          c.file.isReadable = true ∧ c.file.content.validateUTF8 = true := by decide +kernel
    rw [build_eq_survey, hsecond]
    refine ⟨_, _, rfl, hlength, (hrecounts.reused_eq .epoch hbase fun c hc => ?_).trans hlength⟩
    obtain ⟨hfound, hread⟩ := hstays c hc
    exact ⟨c, hfound, Candidate.isOk_outline_iff.mpr hread, c.looksLike_refl⟩
  have hsound := build_isSound BuildStep.reduced.tree { previous := some j } .epoch ⟨"/w"⟩
    i r rfl (fun k hk _ => Option.some.inj hk ▸ hbuilt) hi
  obtain ⟨-, -, -, -, ⟨hcount, hfiles, -⟩, -⟩ := hsound
  exact ⟨j, s, i, r, hj, hi, hone, hreused, by omega, by omega, by omega⟩

end SourceAtlas
