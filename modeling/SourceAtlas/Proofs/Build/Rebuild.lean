import SourceAtlas.Proofs.Build.Account

/-!
# Builds of files that did not change

A build from scratch records what the files look like. When the same files are built again on top of
the index, also after it was written to a snapshot and read again, every summary is taken over: no
file is looked into but those that have no summary.

* `Index.Recounts.outcome_eq`: what is taken over from an index with the outlines of the files;
* `Index.Recounts.parsed_eq_zero`: nothing is found anew;
* **`FileTree.rebuild_reuses`**: a rebuild takes everything over.
-/

namespace SourceAtlas

namespace Index

variable {i : Index} {found : List Finding}

namespace Recounts

variable (h : i.Recounts found)

include h

/-- What is taken over is what would have been found. -/
theorem outcome_eq {c : Candidate} (hc : c ∈ Finding.files found) :
    c.outcome (some i) = c.outline := by
  have alone : ∀ d ∈ Finding.files found, d.looksLike c = true → d = c := fun d hd hlook =>
    eq_of_same_files h.different hd hc (Candidate.looksLike_iff.mp hlook).1
  have sources : ∀ j ∈ some i, ∀ t ∈ j.files, ∃ d, d ∈ Finding.files found ∧ d.IsSourceOf t := by
    rintro j ⟨⟩ t ht
    obtain ⟨d, hd, hout⟩ := h.mem_files_iff.mp ht
    exact ⟨d, hd, Candidate.isSourceOf_of_outline hout⟩
  refine Candidate.outcome_eq_outline sources (fun d hd hlook => ?_) fun hreuse => ?_
  · rw [alone d hd hlook]
  · obtain ⟨s, hs⟩ := Option.isSome_iff_exists.mp hreuse
    obtain ⟨d, hd, hsource, hlook⟩ := Candidate.IsSourceOf.of_reuse? sources hs
    rw [alone d hd hlook] at hsource
    exact (Candidate.isOk_outline_iff.mp hsource.parsed).1

theorem outcomes_eq : outcomes (some i) found = outcomes none found :=
  List.map_congr_left fun _ hc => h.outcome_eq (Finding.mem_candidates.mp hc)

theorem summaries_jobs : Candidate.summaries
    ((Candidate.jobs (some i) (Finding.candidates found)).map Candidate.outline) = [] := by
  rw [List.eq_nil_iff_forall_not_mem]
  intro s hs
  rw [Candidate.mem_summaries, List.mem_map] at hs
  obtain ⟨c, hc, hout⟩ := hs
  rw [Candidate.jobs, List.mem_filter] at hc
  have hsome := h.reuse?_isSome (Finding.mem_candidates.mp hc.1) hout c.looksLike_refl
  rw [Option.isNone_iff_eq_none.mp hc.2] at hsome
  cases hsome

variable {o : BuildOptions} (now : Timestamp) {root : Path} (hbase : o.baseline root = some i)

include hbase

theorem parsed_eq_zero : (ofFindings o now root found).2.parsed = 0 := by
  have hnone := h.summaries_jobs
  simp only [ofFindings, Workers.run_eq_map, hbase]
  exact List.length_eq_zero_iff.mpr hnone

theorem files_eq : (ofFindings o now root found).1.files = i.files := by
  rw [ofFindings_files o now root h.different, hbase, h.outcomes_eq, h.files]

theorem problems_eq : (ofFindings o now root found).1.problems =
    (Candidate.problems (outcomes none found)).mergeSort fun a b => a.path.le b.path := by
  rw [ofFindings_problems, hbase, h.outcomes_eq]

end Recounts

theorem candidates_eq_ofFindings (o : BuildOptions) (now : Timestamp) (root : Path)
    (found : List Finding) :
    (ofFindings o now root found).2.candidates =
      (ofFindings o now root found).2.parsed + (ofFindings o now root found).2.reused +
        (ofFindings o now root found).2.failed := by
  have hlength := (paths_perm_ofFindings o now root found).length_eq
  have hfiles := length_files_ofFindings o now root found
  simp only [List.length_append, List.length_map] at hlength
  change (Finding.candidates found).length = _ + (ofFindings o now root found).1.problems.length
  omega

end Index

/-- **A rebuild of files that did not change takes everything over.** The index of a build from
scratch is written to a snapshot before. What is loaded from it, which is the index itself if its
time has a year of four digits, leaves no file to be summarized: all are taken over but those that
failed, which fail again, and summaries and problems are the same. -/
theorem FileTree.rebuild_reuses (t : FileTree) (ignored : Ignore) (workers again : Option Nat)
    (now later : Timestamp) (p : Path) (i : Index) (s : BuildReport) (proper : t.isProper = true)
    (hbuild : t.build { ignored, workers } now p = .ok (i, s)) :
    (now.isValid = true → 0 ≤ now.year → now.year ≤ 9999 →
      Snapshot.loadBytes (Snapshot.save i).toUTF8 = .ok i) ∧
    ∀ loaded, Snapshot.loadBytes (Snapshot.save i).toUTF8 = .ok loaded →
      ∃ j r, t.build { ignored, workers := again, previous := some loaded } later p = .ok (j, r) ∧
        r.parsed = 0 ∧ r.reused = r.candidates - r.failed ∧ r.failed ≤ r.candidates ∧
        r.failed = s.failed ∧ j.files = i.files ∧ j.problems = i.problems := by
  obtain ⟨found, hsurvey, hfound⟩ := Index.exists_survey hbuild
  have hi : (Index.ofFindings { ignored, workers } now i.root found).1 = i := by rw [hfound]
  have hs : (Index.ofFindings { ignored, workers } now i.root found).2 = s := by rw [hfound]
  have hversion : i.schemaVersion = Index.currentSchema := by rw [← hi]; rfl
  have htime : i.generatedAt = now := by rw [← hi]; rfl
  refine ⟨fun hvalid hlow hhigh => ?_, fun loaded hload => ?_⟩
  · rw [Snapshot.loadBytes_toUTF8]
    exact Snapshot.load_save hversion (htime ▸ hvalid) (htime ▸ hlow) (htime ▸ hhigh)
  · rw [Snapshot.loadBytes_toUTF8] at hload
    obtain ⟨hroot, hfiles⟩ := Snapshot.eq_of_load_save hversion hload
    have hscratch : i.Recounts found := by
      rw [← hi]
      exact Index.recounts_ofFindings _ now i.root (survey_pairwise proper hsurvey)
        fun _ hnone => by cases hnone
    have hloaded : loaded.Recounts found := ⟨hscratch.different, hfiles.trans hscratch.files⟩
    let o : BuildOptions := { ignored, workers := again, previous := some loaded }
    have hbase : o.baseline i.root = some loaded :=
      Option.filter_eq_some_iff.mpr ⟨rfl, Path.same_iff.mpr (by rw [hroot])⟩
    have hnone := hloaded.parsed_eq_zero later hbase
    have hcount := Index.candidates_eq_ofFindings o later i.root found
    have hproblems : (Index.ofFindings o later i.root found).1.problems = i.problems := by
      rw [hloaded.problems_eq later hbase, ← hi, Index.ofFindings_problems]
      rfl
    refine ⟨_, _, ?_, hnone, ?_, ?_, ?_, (hloaded.files_eq later hbase).trans hfiles, hproblems⟩
    · rw [build_eq_survey, hsurvey]
      rfl
    · omega
    · omega
    · rw [← hs]
      exact congrArg List.length (hproblems.trans (congrArg Index.problems hi.symm))

/-- A directory with two files that can be summarized, one of them further inside, and one that is
no UTF-8. -/
def FileTree.mixed : FileTree where
  entries := [("w", .directory [
    ("src", .directory [("lib.rs", .file ⟨"fn f() {}\n".toUTF8, 3, true⟩)]),
    ("b.py", .file ⟨⟨#[0xff]⟩, -7, true⟩),
    ("a.go", .file ⟨"package a\n".toUTF8, 5, true⟩)])]
  current := []

/-- What a walk finds there. -/
def FileTree.mixedFindings : List Finding :=
  [.candidate ⟨⟨"src/lib.rs"⟩, .rust, ⟨"fn f() {}\n".toUTF8, 3, true⟩⟩,
    .candidate ⟨⟨"b.py"⟩, .python, ⟨⟨#[0xff]⟩, -7, true⟩⟩,
    .candidate ⟨⟨"a.go"⟩, .go, ⟨"package a\n".toUTF8, 5, true⟩⟩]

theorem FileTree.rebuild_reuses_mixed :
    ∃ i s, mixed.build {} .epoch ⟨"/w"⟩ = .ok (i, s) ∧ s.candidates = 3 ∧ s.failed = 1 ∧
      Snapshot.loadBytes (Snapshot.save i).toUTF8 = .ok i ∧
      ∃ j r, mixed.build { previous := some i } .epoch ⟨"/w"⟩ = .ok (j, r) ∧
        r.candidates = 3 ∧ r.parsed = 0 ∧ r.reused = 2 ∧ r.failed = 1 ∧
        j.files = i.files ∧ j.problems = i.problems := by
  have hsurvey : mixed.survey (fun _ _ => false) ⟨"/w"⟩ = .ok (⟨"/w"⟩, mixedFindings) := by
    refine (BuildStep.survey_sample _ false _).trans ?_
    congr 2
    decide +kernel
  have hcandidates : ∀ {o : BuildOptions} {j : Index} {r : BuildReport},
      o.ignored = (fun _ _ => false) → mixed.build o .epoch ⟨"/w"⟩ = .ok (j, r) →
      r.candidates = 3 := by
    intro o j r ho hbuild
    have hlength : (Finding.candidates mixedFindings).length = 3 := List.length_mergeSort _
    rw [build_eq_survey, ho, hsurvey] at hbuild
    rw [← congrArg (·.2.candidates) (Except.ok.inj hbuild)]
    exact hlength
  obtain ⟨i, s, hi, hfailed⟩ : ∃ i s, mixed.build {} .epoch ⟨"/w"⟩ = .ok (i, s) ∧
      s.failed = 1 := by
    rw [build_eq_survey, hsurvey]
    have hperm : (Index.outcomes none mixedFindings).Perm
        ((Finding.files mixedFindings).map Candidate.outline) := (List.mergeSort_perm _ _).map _
    refine ⟨_, _, rfl, ?_⟩
    change (Index.ofFindings _ _ _ mixedFindings).1.problems.length = 1
    rw [Index.ofFindings_problems, List.length_mergeSort]
    refine (hperm.filterMap _).length_eq.trans ?_
    decide +kernel
  obtain ⟨hload, hrebuild⟩ := FileTree.rebuild_reuses mixed (fun _ _ => false) none none .epoch
    .epoch ⟨"/w"⟩ i s rfl hi
  have hloaded := hload (by decide) (by decide) (by decide)
  obtain ⟨j, r, hj, hparsed, hreused, -, hsame, hfiles⟩ := hrebuild i hloaded
  have hthree := hcandidates rfl hj
  exact ⟨i, s, hi, hcandidates rfl hi, hfailed, hloaded, j, r, hj, hthree, hparsed, by omega,
    by omega, hfiles⟩

end SourceAtlas
