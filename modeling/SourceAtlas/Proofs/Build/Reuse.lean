import Mathlib.Data.List.Induction
import SourceAtlas.Proofs.Build.Recount
import SourceAtlas.Proofs.Snapshot.RoundTrip
import SourceAtlas.Proofs.Summary.Normal

/-!
# Summaries that are taken over

A build may take summaries over from the index that the build before it made. It asks only what the
files look like. As long as files that look the same hold the same bytes, and the bytes decide
whether a file can be parsed, nobody can tell: over every run of builds, the index is the one that a
build from scratch makes. A file that can no longer be read is the one exception: its summary is
still taken over, but a build from scratch would tell of a problem.

* `Outline.ofSource_withPath`: the path of a source is only written down in its summary;
* `Candidate.IsSourceOf`, `Candidate.outcome_eq_outline`: what is taken over is what would have been
  found;
* `BuildStep`, `BuildStep.indexAfter`: runs of builds;
* `BuildStep.hasSources_indexAfter`: every summary was made of a file that was read in the run;
* `BuildStep.Stable`, `BuildStep.ParsesByBytes`, `BuildStep.Lossless`: what may be asked of a run;
* **`BuildStep.build_eq_fresh`**: when a run ends like a build from scratch.
-/

namespace SourceAtlas

/-! ## Sources under another path -/

theorem Tag.symbols_map_file (language : Language) (p q : Path) (tags : List Tag) :
    (symbols language p tags).map (fun x => { x with file := q }) = symbols language q tags := by
  rw [symbols, symbols, List.map_filterMap]
  congr 1
  funext f
  simp only [symbol?, Option.bind_eq_bind]
  cases f.name.text with
  | none => rfl
  | some name =>
    by_cases hn : name = ""
    · simp [hn]
    · cases f.node.spot.text <;> simp [hn]

theorem Tag.references_map_file (p q : Path) (tags : List Tag) :
    (references p tags).map (fun x => { x with file := q }) = references q tags := by
  rw [references, references, List.map_filterMap]
  congr 1
  funext t
  simp only [reference?, Option.bind_eq_bind]
  cases t.reference with
  | none => rfl
  | some kind =>
    cases t.name with
    | none => rfl
    | some spot => cases h : spot.text <;> simp [h]

/-- **The path of a source is only written down in its summary.** -/
theorem Outline.ofSource_withPath (language : Language) (p q : Path) (source : ByteArray) :
    (ofSource language p source).summary.withPath q = (ofSource language q source).summary := by
  simp only [ofSource, Tag.summary]
  rw [Summary.withPath_normalize, Summary.withPath]
  simp only [Tag.symbols_map_file, Tag.references_map_file]

/-! ## Files that look the same -/

theorem StoredFile.withPath_summary (f : StoredFile) (language : Language) (p q : Path) :
    (f.summary language p).withPath q = f.summary language q := by
  rw [summary, summary, ← Outline.ofSource_withPath language p q f.content]
  rfl

namespace Candidate

/-- A file that was read, and its summary under some spelling of its path. -/
structure IsSourceOf (d : Candidate) (s : Summary) : Prop where
  parsed : d.outline.isOk = true
  path : d.path.same s.path = true
  eq_summary : s = d.file.summary d.language s.path

variable {c d : Candidate} {s : Summary} {baseline : Option Index} {P : Candidate → Prop}

theorem isSourceOf_of_outline (h : c.outline = .ok s) : c.IsSourceOf s := by
  obtain ⟨hread, hvalid, rfl⟩ := outline_ok_iff.mp h
  exact ⟨isOk_outline_iff.mpr ⟨hread, hvalid⟩, Path.same_iff.mpr rfl, rfl⟩

theorem IsSourceOf.of_reuse?
    (sources : ∀ i ∈ baseline, ∀ t ∈ i.files, ∃ d, P d ∧ d.IsSourceOf t)
    (h : c.reuse? baseline = some s) : ∃ d, P d ∧ d.IsSourceOf s ∧ d.looksLike c = true := by
  obtain ⟨i, hi, t, ht, hpath, hcurrent, rfl⟩ := of_reuse?_eq_some h
  obtain ⟨d, hd, hsource⟩ := sources i hi t ht
  have hsame : d.path.same c.path = true := by
    rw [Path.same_congr hsource.path]
    exact hpath
  have heq := hsource.eq_summary
  refine ⟨d, hd, ⟨hsource.parsed, hsame, ?_⟩, ?_⟩
  · rw [heq, StoredFile.withPath_summary]
    rfl
  · rw [heq] at hcurrent
    simp only [isCurrent, Bool.and_eq_true, beq_iff_eq] at hcurrent
    exact looksLike_iff.mpr ⟨hsame, hcurrent.1.1, hcurrent.1.2, hcurrent.2⟩

/-- A file that looks like the source of a summary and has its bytes has this summary. -/
theorem IsSourceOf.outline_eq (h : d.IsSourceOf s) (hpath : s.path = c.path)
    (hlook : d.looksLike c = true) (hbytes : d.file.content = c.file.content)
    (hread : c.file.isReadable = true) : c.outline = .ok s := by
  obtain ⟨-, hlanguage, hsize, htime⟩ := looksLike_iff.mp hlook
  have hvalid := (isOk_outline_iff.mp h.parsed).2
  rw [hbytes] at hvalid
  refine outline_ok_iff.mpr ⟨hread, hvalid, ?_⟩
  rw [h.eq_summary, hpath, StoredFile.summary, StoredFile.summary, hlanguage, hbytes, hsize, htime]

/-- **What is taken over is what would have been found**, if files that look the same have the same
bytes, and if the file can be read. -/
theorem outcome_eq_outline
    (sources : ∀ i ∈ baseline, ∀ t ∈ i.files, ∃ d, P d ∧ d.IsSourceOf t)
    (bytes : ∀ d, P d → d.looksLike c = true → d.file.content = c.file.content)
    (hread : (c.reuse? baseline).isSome = true → c.file.isReadable = true) :
    c.outcome baseline = c.outline := by
  rw [outcome]
  split
  · rename_i s hs
    obtain ⟨d, hd, hsource, hlook⟩ := IsSourceOf.of_reuse? sources hs
    rw [hs] at hread
    exact (hsource.outline_eq (reuse?_path hs) hlook (bytes d hd hlook) (hread rfl)).symm
  · rfl

end Candidate

/-! ## Runs of builds -/

/-- One build of a run. -/
structure BuildStep where
  /-- The files as they are now. -/
  tree : FileTree
  ignored : Ignore
  workers : Option Nat
  now : Timestamp
  /-- Was the index before written to a snapshot and read again? -/
  reloads : Bool

namespace BuildStep

/-- The index that a build starts from, given the index before. -/
def start (s : BuildStep) (before : Option Index) : Option Index :=
  if s.reloads then before.bind fun i => (Snapshot.loadBytes (Snapshot.save i).toUTF8).toOption
  else before

/-- Builds the index of a root. -/
def build (s : BuildStep) (root : Path) (before : Option Index) :
    Except Failure (Index × BuildReport) :=
  s.tree.build ⟨s.ignored, s.workers, s.start before⟩ s.now root

/-- The index after one more build; a build that fails leaves the one before in place. -/
def next (root : Path) (before : Option Index) (s : BuildStep) : Option Index :=
  match s.build root before with
  | .ok (i, _) => some i
  | .error _ => before

/-- The index after a run of builds, of which the first starts from nothing. -/
def indexAfter (root : Path) (steps : List BuildStep) : Option Index :=
  steps.foldl (next root) none

/-- The files that a build finds, each with the place to which the root leads. -/
def finds (s : BuildStep) (root : Path) : List (Path × Candidate) :=
  match s.tree.survey s.ignored root with
  | .ok (place, found) => (Finding.files found).map fun c => (place, c)
  | .error _ => []

/-- The files that a run finds. -/
def allFinds (root : Path) (steps : List BuildStep) : List (Path × Candidate) :=
  steps.flatMap (·.finds root)

/-- The files that a build does not look into, as it takes their summaries over. -/
def takenOver (s : BuildStep) (root : Path) (before : Option Index) : List (Path × Candidate) :=
  (s.finds root).filter fun x =>
    (x.2.reuse? ((s.start before).filter fun i => i.root.same x.1)).isSome

/-- Files that look the same have the same bytes throughout a run. -/
def Stable (root : Path) (steps : List BuildStep) : Prop :=
  ∀ x ∈ allFinds root steps, ∀ y ∈ allFinds root steps, x.1.same y.1 = true →
    x.2.looksLike y.2 = true → x.2.file.content = y.2.file.content

/-- Parsing is a function of path, language and bytes throughout a run: they decide which files are
summarized and which ones fail. -/
def ParsesByBytes (root : Path) (steps : List BuildStep) : Prop :=
  ∃ parses : List Component → Language → ByteArray → Bool, ∀ x ∈ allFinds root steps,
    x.2.outline.isOk = parses x.2.path.components x.2.language x.2.file.content

/-- Whenever an index is written to a snapshot in a run, it is read as it was. -/
def Lossless (root : Path) (steps : List BuildStep) : Prop :=
  ∀ earlier s, earlier ++ [s] <+: steps → s.reloads = true → ∀ i ∈ indexAfter root earlier,
    Snapshot.loadBytes (Snapshot.save i).toUTF8 = .ok i

/-- A file that a run finds below a place. -/
def FindsAt (root : Path) (steps : List BuildStep) (place : Path) (c : Candidate) : Prop :=
  ∃ q, (q, c) ∈ allFinds root steps ∧ q.same place = true

/-- Every summary of an index was made of a file that was read in a run, below the same root. -/
def HasSources (root : Path) (steps : List BuildStep) (i : Index) : Prop :=
  ∀ s ∈ i.files, ∃ d, FindsAt root steps i.root d ∧ d.IsSourceOf s

variable {root : Path} {earlier steps : List BuildStep} {s : BuildStep}

theorem parsesByBytes_of_readable
    (h : ∀ x ∈ allFinds root steps, x.2.file.isReadable = true) : ParsesByBytes root steps := by
  refine ⟨fun _ _ bytes => bytes.validateUTF8, fun x hx => ?_⟩
  rw [Bool.eq_iff_iff, Candidate.isOk_outline_iff, h x hx]
  simp

theorem FindsAt.append {place : Path} {c : Candidate} (h : FindsAt root earlier place c) :
    FindsAt root (earlier ++ [s]) place c := by
  obtain ⟨q, hq, hplace⟩ := h
  refine ⟨q, ?_, hplace⟩
  rw [allFinds, List.flatMap_append]
  exact List.mem_append_left _ hq

theorem FindsAt.congr {p q : Path} {c : Candidate} (h : FindsAt root steps p c)
    (hpq : p.same q = true) : FindsAt root steps q c := by
  obtain ⟨r, hr, hplace⟩ := h
  refine ⟨r, hr, ?_⟩
  rw [Path.same_congr hplace]
  exact hpq

theorem findsAt_last {place : Path} {c : Candidate} (hc : (place, c) ∈ s.finds root) :
    FindsAt root (earlier ++ [s]) place c :=
  ⟨place, List.mem_flatMap.mpr ⟨s, by simp, hc⟩, Path.same_iff.mpr rfl⟩

theorem Lossless.mono (h : Lossless root (earlier ++ [s])) : Lossless root earlier :=
  fun e t het => h e t (het.trans (List.prefix_append _ _))

theorem finds_eq {place : Path} {found : List Finding}
    (h : s.tree.survey s.ignored root = .ok (place, found)) :
    s.finds root = (Finding.files found).map fun c => (place, c) := by
  rw [finds, h]

theorem indexAfter_append (root : Path) (earlier : List BuildStep) (s : BuildStep) :
    indexAfter root (earlier ++ [s]) = next root (indexAfter root earlier) s := by
  rw [indexAfter, indexAfter, List.foldl_append, List.foldl_cons, List.foldl_nil]

theorem start_eq (h : Lossless root (earlier ++ [s])) :
    s.start (indexAfter root earlier) = indexAfter root earlier := by
  rw [start]
  split_ifs with hr
  · cases hi : indexAfter root earlier with
    | none => rfl
    | some i =>
      rw [Option.bind_some, h earlier s List.prefix_rfl hr i hi]
      rfl
  · rfl

theorem generatedAt_indexAfter : ∀ i ∈ indexAfter root steps,
    i.schemaVersion = Index.currentSchema ∧ ∃ s ∈ steps, i.generatedAt = s.now := by
  induction steps using List.reverseRecOn with
  | nil => simp [indexAfter]
  | append_singleton earlier s ih =>
    intro i hi
    rw [indexAfter_append, next] at hi
    split at hi
    · rename_i j report hbuild
      cases hi
      rw [build, FileTree.build_eq_survey] at hbuild
      cases hsurvey : s.tree.survey s.ignored root with
      | error e => simp [hsurvey, Except.map] at hbuild
      | ok v =>
        simp only [hsurvey, Except.map, Except.ok.injEq] at hbuild
        obtain rfl : _ = i := congrArg Prod.fst hbuild
        exact ⟨rfl, s, by simp, rfl⟩
    · obtain ⟨hversion, t, ht, htime⟩ := ih i hi
      exact ⟨hversion, t, List.mem_append_left _ ht, htime⟩

/-- Snapshots are lossless in a run of builds at times with a year of four digits. -/
theorem lossless_of_year (h : ∀ s ∈ steps, s.now.isValid = true ∧ 0 ≤ s.now.year ∧
    s.now.year ≤ 9999) : Lossless root steps := by
  intro earlier s hrun _ i hi
  obtain ⟨hversion, t, ht, htime⟩ := generatedAt_indexAfter i hi
  obtain ⟨hvalid, hlow, hhigh⟩ := h t (hrun.subset (List.mem_append_left _ ht))
  rw [Snapshot.loadBytes_toUTF8]
  exact Snapshot.load_save hversion (htime ▸ hvalid) (htime ▸ hlow) (htime ▸ hhigh)

/-! ## Where summaries come from -/

theorem sources_of_root {before : Option Index} (sources : ∀ i ∈ before, HasSources root steps i)
    (place : Path) : ∀ i ∈ before.filter fun i => i.root.same place, ∀ t ∈ i.files,
      ∃ d, FindsAt root steps place d ∧ d.IsSourceOf t := by
  intro i hi t ht
  obtain ⟨hbefore, hroot⟩ := Option.filter_eq_some_iff.mp hi
  obtain ⟨d, hd, hsource⟩ := sources i hbefore t ht
  exact ⟨d, hd.congr hroot, hsource⟩

/-- One more build keeps the sources of what it takes over and reads those of the rest. -/
theorem hasSources_next (lossless : Lossless root (earlier ++ [s]))
    (sources : ∀ i ∈ indexAfter root earlier, HasSources root earlier i) :
    ∀ i ∈ next root (indexAfter root earlier) s, HasSources root (earlier ++ [s]) i := by
  intro i hi
  rw [next] at hi
  split at hi
  · rename_i j report hbuild
    cases hi
    rw [build, FileTree.build_eq_survey, start_eq lossless] at hbuild
    cases hsurvey : s.tree.survey s.ignored root with
    | error e => simp [hsurvey, Except.map] at hbuild
    | ok v =>
      obtain ⟨place, found⟩ := v
      simp only [hsurvey, Except.map, Except.ok.injEq] at hbuild
      obtain rfl : _ = i := congrArg Prod.fst hbuild
      intro t ht
      obtain ⟨c, hc, hout⟩ := Index.mem_ofFindings_files _ _ _ ht
      rw [Candidate.outcome] at hout
      split at hout
      · rename_i hreuse
        cases hout
        obtain ⟨d, hd, hsource, -⟩ :=
          Candidate.IsSourceOf.of_reuse? (sources_of_root sources place) hreuse
        exact ⟨d, hd.append, hsource⟩
      · refine ⟨c, findsAt_last ?_, Candidate.isSourceOf_of_outline hout⟩
        rw [finds_eq hsurvey]
        exact List.mem_map_of_mem hc
  · -- the build failed, and the index before stays
    intro t ht
    obtain ⟨d, hd, hsource⟩ := sources i hi t ht
    exact ⟨d, hd.append, hsource⟩

/-- **Every summary that a run leaves was made of a file that was read,** however often it was taken
over since. -/
theorem hasSources_indexAfter (lossless : Lossless root steps) :
    ∀ i ∈ indexAfter root steps, HasSources root steps i := by
  induction steps using List.reverseRecOn with
  | nil => simp [indexAfter]
  | append_singleton earlier s ih =>
    rw [indexAfter_append]
    exact hasSources_next lossless (ih lossless.mono)

/-! ## Runs that end like a build from scratch -/

theorem mem_takenOver_iff (lossless : Lossless root (earlier ++ [s])) {place : Path}
    {found : List Finding} (hsurvey : s.tree.survey s.ignored root = .ok (place, found))
    {x : Path × Candidate} : x ∈ s.takenOver root (indexAfter root earlier) ↔
      x.1 = place ∧ x.2 ∈ Finding.files found ∧ (x.2.reuse?
        ((indexAfter root earlier).filter fun i => i.root.same place)).isSome = true := by
  rw [takenOver, List.mem_filter, start_eq lossless, finds_eq hsurvey, List.mem_map]
  constructor
  · rintro ⟨⟨c, hc, rfl⟩, hreuse⟩
    exact ⟨rfl, hc, hreuse⟩
  · obtain ⟨q, c⟩ := x
    rintro ⟨rfl, hc, hreuse⟩
    exact ⟨⟨c, hc, rfl⟩, hreuse⟩

theorem Stable.content_eq (stable : Stable root (earlier ++ [s])) {x : Path × Candidate}
    (hx : x ∈ s.finds root) {d : Candidate} (hd : FindsAt root earlier x.1 d)
    (hlook : d.looksLike x.2 = true) : d.file.content = x.2.file.content := by
  obtain ⟨q, hq, hplace⟩ := hd.append (s := s)
  exact stable (q, d) hq x (List.mem_flatMap.mpr ⟨s, by simp, hx⟩) hplace hlook

/-- If parsing is a function of path, language and bytes, what a stable run takes over can be
read. -/
theorem isReadable_of_mem_takenOver (stable : Stable root (earlier ++ [s]))
    (lossless : Lossless root (earlier ++ [s])) (parses : ParsesByBytes root (earlier ++ [s]))
    {x : Path × Candidate} (hx : x ∈ s.takenOver root (indexAfter root earlier)) :
    x.2.file.isReadable = true := by
  obtain ⟨hfinds, hreuse⟩ := List.mem_filter.mp hx
  rw [start_eq lossless] at hreuse
  obtain ⟨t, ht⟩ := Option.isSome_iff_exists.mp hreuse
  obtain ⟨d, hd, hsource, hlook⟩ := Candidate.IsSourceOf.of_reuse?
    (sources_of_root (hasSources_indexAfter lossless.mono) x.1) ht
  have hbytes := stable.content_eq hfinds hd hlook
  -- the file has the path, the language and the bytes of one that was parsed
  obtain ⟨parse, hparse⟩ := parses
  obtain ⟨q, hq, -⟩ := hd.append (s := s)
  obtain ⟨hpath, hlanguage, -⟩ := Candidate.looksLike_iff.mp hlook
  have hok : x.2.outline.isOk = true := by
    rw [hparse x (List.mem_flatMap.mpr ⟨s, by simp, hfinds⟩), ← hbytes, ← hlanguage,
      ← Path.same_iff.mp hpath, ← hparse (q, d) hq]
    exact hsource.parsed
  exact (Candidate.isOk_outline_iff.mp hok).1

/-- A build that takes over only what can be read makes of every file what a build from scratch
makes of it. -/
theorem outcomes_eq (stable : Stable root (earlier ++ [s]))
    (lossless : Lossless root (earlier ++ [s])) {place : Path} {found : List Finding}
    (hsurvey : s.tree.survey s.ignored root = .ok (place, found))
    (hread : ∀ x ∈ s.takenOver root (indexAfter root earlier), x.2.file.isReadable = true) :
    Index.outcomes ((indexAfter root earlier).filter fun i => i.root.same place) found =
      Index.outcomes none found := by
  refine List.map_congr_left fun c hc => ?_
  rw [Finding.mem_candidates] at hc
  have hfinds : (place, c) ∈ s.finds root := by
    rw [finds_eq hsurvey]
    exact List.mem_map_of_mem hc
  refine Candidate.outcome_eq_outline
    (sources_of_root (hasSources_indexAfter lossless.mono) place)
    (fun d hd => stable.content_eq hfinds hd) fun hreuse => ?_
  exact hread (place, c) ((mem_takenOver_iff lossless hsurvey).mpr ⟨rfl, hc, hreuse⟩)

/-- What an index says about its files. -/
def verdict (r : Index × BuildReport) : List Summary × List Problem := (r.1.files, r.1.problems)

end BuildStep

/-- What is taken over has no problem. -/
theorem Index.isReadable_of_problems_eq {baseline : Option Index} {found : List Finding}
    (different : (Finding.files found).Pairwise fun c d => ¬ c.path.same d.path = true)
    (h : (Candidate.problems (outcomes baseline found)).mergeSort (fun a b => a.path.le b.path) =
      (Candidate.problems (outcomes none found)).mergeSort fun a b => a.path.le b.path)
    {c : Candidate} (hc : c ∈ Finding.files found) (hreuse : (c.reuse? baseline).isSome = true) :
    c.file.isReadable = true := by
  by_contra hclosed
  obtain ⟨p, hp⟩ : ∃ p, c.outline = .error p := by
    cases hout : c.outline with
    | error p => exact ⟨p, rfl⟩
    | ok s => exact absurd (Candidate.outline_ok_iff.mp hout).1 hclosed
  have hmem : p ∈ Candidate.problems (outcomes baseline found) := by
    rw [← List.mem_mergeSort, h, List.mem_mergeSort, Candidate.mem_problems]
    exact mem_outcomes.mpr ⟨c, hc, hp⟩
  obtain ⟨d, hd, hdp⟩ := mem_outcomes.mp (Candidate.mem_problems.mp hmem)
  have hpath : c.path.same d.path = true := by
    rw [← Candidate.outline_problem_path hp, ← Candidate.outcome_problem_path hdp]
    exact Path.same_iff.mpr rfl
  obtain rfl := eq_of_same_files different hc hd hpath
  obtain ⟨s, hs⟩ := Option.isSome_iff_exists.mp hreuse
  rw [Candidate.outcome, hs] at hdp
  cases hdp

namespace BuildStep

/-- **A run ends like a build from scratch.** However the files were changed between the builds of a
run and whatever they ignored, let files that look the same have the same bytes, and let snapshots
be lossless. If parsing is a function of path, language and bytes, the last build finds the
summaries and the problems that a build of the same files finds which has nothing to take over, and
it fails if and only if that one fails. Without this, it does so exactly if all files whose
summaries it takes over can still be read. -/
theorem build_eq_fresh (root : Path) (steps : List BuildStep) (last : BuildStep)
    (workers : Option Nat) (now : Timestamp) (proper : last.tree.isProper = true)
    (stable : Stable root (steps ++ [last])) (lossless : Lossless root (steps ++ [last])) :
    let endsFresh : Prop := (last.build root (indexAfter root steps)).map verdict =
      (last.tree.build { ignored := last.ignored, workers } now root).map verdict
    (ParsesByBytes root (steps ++ [last]) → endsFresh) ∧
    (endsFresh ↔
      ∀ x ∈ last.takenOver root (indexAfter root steps), x.2.file.isReadable = true) := by
  intro endsFresh
  have hiff : endsFresh ↔
      ∀ x ∈ last.takenOver root (indexAfter root steps), x.2.file.isReadable = true := by
    unfold endsFresh
    rw [build, start_eq lossless, FileTree.build_eq_survey, FileTree.build_eq_survey]
    cases hsurvey : last.tree.survey last.ignored root with
    | error e => simp [takenOver, finds, hsurvey, Except.map]
    | ok v =>
      obtain ⟨place, found⟩ := v
      have different := FileTree.survey_pairwise proper hsurvey
      simp only [Except.map, verdict, Except.ok.injEq, Prod.mk.injEq,
        Index.ofFindings_files _ _ _ different, Index.ofFindings_problems, BuildOptions.baseline,
        Option.filter_none]
      constructor
      · rintro ⟨-, hproblems⟩ x hx
        obtain ⟨-, hc, hreuse⟩ := (mem_takenOver_iff lossless hsurvey).mp hx
        exact Index.isReadable_of_problems_eq different hproblems hc hreuse
      · intro hread
        rw [outcomes_eq stable lossless hsurvey hread]
        exact ⟨rfl, rfl⟩
  exact ⟨fun parses => hiff.mpr fun x hx => isReadable_of_mem_takenOver stable lossless parses hx,
    hiff⟩

/-! ## Two runs -/

theorem recounts_indexAfter (earlier : List BuildStep) (s : BuildStep)
    (lossless : Lossless root (earlier ++ [s])) (proper : s.tree.isProper = true) {place : Path}
    {found : List Finding} (hsurvey : s.tree.survey s.ignored root = .ok (place, found))
    (hbefore : ∀ j ∈ indexAfter root earlier, j.files = []) :
    ∃ i, indexAfter root (earlier ++ [s]) = some i ∧ i.root = place ∧ i.Recounts found := by
  rw [indexAfter_append, next, build, FileTree.build_eq_survey, start_eq lossless, hsurvey]
  refine ⟨_, rfl, rfl, Index.recounts_ofFindings _ _ _ (FileTree.survey_pairwise proper hsurvey) ?_⟩
  intro j hj
  exact hbefore j (Option.filter_eq_some_iff.mp hj).1

theorem mem_takenOver_of_recounts (lossless : Lossless root (earlier ++ [s])) {i : Index}
    {found : List Finding} (hi : indexAfter root earlier = some i) (h : i.Recounts found)
    {d : Candidate} (hd : d ∈ Finding.files found) (hok : d.outline.isOk = true)
    {x : Path × Candidate} (hx : x ∈ s.finds root) (hroot : i.root.same x.1 = true)
    (hlook : d.looksLike x.2 = true) : x ∈ s.takenOver root (indexAfter root earlier) := by
  refine List.mem_filter.mpr ⟨hx, ?_⟩
  rw [start_eq lossless, hi, Option.filter_some, if_pos hroot]
  exact h.reuse?_isSome hd (Candidate.outline_of_isOk hok) hlook

/-- A build of a directory `w` with some files. -/
def sample (files : Listing) (reloads : Bool) : BuildStep :=
  ⟨⟨[("w", .directory files)], []⟩, fun _ _ => false, none, .epoch, reloads⟩

/-- A file is no UTF-8. -/
def broken : BuildStep := sample [("b.py", .file ⟨⟨#[0xff]⟩, 7, true⟩)] false

/-- The file is repaired and another one is added. -/
def repaired : BuildStep :=
  sample [("a.go", .file ⟨"package a\n".toUTF8, 5, true⟩), ("b.py", .file ⟨"x".toUTF8, 9, true⟩)]
    true

/-- The repaired file is deleted and the other one stays as it is. -/
def reduced : BuildStep := sample [("a.go", .file ⟨"package a\n".toUTF8, 5, true⟩)] false

/-- The file that stays can no longer be read. -/
def withdrawn : BuildStep := sample [("a.go", .file ⟨"package a\n".toUTF8, 5, false⟩)] false

theorem survey_sample (files : Listing) (reloads : Bool) (ignored : Ignore) :
    (sample files reloads).tree.survey ignored ⟨"/w"⟩ =
      .ok (⟨"/w"⟩, Finding.ofListing ignored ⟨""⟩ files) := by
  have hsegments : Path.segments ⟨"/w"⟩ = ["", "w"] := by decide +kernel
  have hstart : (sample files reloads).tree.start ⟨"/w"⟩ = [] := by
    unfold FileTree.start
    split_ifs <;> rfl
  have hget : (sample files reloads).tree.get? ["w"] = some (.directory files) := rfl
  have hlocate : (sample files reloads).tree.locate ⟨"/w"⟩ = .ok ["w"] := by
    simp [FileTree.locate, FileTree.follow, hsegments, hstart, hget]
  have hpath : FileTree.pathOf ["w"] = ⟨"/w"⟩ := by decide +kernel
  simp only [FileTree.survey, hlocate, hget, hpath]

theorem finds_sample (files : Listing) (reloads : Bool) :
    (sample files reloads).finds ⟨"/w"⟩ =
      (Finding.files (Finding.ofListing (fun _ _ => false) ⟨""⟩ files)).map fun c => (⟨"/w"⟩, c) :=
  finds_eq (survey_sample files reloads _)

theorem allFinds_sample : allFinds ⟨"/w"⟩ [broken, repaired, reduced] =
    [(⟨"/w"⟩, ⟨⟨"b.py"⟩, .python, ⟨⟨#[0xff]⟩, 7, true⟩⟩),
      (⟨"/w"⟩, ⟨⟨"a.go"⟩, .go, ⟨"package a\n".toUTF8, 5, true⟩⟩),
      (⟨"/w"⟩, ⟨⟨"b.py"⟩, .python, ⟨"x".toUTF8, 9, true⟩⟩),
      (⟨"/w"⟩, ⟨⟨"a.go"⟩, .go, ⟨"package a\n".toUTF8, 5, true⟩⟩)] := by
  simp only [allFinds, List.flatMap_cons, List.flatMap_nil, broken, repaired, reduced, finds_sample]
  decide +kernel

theorem stable_sample : Stable ⟨"/w"⟩ [broken, repaired, reduced] := by
  rw [Stable, allFinds_sample]
  decide +kernel

theorem parsesByBytes_sample : ParsesByBytes ⟨"/w"⟩ [broken, repaired, reduced] := by
  apply parsesByBytes_of_readable
  rw [allFinds_sample]
  decide +kernel

theorem stable_withdrawn : Stable ⟨"/w"⟩ [reduced, withdrawn] := by
  have hfinds : allFinds ⟨"/w"⟩ [reduced, withdrawn] =
      [(⟨"/w"⟩, ⟨⟨"a.go"⟩, .go, ⟨"package a\n".toUTF8, 5, true⟩⟩),
        (⟨"/w"⟩, ⟨⟨"a.go"⟩, .go, ⟨"package a\n".toUTF8, 5, false⟩⟩)] := by
    simp only [allFinds, List.flatMap_cons, List.flatMap_nil, reduced, withdrawn, finds_sample]
    decide +kernel
  rw [Stable, hfinds]
  decide +kernel

theorem lossless_sample : Lossless ⟨"/w"⟩ [broken, repaired, reduced] :=
  lossless_of_year (by decide)

theorem lossless_withdrawn : Lossless ⟨"/w"⟩ [reduced, withdrawn] :=
  lossless_of_year (by decide)

theorem mem_takenOver_reduced : (⟨"/w"⟩, ⟨⟨"a.go"⟩, .go, ⟨"package a\n".toUTF8, 5, true⟩⟩) ∈
    reduced.takenOver ⟨"/w"⟩ (indexAfter ⟨"/w"⟩ [broken, repaired]) := by
  obtain ⟨i, hi, -, hbroken⟩ := recounts_indexAfter [] broken
    (lossless_of_year (by decide)) rfl (survey_sample _ _ _) (by simp [indexAfter])
  have hnone : ∀ j ∈ indexAfter ⟨"/w"⟩ [broken], j.files = [] := by
    intro j hj
    obtain rfl : i = j := Option.some.inj (hi.symm.trans hj)
    rw [hbroken.files]
    decide +kernel
  obtain ⟨j, hj, hroot, hrepaired⟩ := recounts_indexAfter [broken] repaired
    (lossless_of_year (by decide)) rfl (survey_sample _ _ _) hnone
  refine mem_takenOver_of_recounts lossless_sample hj hrepaired
    (d := ⟨⟨"a.go"⟩, .go, ⟨"package a\n".toUTF8, 5, true⟩⟩) ?_ ?_ ?_ ?_ ?_
  · decide +kernel
  · exact Candidate.isOk_outline_iff.mpr (by decide +kernel)
  · rw [reduced, finds_sample]
    decide +kernel
  · rw [hroot]
    decide +kernel
  · decide +kernel

theorem mem_takenOver_withdrawn : (⟨"/w"⟩, ⟨⟨"a.go"⟩, .go, ⟨"package a\n".toUTF8, 5, false⟩⟩) ∈
    withdrawn.takenOver ⟨"/w"⟩ (indexAfter ⟨"/w"⟩ [reduced]) := by
  obtain ⟨i, hi, hroot, hreduced⟩ := recounts_indexAfter [] reduced
    (lossless_of_year (by decide)) rfl (survey_sample _ _ _) (by simp [indexAfter])
  refine mem_takenOver_of_recounts lossless_withdrawn hi hreduced
    (d := ⟨⟨"a.go"⟩, .go, ⟨"package a\n".toUTF8, 5, true⟩⟩) ?_ ?_ ?_ ?_ ?_
  · decide +kernel
  · exact Candidate.isOk_outline_iff.mpr (by decide +kernel)
  · rw [withdrawn, finds_sample]
    decide +kernel
  · rw [hroot]
    decide +kernel
  · decide +kernel

/-- A summary is taken over in both runs. In the second one its file can no longer be read. -/
theorem build_eq_fresh_repaired :
    (⟨"/w"⟩, ⟨⟨"a.go"⟩, .go, ⟨"package a\n".toUTF8, 5, true⟩⟩) ∈
      reduced.takenOver ⟨"/w"⟩ (indexAfter ⟨"/w"⟩ [broken, repaired]) ∧
    (reduced.build ⟨"/w"⟩ (indexAfter ⟨"/w"⟩ [broken, repaired])).map verdict =
      (reduced.tree.build {} .epoch ⟨"/w"⟩).map verdict ∧
    (withdrawn.build ⟨"/w"⟩ (indexAfter ⟨"/w"⟩ [reduced])).map verdict ≠
      (withdrawn.tree.build {} .epoch ⟨"/w"⟩).map verdict := by
  have hrepaired := build_eq_fresh ⟨"/w"⟩ [broken, repaired] reduced none .epoch rfl stable_sample
    lossless_sample
  have hwithdrawn := build_eq_fresh ⟨"/w"⟩ [reduced] withdrawn none .epoch rfl stable_withdrawn
    lossless_withdrawn
  refine ⟨mem_takenOver_reduced, hrepaired.1 parsesByBytes_sample, fun hsame => ?_⟩
  have hread := hwithdrawn.2.mp hsame _ mem_takenOver_withdrawn
  cases hread

end BuildStep

end SourceAtlas
