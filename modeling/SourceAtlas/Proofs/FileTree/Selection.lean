import Mathlib.Tactic.Common
import SourceAtlas.Proofs.Build.Outcome
import SourceAtlas.Proofs.List.Sort

/-!
# What a walk selects

A walk goes through directories and leaves out whole directories on its way. What it selects in the
end is told file by file, by the names that lead to the file.

* `Entry.Holds`: the names that lead to a file, through directories only;
* `Ignore.Enters`, `Selects`: the directories that are walked through, the files that are selected;
* `Finding.mem_files_ofListing`: a walk finds the files that are selected;
* `Finding.candidates_pairwise`, `Finding.candidates_eq`: files have one order only;
* **`FileTree.survey_selects`**: what a build looks at.
-/

namespace SourceAtlas

/-! ## Names that lead to a file -/

/-- Names lead from an entry to a file: every one but the last is that of a directory. -/
inductive Entry.Holds : Entry → List String → StoredFile → Prop
  | file (f : StoredFile) : Holds (.file f) [] f
  | directory {entries : Listing} {name : String} {e : Entry} {names : List String}
      {f : StoredFile} (mem : (name, e) ∈ entries) (holds : e.Holds names f) :
      Holds (.directory entries) (name :: names) f

namespace Entry

variable {entries : Listing} {names : List String} {f g : StoredFile}

theorem holds_file_iff : (Entry.file f).Holds names g ↔ names = [] ∧ f = g := by
  constructor
  · rintro ⟨⟩
    exact ⟨rfl, rfl⟩
  · rintro ⟨rfl, rfl⟩
    exact .file f

theorem holds_directory_iff : (Entry.directory entries).Holds names f ↔
    ∃ x ∈ entries, ∃ rest, names = x.1 :: rest ∧ x.2.Holds rest f := by
  constructor
  · rintro (_ | ⟨hmem, hholds⟩)
    exact ⟨_, hmem, _, rfl, hholds⟩
  · rintro ⟨x, hmem, rest, rfl, hholds⟩
    exact .directory hmem hholds

/-- The order in which a directory lists its entries does not matter. -/
theorem holds_perm {l m : Listing} (h : l.Perm m) :
    (Entry.directory l).Holds names f ↔ (Entry.directory m).Holds names f := by
  simp only [holds_directory_iff, h.mem_iff]

theorem not_holds_link (target : Path) : ¬ (Entry.link target).Holds names f := by
  rintro ⟨⟩

theorem not_holds_closed : ¬ Entry.closed.Holds names f := by
  rintro ⟨⟩

end Entry

/-! ## Selected files -/

/-- The path of a list of names below a directory. -/
def Path.extend (directory : Path) (names : List String) : Path :=
  names.foldl (fun p name => p.join ⟨name⟩) directory

/-- A directory is walked through if it is neither hidden nor one of vendored dependencies, and not
ignored. -/
structure Ignore.Enters (ignored : Ignore) (directory : Path) (name : String) : Prop where
  visible : ∀ rest, name.toList ≠ '.' :: rest
  own : name ∉ ["vendor", "node_modules", "__pycache__"]
  kept : ignored (directory.join ⟨name⟩) true = false

/-- A file is selected below a directory under a list of names: its language is known, it is not
ignored, and all directories that its names lead through are walked through. -/
structure Selects (ignored : Ignore) (directory : Path) (names : List String) (c : Candidate) :
    Prop where
  path : c.path = directory.extend names
  language : Language.ofPath? c.path = some c.language
  kept : ignored c.path false = false
  enters : ∀ above name rest, names = above ++ name :: rest → rest ≠ [] →
    ignored.Enters (directory.extend above) name

theorem not_isPassedBy_iff {name : String} : isPassedBy name = false ↔
    (∀ rest, name.toList ≠ '.' :: rest) ∧ name ∉ ["vendor", "node_modules", "__pycache__"] := by
  have hdot : name.startsWith "." = true ↔ ∃ rest, name.toList = '.' :: rest := by
    rw [String.startsWith_string_iff]
    exact exists_congr fun rest => eq_comm
  rw [isPassedBy, Bool.or_eq_false_iff, ← Bool.not_eq_true, hdot, not_exists, vendorNames,
    List.contains_eq_mem, decide_eq_false_iff_not]

variable {ignored : Ignore} {directory : Path} {name : String} {c : Candidate}

theorem Ignore.enters_iff : ignored.Enters directory name ↔
    (isPassedBy name || ignored (directory.join ⟨name⟩) true) = false := by
  rw [Bool.or_eq_false_iff, not_isPassedBy_iff]
  exact ⟨fun h => ⟨⟨h.visible, h.own⟩, h.kept⟩, fun h => ⟨h.1.1, h.1.2, h.2⟩⟩

theorem selects_singleton_iff : Selects ignored directory [name] c ↔
    c.path = directory.join ⟨name⟩ ∧ Language.ofPath? c.path = some c.language ∧
      ignored c.path false = false := by
  refine ⟨fun h => ⟨h.path, h.language, h.kept⟩, fun ⟨hpath, hlanguage, hkept⟩ =>
    ⟨hpath, hlanguage, hkept, fun above n rest hnames hrest => ?_⟩⟩
  -- a single name leads through no directory
  have hlength := congrArg List.length hnames
  have := List.length_pos_iff.mpr hrest
  simp only [List.length_cons, List.length_nil, List.length_append] at hlength
  omega

theorem selects_cons_iff {names : List String} (hnames : names ≠ []) :
    Selects ignored directory (name :: names) c ↔
      ignored.Enters directory name ∧ Selects ignored (directory.join ⟨name⟩) names c := by
  constructor
  · intro h
    refine ⟨h.enters [] name names rfl hnames, h.path, h.language, h.kept, ?_⟩
    rintro above n rest rfl hrest
    exact h.enters (name :: above) n rest rfl hrest
  · rintro ⟨henters, h⟩
    refine ⟨h.path, h.language, h.kept, fun above n rest hsplit hrest => ?_⟩
    -- the first directory on the way, or one below it
    cases above with
    | nil =>
      obtain ⟨rfl, rfl⟩ := List.cons.inj hsplit
      exact henters
    | cons m above =>
      obtain ⟨rfl, rfl⟩ := List.cons.inj hsplit
      exact h.enters above n rest rfl hrest

/-! ## What is found -/

namespace Finding

theorem mem_files_file {f : StoredFile} : c ∈ files (ofNamed ignored directory (name, .file f)) ↔
    f = c.file ∧ Selects ignored directory [name] c := by
  rw [selects_singleton_iff, ofNamed, ofEntry]
  cases hlanguage : Language.ofPath? (directory.join ⟨name⟩) with
  | none =>
    simp only [files_nil, List.not_mem_nil, false_iff]
    rintro ⟨-, hpath, hsome, -⟩
    rw [hpath, hlanguage] at hsome
    cases hsome
  | some language =>
    dsimp only
    split_ifs with hignored
    · simp only [files_nil, List.not_mem_nil, false_iff]
      rintro ⟨-, hpath, -, hkept⟩
      rw [hpath, hignored] at hkept
      cases hkept
    · rw [files_candidate, List.mem_singleton]
      constructor
      · rintro rfl
        exact ⟨rfl, rfl, hlanguage, by simpa using hignored⟩
      · rintro ⟨rfl, hpath, hsome, -⟩
        obtain ⟨path, l, file⟩ := c
        dsimp only at hpath hsome
        subst hpath
        rw [hlanguage] at hsome
        cases hsome
        rfl

theorem mem_files_directory {entries : Listing} :
    c ∈ files (ofNamed ignored directory (name, .directory entries)) ↔
      ignored.Enters directory name ∧
        c ∈ files (ofListing ignored (directory.join ⟨name⟩) entries) := by
  rw [ofNamed, ofEntry, Ignore.enters_iff]
  split_ifs with hout
  · simp [hout]
  · simp [hout]

mutual

/-- What a walk finds under a name is selected, and everything that is selected is found. -/
theorem mem_files_ofNamed (ignored : Ignore) (directory : Path) (c : Candidate) :
    ∀ x : String × Entry, c ∈ files (ofNamed ignored directory x) ↔
      ∃ rest, x.2.Holds rest c.file ∧ Selects ignored directory (x.1 :: rest) c
  | (name, .file f) => by
    simp only [mem_files_file, Entry.holds_file_iff, and_assoc, exists_eq_left]
  | (name, .link target) => by
    simp [ofNamed, ofEntry, Entry.not_holds_link]
  | (name, .closed) => by
    rw [ofNamed, ofEntry]
    split_ifs <;> simp [Entry.not_holds_closed]
  | (name, .directory entries) => by
    rw [mem_files_directory, mem_files_ofListing ignored (directory.join ⟨name⟩) c entries]
    -- no file stands where the directory does, so that the names behind its own are not empty
    constructor
    · rintro ⟨henters, names, hholds, hselects⟩
      have hne : names ≠ [] := by rintro rfl; cases hholds
      exact ⟨names, hholds, (selects_cons_iff hne).mpr ⟨henters, hselects⟩⟩
    · rintro ⟨names, hholds, hselects⟩
      have hne : names ≠ [] := by rintro rfl; cases hholds
      obtain ⟨henters, hselects⟩ := (selects_cons_iff hne).mp hselects
      exact ⟨henters, names, hholds, hselects⟩

/-- **A walk through a directory finds exactly the files that are selected.** -/
theorem mem_files_ofListing (ignored : Ignore) (directory : Path) (c : Candidate) :
    ∀ l : List (String × Entry), c ∈ files (ofListing ignored directory l) ↔
      ∃ names, (Entry.directory l).Holds names c.file ∧ Selects ignored directory names c
  | [] => by simp [ofListing, Entry.holds_directory_iff]
  | x :: l => by
    rw [ofListing, files_append, List.mem_append, mem_files_ofNamed ignored directory c x,
      mem_files_ofListing ignored directory c l]
    simp only [Entry.holds_directory_iff, List.mem_cons]
    constructor
    · rintro (⟨rest, hholds, hselects⟩ | ⟨names, ⟨y, hy, rest, rfl, hholds⟩, hselects⟩)
      · exact ⟨x.1 :: rest, ⟨x, .inl rfl, rest, rfl, hholds⟩, hselects⟩
      · exact ⟨y.1 :: rest, ⟨y, .inr hy, rest, rfl, hholds⟩, hselects⟩
    · rintro ⟨names, ⟨y, rfl | hy, rest, rfl, hholds⟩, hselects⟩
      · exact .inl ⟨rest, hholds, hselects⟩
      · exact .inr ⟨y.1 :: rest, ⟨y, hy, rest, rfl, hholds⟩, hselects⟩

end

/-! ## The list of files -/

theorem candidates_pairwise {found : List Finding}
    (different : (files found).Pairwise fun c d => ¬ c.path.same d.path = true) :
    (candidates found).Pairwise fun c d => c.path.compare d.path = .lt := by
  have symm : ∀ {c d : Candidate}, ¬ c.path.same d.path = true → ¬ d.path.same c.path = true :=
    fun {c d} h => by rwa [Path.same_comm]
  have hdifferent := (List.mergeSort_perm (files found) fun a b => a.path.le b.path).symm.pairwise
    different symm
  exact pairwise_path_lt (pairwise_mergeSort_path Candidate.path _)
    (List.pairwise_map.mpr (hdifferent.imp fun h => Bool.eq_false_iff.mpr h))

instance : Std.TransCmp fun c d : Candidate => c.path.compare d.path :=
  inferInstanceAs (Std.TransCmp (compareOn fun c : Candidate => c.path.components))

/-- Files that increase by path are told by their members. -/
theorem candidates_eq {found seen : List Finding}
    (hfound : (candidates found).Pairwise fun c d => c.path.compare d.path = .lt)
    (hseen : (candidates seen).Pairwise fun c d => c.path.compare d.path = .lt)
    (h : ∀ c, c ∈ files seen ↔ c ∈ files found) : candidates seen = candidates found :=
  eq_of_pairwise_lt hseen hfound fun c => by rw [mem_candidates, mem_candidates, h]

end Finding

namespace FileTree

theorem mem_files_survey {t : FileTree} {p : Path} {e : Entry} (ignored : Ignore)
    (hentry : t.entry p = .ok e) (hroot : t.isFile p = false) :
    ∃ root found, t.survey ignored p = .ok (root, found) ∧ ∀ c, c ∈ Finding.files found ↔
      ∃ names, e.Holds names c.file ∧ Selects ignored ⟨""⟩ names c := by
  rw [isFile, hentry] at hroot
  rw [entry] at hentry
  rw [survey]
  split at hentry
  · rename_i names hlocate
    split at hentry
    · rename_i found hget
      obtain rfl := Except.ok.inj hentry
      rw [hlocate]
      dsimp only
      rw [hget]
      cases found with
      | file f => cases hroot
      | link target => exact ⟨_, _, rfl, fun c => by simp [Entry.not_holds_link]⟩
      | closed => exact ⟨_, _, rfl, fun c => by simp [Entry.not_holds_closed]⟩
      | directory entries =>
        exact ⟨_, _, rfl, fun c => Finding.mem_files_ofListing ignored ⟨""⟩ c entries⟩
    · cases hentry
  · cases hentry

/-- **A build looks at exactly the files that are selected.** They are listed once, in the order of
their paths, and this list depends only on which names lead to which files: not on the order in
which directories list their entries, not on links, and not on where the root is. -/
theorem survey_selects (t : FileTree) (o : BuildOptions) (now : Timestamp) (p : Path) (e : Entry)
    (proper : t.isProper = true) (hentry : t.entry p = .ok e) (hroot : t.isFile p = false) :
    ∃ root found, t.survey o.ignored p = .ok (root, found) ∧
      t.build o now p = .ok (Index.ofFindings o now root found) ∧
      (Finding.candidates found).Pairwise (fun c d => c.path.compare d.path = .lt) ∧
      (∀ c, c ∈ Finding.candidates found ↔
        ∃ names, e.Holds names c.file ∧ Selects o.ignored ⟨""⟩ names c) ∧
      ∀ (u : FileTree) (q : Path) (d : Entry) (place : Path) (seen : List Finding),
        u.isProper = true → u.entry q = .ok d → u.isFile q = false →
        u.survey o.ignored q = .ok (place, seen) →
        (∀ names f, d.Holds names f ↔ e.Holds names f) →
        Finding.candidates seen = Finding.candidates found := by
  obtain ⟨root, found, hsurvey, hfiles⟩ := mem_files_survey o.ignored hentry hroot
  have hsorted := Finding.candidates_pairwise (survey_pairwise proper hsurvey)
  refine ⟨root, found, hsurvey, ?_, hsorted, fun c => ?_, ?_⟩
  · rw [build_eq_survey, hsurvey]
    rfl
  · rw [Finding.mem_candidates, hfiles]
  · intro u q d place seen hproper hd hq hseen hholds
    obtain ⟨_, _, hsurvey', hfiles'⟩ := mem_files_survey o.ignored hd hq
    cases hseen.symm.trans hsurvey'
    refine Finding.candidates_eq hsorted
      (Finding.candidates_pairwise (survey_pairwise hproper hseen)) fun c => ?_
    simp only [hfiles, hfiles', hholds]

/-- A tree with a single directory at its root. -/
def holding (name : String) (entries : Listing) : FileTree := ⟨[(name, .directory entries)], []⟩

theorem entry_holding {name : String} {p : Path} (entries : Listing) (hp : p.text ≠ "")
    (hrooted : p.isRooted = true) (hsegments : p.segments = ["", name])
    (hname : name ∉ ["", ".", ".."]) :
    (holding name entries).entry p = .ok (.directory entries) := by
  simp only [List.mem_cons, List.not_mem_nil, or_false, not_or] at hname
  have hget : (holding name entries).get? [name] = some (.directory entries) := by
    simp [holding, get?, Listing.get?, Listing.find?]
  simp [entry, locate, start, follow, hp, hrooted, hsegments, hname, hget]

/-- A directory with one file that is selected and others that are hidden, vendored, ignored,
written in no language or reached through a link. -/
def crowded : Listing :=
  [("pkg", .directory [("util.py", .file ⟨"x".toUTF8, 1, true⟩),
      (".cache", .directory [("old.py", .file ⟨"y".toUTF8, 2, true⟩)]),
      ("notes.txt", .file ⟨"z".toUTF8, 3, true⟩)]),
    ("gen", .directory [("api.rs", .file ⟨"u".toUTF8, 4, true⟩)]),
    ("node_modules", .directory [("m.go", .file ⟨"v".toUTF8, 5, true⟩)]),
    ("alias", .link ⟨"pkg"⟩)]

/-- One directory, listed in two orders below roots whose own names would be passed by. -/
theorem survey_selects_crowded :
    let o : BuildOptions := { ignored := fun p _ => p.text == "gen" }
    let t := holding "vendor" crowded
    let u := holding ".git" crowded.reverse
    (t.isProper = true ∧ t.entry ⟨"/vendor"⟩ = .ok (.directory crowded) ∧
      t.isFile ⟨"/vendor"⟩ = false) ∧
    (u.isProper = true ∧ u.entry ⟨"/.git"⟩ = .ok (.directory crowded.reverse) ∧
      u.isFile ⟨"/.git"⟩ = false) ∧
    ∃ root found place seen, t.survey o.ignored ⟨"/vendor"⟩ = .ok (root, found) ∧
      u.survey o.ignored ⟨"/.git"⟩ = .ok (place, seen) ∧
      Finding.candidates seen = Finding.candidates found ∧
      ⟨⟨"pkg/util.py"⟩, .python, ⟨"x".toUTF8, 1, true⟩⟩ ∈ Finding.candidates found := by
  intro o t u
  have hvendor : t.entry ⟨"/vendor"⟩ = .ok (.directory crowded) :=
    entry_holding _ (by decide) (by decide +kernel) (by decide +kernel) (by decide)
  have hgit : u.entry ⟨"/.git"⟩ = .ok (.directory crowded.reverse) :=
    entry_holding _ (by decide) (by decide +kernel) (by decide +kernel) (by decide)
  have ht : t.isProper = true ∧ t.entry ⟨"/vendor"⟩ = .ok (.directory crowded) ∧
      t.isFile ⟨"/vendor"⟩ = false := ⟨by decide, hvendor, by rw [isFile, hvendor]⟩
  have hu : u.isProper = true ∧ u.entry ⟨"/.git"⟩ = .ok (.directory crowded.reverse) ∧
      u.isFile ⟨"/.git"⟩ = false := ⟨by decide, hgit, by rw [isFile, hgit]⟩
  obtain ⟨root, found, hfound, -, -, hmem, hsame⟩ :=
    survey_selects t o .epoch ⟨"/vendor"⟩ (.directory crowded) ht.1 ht.2.1 ht.2.2
  obtain ⟨place, seen, hseen, -⟩ :=
    survey_selects u o .epoch ⟨"/.git"⟩ (.directory crowded.reverse) hu.1 hu.2.1 hu.2.2
  refine ⟨ht, hu, root, found, place, seen, hfound, hseen, ?_, ?_⟩
  · exact hsame u ⟨"/.git"⟩ _ place seen hu.1 hu.2.1 hu.2.2 hseen fun _ _ =>
      Entry.holds_perm (List.reverse_perm crowded)
  · rw [hmem]
    refine ⟨["pkg", "util.py"],
      .directory (List.mem_cons_self ..) (.directory (List.mem_cons_self ..) (.file _)), ?_⟩
    rw [selects_cons_iff (by simp), selects_singleton_iff, Ignore.enters_iff]
    exact ⟨by decide +kernel, by decide, by decide +kernel, by decide +kernel⟩

end FileTree

end SourceAtlas
