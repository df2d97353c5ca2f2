import SourceAtlas.FileTree.Walk
import SourceAtlas.Proofs.Path.Order

/-!
# Walks through proper directories

In a *proper* directory every entry has a file name of its own, and so in all directories below it.

* `Entry.isProper`, `Listing.isProper`, `FileTree.isProper`;
* `Finding.components_below`: what a walk finds in a directory lies below it;
* **`Finding.files_pairwise`**: the files that a walk finds have different paths.
-/

namespace SourceAtlas

/-! ## Proper directories -/

mutual

/-- Have all entries below an entry file names of their own? -/
def Entry.isProper : Entry → Bool
  | .directory entries => Listing.isProper entries
  | .file _ | .link _ | .closed => true

/-- Have all entries of a directory and below it file names of their own? -/
def Listing.isProper : List (String × Entry) → Bool
  | [] => true
  | e :: rest => Listing.isProperNamed e && !(rest.map (·.1)).contains e.1 && Listing.isProper rest

/-- Is a name a file name, and is what stands under it proper? -/
def Listing.isProperNamed : String × Entry → Bool
  | (name, e) => isFileName name && e.isProper

end

/-- Have all entries of a tree file names of their own? -/
def FileTree.isProper (t : FileTree) : Bool := Listing.isProper t.entries

namespace Listing

theorem isProper_find? {l : Listing} {name : String} {e : Entry} (hl : isProper l = true)
    (h : find? l name = some e) : e.isProper = true := by
  induction l with
  | nil => simp [find?] at h
  | cons x rest ih =>
    obtain ⟨n, old⟩ := x
    simp only [isProper, isProperNamed, Bool.and_eq_true] at hl
    simp only [find?, List.lookup_cons] at h
    split at h
    · cases h
      exact hl.1.1.2
    · exact ih hl.2 h

theorem isProper_get? {l : Listing} {names : List String} {entries : Listing}
    (hl : isProper l = true) (h : get? l names = some (.directory entries)) :
    isProper entries = true := by
  induction names generalizing l with
  | nil =>
    cases h
    exact hl
  | cons name names ih =>
    rw [get?] at h
    split at h
    · rename_i inner hfind
      exact ih (by simpa [Entry.isProper] using isProper_find? hl hfind) h
    · rename_i e hfile hfind
      split_ifs at h
      cases h
      exact (hfile entries rfl).elim
    · cases h

end Listing

/-! ## What a walk finds -/

namespace Finding

/-- The files among some findings, as they were found. -/
def files (found : List Finding) : List Candidate := found.filterMap candidate?

@[simp] theorem files_nil : files [] = [] := rfl

@[simp] theorem files_candidate (c : Candidate) : files [.candidate c] = [c] := rfl

@[simp] theorem files_skipped (p : Path) : files [.skipped p] = [] := rfl

@[simp] theorem files_append (a b : List Finding) : files (a ++ b) = files a ++ files b := by
  simp [files]

theorem mem_candidates {found : List Finding} {c : Candidate} :
    c ∈ candidates found ↔ c ∈ files found := by
  rw [candidates, List.mem_mergeSort, files]

mutual

/-- A walk finds nothing outside of the entry that it walks through. -/
theorem components_below_entry (ignored : Ignore) {path : Path} {name : String}
    (hp : path.isTrim = true) : ∀ {e : Entry}, e.isProper = true →
      ∀ c ∈ files (ofEntry ignored path name e), path.components <+: c.path.components
  | .file f, _, c, hc => by
    rw [ofEntry] at hc
    split at hc
    · split_ifs at hc
      · simp at hc
      · obtain rfl : c = _ := by simpa using hc
        exact List.prefix_rfl
    · simp at hc
  | .link _, _, c, hc => by simp [ofEntry] at hc
  | .closed, _, c, hc => by
    rw [ofEntry] at hc
    split_ifs at hc <;> simp at hc
  | .directory entries, he, c, hc => by
    rw [ofEntry] at hc
    split_ifs at hc
    · simp at hc
    · rw [Entry.isProper] at he
      obtain ⟨n, -, h⟩ := components_below ignored hp he c hc
      exact (List.prefix_append _ _).trans h

/-- **What a walk finds in a directory lies below one of its names.** -/
theorem components_below (ignored : Ignore) {directory : Path}
    (hp : directory.isTrim = true) : ∀ {l : List (String × Entry)}, Listing.isProper l = true →
      ∀ c ∈ files (ofListing ignored directory l), ∃ n ∈ l.map (·.1),
        directory.components ++ [.name n] <+: c.path.components
  | [], _, c, hc => by simp [ofListing] at hc
  | x :: rest, hl, c, hc => by
    rw [Listing.isProper, Bool.and_eq_true, Bool.and_eq_true] at hl
    rw [ofListing, files_append, List.mem_append] at hc
    rcases hc with hc | hc
    · exact ⟨x.1, by simp, components_below_named ignored hp hl.1.1 c hc⟩
    · obtain ⟨n, hn, h⟩ := components_below ignored hp hl.2 c hc
      exact ⟨n, by simp [hn], h⟩

theorem components_below_named (ignored : Ignore) {directory : Path}
    (hp : directory.isTrim = true) : ∀ {x : String × Entry}, Listing.isProperNamed x = true →
      ∀ c ∈ files (ofNamed ignored directory x),
        directory.components ++ [.name x.1] <+: c.path.components
  | (name, e), hx, c, hc => by
    rw [Listing.isProperNamed, Bool.and_eq_true] at hx
    rw [ofNamed] at hc
    have := components_below_entry ignored (Path.isTrim_join_name hp hx.1) hx.2 c hc
    rwa [Path.components_join_name hp hx.1] at this

end

theorem name_eq_of_below {a l : List Component} {m n : String} (hm : a ++ [.name m] <+: l)
    (hn : a ++ [.name n] <+: l) : m = n := by
  have h := (List.prefix_of_prefix_length_le hm hn (by simp)).eq_of_length (by simp)
  simpa using h

mutual

theorem files_pairwise_entry (ignored : Ignore) {path : Path} {name : String}
    (hp : path.isTrim = true) : ∀ {e : Entry}, e.isProper = true →
      (files (ofEntry ignored path name e)).Pairwise fun c d => ¬ c.path.same d.path = true
  | .file f, _ => by
    rw [ofEntry]
    split
    · split_ifs <;> simp
    · simp
  | .link _, _ => by simp [ofEntry]
  | .closed, _ => by
    rw [ofEntry]
    split_ifs <;> simp
  | .directory entries, he => by
    rw [ofEntry]
    split_ifs
    · simp
    · rw [Entry.isProper] at he
      exact files_pairwise ignored hp he

/-- **The files that a walk finds have different paths.** -/
theorem files_pairwise (ignored : Ignore) {directory : Path} (hp : directory.isTrim = true) :
    ∀ {l : List (String × Entry)}, Listing.isProper l = true →
      (files (ofListing ignored directory l)).Pairwise fun c d => ¬ c.path.same d.path = true
  | [], _ => by simp [ofListing]
  | x :: rest, hl => by
    rw [Listing.isProper, Bool.and_eq_true, Bool.and_eq_true] at hl
    obtain ⟨⟨hx, hnew⟩, hrest⟩ := hl
    rw [ofListing, files_append, List.pairwise_append]
    refine ⟨files_pairwise_named ignored hp hx, files_pairwise ignored hp hrest, ?_⟩
    intro c hc d hd hsame
    -- one path would go through the first name and through a later one
    have hcx := components_below_named ignored hp hx c hc
    obtain ⟨n, hn, hdn⟩ := components_below ignored hp hrest d hd
    rw [← Path.same_iff.mp hsame] at hdn
    rw [← name_eq_of_below hcx hdn] at hn
    simp [hn] at hnew

theorem files_pairwise_named (ignored : Ignore) {directory : Path}
    (hp : directory.isTrim = true) : ∀ {x : String × Entry}, Listing.isProperNamed x = true →
      (files (ofNamed ignored directory x)).Pairwise fun c d => ¬ c.path.same d.path = true
  | (name, e), hx => by
    rw [Listing.isProperNamed, Bool.and_eq_true] at hx
    rw [ofNamed]
    exact files_pairwise_entry ignored (Path.isTrim_join_name hp hx.1) hx.2

end

end Finding

end SourceAtlas
