import SourceAtlas.Proofs.Index.Lookup
import SourceAtlas.Proofs.List.Sort

/-!
# Looking up summaries in assembled indexes

Several summaries may have spellings of one path. An index keeps all of them, side by side, and a
search by halves comes upon the last one.

* `Index.file?_eq_getLast?`: what is found in an index in the order of paths;
* `filter_same_mergeSort`: summaries of one path are not moved past each other;
* **`Index.file?_assemble`**: what is found in assembled indexes and in all others.
-/

namespace SourceAtlas

theorem filter_same_mergeSort {α : Type} (path : α → Path) (p : Path) (l : List α) :
    (l.mergeSort fun a b => (path a).le (path b)).filter (fun a => (path a).same p) =
      l.filter fun a => (path a).same p := by
  have trans : ∀ a b c : α, (path a).le (path b) = true → (path b).le (path c) = true →
      (path a).le (path c) = true := fun _ _ _ => Path.le_trans
  have total : ∀ a b : α, ((path a).le (path b) || (path b).le (path a)) = true :=
    fun a b => Path.le_total (path a) (path b)
  rw [filter_mergeSort trans total]
  refine List.mergeSort_of_pairwise (List.pairwise_of_forall_mem_list fun a ha b hb => ?_)
  have hap : (path a).same p = true := (List.mem_filter.mp ha).2
  have hbp : (path b).same p = true := (List.mem_filter.mp hb).2
  exact Path.le_of_same (by rwa [Path.same_congr hap, Path.same_comm])

namespace Index

variable {i : Index} {p : Path} {s : Summary}

/-- A summary that is found stands behind all others with its path. -/
theorem exists_of_file?_eq_some (sorted : i.files.Pairwise fun a b => a.path.le b.path = true)
    (h : i.file? p = some s) : ∃ front behind, i.files = front ++ s :: behind ∧
      ∀ t ∈ behind, t.path.same p = false := by
  have hend := narrows_files sorted p
  simp only [file?] at h
  generalize search i.files.toArray p 0 i.files.toArray.size = r at hend h
  split at h
  · rename_i f hf
    split_ifs at h with hp
    cases h
    rw [List.getElem?_toArray] at hf
    obtain ⟨hr, rfl⟩ := List.getElem?_eq_some_iff.mp hf
    refine ⟨i.files.take r, i.files.drop (r + 1), by simp, fun t ht => ?_⟩
    obtain ⟨k, hk⟩ := List.mem_iff_getElem?.mp ht
    rw [List.getElem?_drop, ← List.getElem?_toArray] at hk
    -- a summary with this path would have been looked at
    rw [Bool.eq_false_iff]
    intro hsame
    have hlt := hend.behind _ t hk (Path.le_of_same hsame)
    omega
  · cases h

/-- **In an index in the order of paths, the last summary of a path is found.** -/
theorem file?_eq_getLast? (sorted : i.files.Pairwise fun a b => a.path.le b.path = true)
    (p : Path) : i.file? p = (i.files.filter fun s => s.path.same p).getLast? := by
  cases h : i.file? p with
  | none =>
    have hnone : i.files.filter (fun s => s.path.same p) = [] :=
      List.filter_eq_nil_iff.mpr fun s hs hp => by simpa [h] using isSome_file? sorted hs hp
    rw [hnone, List.getLast?_nil]
  | some s =>
    obtain ⟨front, behind, hfiles, hbehind⟩ := exists_of_file?_eq_some sorted h
    have hnone : behind.filter (fun s => s.path.same p) = [] :=
      List.filter_eq_nil_iff.mpr fun t ht => by simp [hbehind t ht]
    have hkept : (s :: behind).filter (fun s => s.path.same p) = [s] := by
      rw [List.filter_cons, if_pos (of_file?_eq_some h).2, hnone]
    rw [hfiles, List.filter_append, hkept, List.getLast?_concat]

/-- **Look-ups are exact in an assembled index and sound in every other one.** In an index that was
assembled from summaries in any order, something is found under a path exactly if a summary has this
path, in whatever spelling, and then the last one given is found. In any other index, what is found
has the path that was looked for. -/
theorem file?_assemble (root : Path) (now : Timestamp) (files : List Summary)
    (problems : List Problem) (p : Path) :
    let i := assemble root now files problems
    ((i.file? p).isSome = true ↔ ∃ s ∈ files, s.path.components = p.components) ∧
    (∀ s, i.file? p = some s → s ∈ files ∧ s.path.components = p.components) ∧
    i.file? p = (files.filter fun s => s.path.components = p.components).getLast? ∧
    ∀ (j : Index) (s : Summary), j.file? p = some s →
      s ∈ j.files ∧ s.path.components = p.components := by
  intro i
  have hsame : files.filter (fun s => s.path.same p) =
      files.filter fun s => s.path.components = p.components :=
    List.filter_congr fun s _ => by rw [Bool.eq_iff_iff, Path.same_iff, decide_eq_true_iff]
  have hfound : i.file? p =
      (files.filter fun s => s.path.components = p.components).getLast? := by
    rw [file?_eq_getLast? (pairwise_mergeSort_path Summary.path files), ← hsame]
    exact congrArg List.getLast? (filter_same_mergeSort Summary.path p files)
  have hsound : ∀ (j : Index) (s : Summary), j.file? p = some s →
      s ∈ j.files ∧ s.path.components = p.components := fun j s h =>
    (of_file?_eq_some h).imp id Path.same_iff.mp
  refine ⟨?_, fun s h => (hsound i s h).imp List.mem_mergeSort.mp id, hfound, hsound⟩
  rw [hfound, List.getLast?_isSome, ne_eq, List.filter_eq_nil_iff]
  simp

/-- A summary of an empty file. -/
def blank (path : String) : Summary := ⟨⟨path⟩, .go, 0, 0, [], [], []⟩

/-- Three spellings of one path among others, and an index that is not in the order of paths. -/
theorem file?_assemble_spellings :
    let files := [blank "b/c.go", blank "a//x.go", blank "a.go", blank "a/x.go", blank "a/./x.go"]
    let j : Index := ⟨1, ⟨"/w"⟩, .epoch, [blank "b.go", blank "a/x.go"], []⟩
    (assemble ⟨"/w"⟩ .epoch files []).file? ⟨"a/x.go/"⟩ = some (blank "a/./x.go") ∧
    j.file? ⟨"a/x.go/"⟩ = some (blank "a/x.go") ∧
    (blank "a/x.go").path.components = (⟨"a/x.go/"⟩ : Path).components := by
  intro files j
  obtain ⟨-, -, hlast, hsound⟩ := file?_assemble ⟨"/w"⟩ .epoch files [] ⟨"a/x.go/"⟩
  have hj : j.file? ⟨"a/x.go/"⟩ = some (blank "a/x.go") := by decide +kernel
  exact ⟨hlast.trans (by decide), hj, (hsound j _ hj).2⟩

end Index

end SourceAtlas
