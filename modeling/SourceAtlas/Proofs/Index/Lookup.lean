import SourceAtlas.Index
import SourceAtlas.Proofs.Path.Order

/-!
# Looking up summaries

A search by halves looks at few of the summaries. In an index in the order of paths it finds one if
there is one.

* `Index.Narrows`, `Index.narrows_search`: what a search has ruled out;
* `Index.of_file?_eq_some`, `Index.isSome_file?`: what is found, and when something is found;
* **`Index.file?_eq_some_iff`**: where paths are different, every summary is found.
-/

namespace SourceAtlas

namespace Index

variable {files : Array Summary} {p : Path} {base size : Nat}

/-- Summaries in the order of their paths. -/
def IsSorted (files : Array Summary) : Prop :=
  ∀ (k l : Nat) (s t : Summary), k ≤ l → files[k]? = some s → files[l]? = some t →
    s.path.le t.path = true

/-- A search has come down to `size` summaries from `base` on: all paths behind them come after the
one that is looked for, and the path at `base` does not, unless it is the first of all. -/
structure Narrows (files : Array Summary) (p : Path) (base size : Nat) : Prop where
  behind : ∀ (k : Nat) (s : Summary), files[k]? = some s → s.path.le p = true → k < base + size
  front : base = 0 ∨ ∃ s, files[base]? = some s ∧ s.path.le p = true

theorem isSorted_toArray {l : List Summary}
    (sorted : l.Pairwise fun a b => a.path.le b.path = true) : IsSorted l.toArray := by
  intro m n s t hmn hs ht
  rw [List.getElem?_toArray] at hs ht
  obtain ⟨hm, rfl⟩ := List.getElem?_eq_some_iff.mp hs
  obtain ⟨hn, rfl⟩ := List.getElem?_eq_some_iff.mp ht
  rcases Nat.lt_or_eq_of_le hmn with hlt | rfl
  · exact List.pairwise_iff_getElem.mp sorted m n hm hn hlt
  · exact Path.le_refl _

/-- One step of a search leaves at least half of the summaries behind. -/
theorem Narrows.step (sorted : IsSorted files) (h : Narrows files p base size) (hsize : 1 < size) :
    Narrows files p
      (match files[base + size / 2]? with
        | some f => if f.path.le p then base + size / 2 else base
        | none => base) (size - size / 2) := by
  cases hmid : files[base + size / 2]? with
  | none =>
    dsimp only
    refine ⟨fun k s hk _ => ?_, h.front⟩
    have hlt := (Array.getElem?_eq_some_iff.mp hk).1
    have hout := Array.getElem?_eq_none_iff.mp hmid
    omega
  | some f =>
    dsimp only
    split_ifs with hf
    · refine ⟨fun k s hk hs => ?_, .inr ⟨f, hmid, hf⟩⟩
      have hlt := h.behind k s hk hs
      omega
    · refine ⟨fun k s hk hs => ?_, h.front⟩
      -- a path behind the middle comes after the one in the middle
      have hlt : k < base + size / 2 := by
        by_contra hge
        exact hf (Path.le_trans (sorted _ _ f s (Nat.le_of_not_lt hge) hmid hk) hs)
      omega

/-- **A search ends at the last summary whose path does not come after the one looked for.** -/
theorem narrows_search (sorted : IsSorted files) (h : Narrows files p base size) :
    Narrows files p (search files p base size) 1 := by
  fun_induction search files p base size with
  | case1 base size hsize =>
    refine ⟨fun k s hk hs => ?_, h.front⟩
    have hlt := h.behind k s hk hs
    omega
  | case2 base size hsize half mid next ih => exact ih (h.step sorted (by omega))

variable {i : Index} {s : Summary}

theorem of_file?_eq_some (h : i.file? p = some s) : s ∈ i.files ∧ s.path.same p = true := by
  simp only [file?] at h
  split at h
  · rename_i f hf
    split_ifs at h with hp
    cases h
    exact ⟨List.mem_toArray.mp (Array.mem_of_getElem? hf), hp⟩
  · cases h

theorem narrows_files (sorted : i.files.Pairwise fun a b => a.path.le b.path = true) (p : Path) :
    Narrows i.files.toArray p (search i.files.toArray p 0 i.files.toArray.size) 1 :=
  narrows_search (isSorted_toArray sorted)
    ⟨fun k t hk _ => by rw [Nat.zero_add]; exact (Array.getElem?_eq_some_iff.mp hk).1, .inl rfl⟩

/-- In an index in the order of paths, something is found under the path of every summary. -/
theorem isSome_file? (sorted : i.files.Pairwise fun a b => a.path.le b.path = true)
    (hs : s ∈ i.files) (hp : s.path.same p = true) : (i.file? p).isSome = true := by
  have hsorted := isSorted_toArray sorted
  have hend := narrows_files sorted p
  obtain ⟨k, hk⟩ := List.mem_iff_getElem?.mp hs
  rw [← List.getElem?_toArray] at hk
  have hlt := hend.behind k s hk (Path.le_of_same hp)
  simp only [file?]
  generalize search i.files.toArray p 0 i.files.toArray.size = r at hend hlt
  -- the path at the end lies between that of `s` and the one that is looked for
  obtain ⟨f, hf, hfp⟩ : ∃ f, i.files.toArray[r]? = some f ∧ f.path.same p = true := by
    rcases hend.front with rfl | ⟨f, hf, hle⟩
    · obtain rfl : k = 0 := by omega
      exact ⟨s, hk, hp⟩
    · have hsf := hsorted k r s f (by omega) hk hf
      have hpf := Path.le_trans (Path.le_of_same (by rwa [Path.same_comm])) hsf
      exact ⟨f, hf, Path.same_of_le_le hle hpf⟩
  rw [hf]
  simp [hfp]

/-- **In an index in the order of different paths, every summary is found under its path.** -/
theorem file?_eq_some_iff (sorted : i.files.Pairwise fun a b => a.path.le b.path = true)
    (different : ∀ a ∈ i.files, ∀ b ∈ i.files, a.path.same b.path = true → a = b) :
    i.file? p = some s ↔ s ∈ i.files ∧ s.path.same p = true := by
  refine ⟨of_file?_eq_some, fun ⟨hs, hp⟩ => ?_⟩
  obtain ⟨f, hf⟩ := Option.isSome_iff_exists.mp (isSome_file? sorted hs hp)
  obtain ⟨hmem, hfp⟩ := of_file?_eq_some hf
  have hsame : f.path.same s.path = true := by
    rw [Path.same_iff] at hfp hp ⊢
    rw [hfp, hp]
  rw [hf, different f hmem s hs hsame]

end Index

end SourceAtlas
