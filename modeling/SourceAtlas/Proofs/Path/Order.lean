import Mathlib.Tactic.Common
import SourceAtlas.Path
import SourceAtlas.Proofs.Text.Split

/-!
# The order of paths

Paths are compared by their components, and two spellings of one path compare as equal.

* `Path.same_iff`, `Path.le_of_same`, `Path.le_total`, `Path.le_trans`, `Path.same_of_le_le`,
  `Path.compare_eq_lt`;
* `pairwise_path_lt`: what is sorted by different paths increases;
* **`mergeSort_path_eq`**: things with different paths have only one order by path;
* **`Path.components_join_name`**: a name added to a path is one more component.
-/

namespace SourceAtlas

open Std

/-! ## Components -/

theorem Component.compare_eq (a b : Component) : compare a b =
    match a, b with
    | .root, .root => .eq
    | .root, _ => .lt
    | _, .root => .gt
    | .here, .here => .eq
    | .here, _ => .lt
    | _, .here => .gt
    | .up, .up => .eq
    | .up, _ => .lt
    | _, .up => .gt
    | .name s, .name t => compare s t := by
  cases a <;> cases b <;> simp [compare, instOrdComponent.ord]

instance : TransOrd Component where
  eq_swap {a b} := by
    cases a <;> cases b <;> simp only [Component.compare_eq, Ordering.swap]
    exact OrientedCmp.eq_swap
  isLE_trans {a b c} hab hbc := by
    cases a <;> cases b <;> cases c <;> simp_all only [Component.compare_eq] <;>
      first | exact TransCmp.isLE_trans hab hbc | simp_all

instance : LawfulEqOrd Component where
  compare_self {a} := by cases a <;> simp
  eq_of_compare {a b} h := by
    cases a <;> cases b <;> simp_all [Component.compare_eq]

/-! ## Paths -/

namespace Path

theorem same_iff {p q : Path} : p.same q = true ↔ p.components = q.components := by
  simp [same]

theorem same_comm (p q : Path) : p.same q = q.same p := by
  rw [Bool.eq_iff_iff, same_iff, same_iff, eq_comm]

theorem le_iff {p q : Path} : p.le q = true ↔ (Ord.compare p.components q.components).isLE := by
  simp only [le, compare]
  cases Ord.compare p.components q.components <;> simp

theorem le_total (p q : Path) : (p.le q || q.le p) = true := by
  have swap : Ord.compare q.components p.components =
      (Ord.compare p.components q.components).swap := OrientedCmp.eq_swap
  rw [Bool.or_eq_true, le_iff, le_iff, swap]
  cases Ord.compare p.components q.components <;> simp

theorem le_trans {p q r : Path} (hpq : p.le q = true) (hqr : q.le r = true) : p.le r = true := by
  rw [le_iff] at *
  exact TransCmp.isLE_trans hpq hqr

theorem le_of_same {p q : Path} (h : p.same q = true) : p.le q = true := by
  rw [le_iff, same_iff.mp h]
  simp

theorem le_refl (p : Path) : p.le p = true := le_of_same (same_iff.mpr rfl)

theorem same_of_le_le {p q : Path} (hpq : p.le q = true) (hqp : q.le p = true) :
    p.same q = true := by
  have swap : Ord.compare q.components p.components =
      (Ord.compare p.components q.components).swap := OrientedCmp.eq_swap
  rw [le_iff] at hpq hqp
  rw [swap] at hqp
  rw [same_iff]
  apply LawfulEqOrd.eq_of_compare
  cases h : Ord.compare p.components q.components <;> simp_all

/-- Of two different paths the one that does not come after the other comes before it. -/
theorem compare_eq_lt {p q : Path} (hle : p.le q = true) (hne : p.same q = false) :
    p.compare q = .lt := by
  rw [Bool.eq_false_iff, ne_eq, same_iff] at hne
  rw [le_iff] at hle
  rw [compare]
  cases h : Ord.compare p.components q.components with
  | lt => rfl
  | eq => exact absurd (LawfulEqOrd.eq_of_compare h) hne
  | gt => simp [h] at hle

instance : TransCmp Path.compare := inferInstanceAs (TransCmp (compareOn Path.components))

theorem same_of_compare_lt {p q : Path} (h : p.compare q = .lt) : p.same q = false := by
  rw [Bool.eq_false_iff, ne_eq, same_iff]
  intro hsame
  rw [compare, hsame] at h
  simp at h

theorem same_congr {p q : Path} (h : p.same q = true) (r : Path) : p.same r = q.same r := by
  rw [Bool.eq_iff_iff, same_iff, same_iff, same_iff.mp h]

theorem compare_congr {p q r s : Path} (hpq : p.same q = true) (hrs : r.same s = true) :
    p.compare r = q.compare s := by
  rw [compare, compare, same_iff.mp hpq, same_iff.mp hrs]

end Path

theorem pairwise_mergeSort_path {α : Type} (path : α → Path) (l : List α) :
    (l.mergeSort fun a b => (path a).le (path b)).Pairwise
      fun a b => (path a).le (path b) = true := by
  apply List.pairwise_mergeSort
  · intro a b c
    exact Path.le_trans
  · intro a b
    exact Path.le_total _ _

theorem pairwise_path_lt {α : Type} {path : α → Path} {l : List α}
    (sorted : l.Pairwise fun a b => (path a).le (path b) = true)
    (different : (l.map path).Pairwise fun p q => p.same q = false) :
    l.Pairwise fun a b => (path a).compare (path b) = .lt := by
  exact (sorted.and (List.pairwise_map.mp different)).imp fun hab => Path.compare_eq_lt hab.1 hab.2

/-- **Things with different paths have only one order by path.** -/
theorem mergeSort_path_eq {α : Type} (path : α → Path) {l₁ l₂ : List α} (h : l₁.Perm l₂)
    (different : ∀ a ∈ l₁, ∀ b ∈ l₁, (path a).same (path b) = true → a = b) :
    (l₁.mergeSort fun a b => (path a).le (path b)) =
      l₂.mergeSort fun a b => (path a).le (path b) := by
  refine List.Perm.eq_of_pairwise (fun a b ha hb hab hba => ?_) (pairwise_mergeSort_path path l₁)
    (pairwise_mergeSort_path path l₂)
    ((List.mergeSort_perm _ _).trans (h.trans (List.mergeSort_perm _ _).symm))
  -- sorting could swap only things with the same path, and there are no two of them
  exact different a (List.mem_mergeSort.mp ha) b (h.mem_iff.mpr (List.mem_mergeSort.mp hb))
    (Path.same_of_le_le hab hba)

/-! ## Joining names -/

/-- Can a directory hold an entry under a name? -/
def isFileName (name : String) : Bool :=
  name != "" && name != "." && name != ".." && !name.toList.contains '/'

namespace Path

/-- Does the text of a path not end in a separator? -/
def isTrim (p : Path) : Bool := p.text.toList.getLast? != some '/'

theorem segments_of_isFileName {name : String} (h : isFileName name = true) :
    segments ⟨name⟩ = [name] := by
  simp only [isFileName, Bool.and_eq_true, bne_iff_ne, Bool.not_eq_true'] at h
  rw [segments, Text.splitBy, Text.segments_of_no_sep]
  · simp
  · intro c hc
    simp only [beq_eq_false_iff_ne]
    rintro rfl
    simp [hc] at h

theorem component?_of_isFileName {name : String} (h : isFileName name = true) :
    component? name = some (.name name) := by
  simp only [isFileName, Bool.and_eq_true, bne_iff_ne] at h
  simp [component?, h]

theorem not_isRooted_of_isFileName {name : String} (h : isFileName name = true) :
    isRooted ⟨name⟩ = false := by
  simp only [isFileName, Bool.and_eq_true, Bool.not_eq_true'] at h
  cases hn : name.toList with
  | nil => simp [isRooted, hn]
  | cons c cs =>
    have hc : c ≠ '/' := by
      rintro rfl
      simp [hn] at h
    simpa [isRooted, hn] using hc

theorem components_of_isFileName {name : String} (h : isFileName name = true) :
    components ⟨name⟩ = [.name name] := by
  rw [components, not_isRooted_of_isFileName h, segments_of_isFileName h]
  have hdot : name ≠ "." := by
    simp only [isFileName, Bool.and_eq_true, bne_iff_ne] at h
    exact h.1.1.2
  simp [hdot, component?_of_isFileName h]

theorem join_of_isFileName {p : Path} {name : String} (hp : p.isTrim = true)
    (h : isFileName name = true) :
    p.join ⟨name⟩ = if p.text = "" then ⟨name⟩ else ⟨p.text ++ "/" ++ name⟩ := by
  have hend : p.text.toList.getLast? ≠ some '/' := by simpa [isTrim] using hp
  by_cases hempty : p.text = "" <;>
    simp [join, not_isRooted_of_isFileName h, hend, hempty]

/-- **A name added to a path is one more component.** -/
theorem components_join_name {p : Path} {name : String} (hp : p.isTrim = true)
    (h : isFileName name = true) :
    (p.join ⟨name⟩).components = p.components ++ [.name name] := by
  rw [join_of_isFileName hp h]
  split_ifs with hempty
  · have hnil : p.components = [] := by
      simp [components, isRooted, segments, Text.splitBy, Text.segments, component?, hempty]
    rw [hnil, components_of_isFileName h, List.nil_append]
  · -- the separator between ends the last piece of `p`, and the name is a piece of its own
    have hseg : segments ⟨p.text ++ "/" ++ name⟩ = p.segments ++ [name] := by
      have := segments_of_isFileName h
      simp only [segments, Text.splitBy] at this ⊢
      rw [← this]
      simp only [String.toList_append, List.append_assoc]
      exact (congrArg (List.map String.ofList) (Text.segments_append_sep (by decide) _ _)).trans
        List.map_append
    have hroot : isRooted ⟨p.text ++ "/" ++ name⟩ = p.isRooted := by
      cases hl : p.text.toList with
      | nil => exact absurd (String.toList_eq_nil_iff.mp hl) hempty
      | cons c cs => simp [isRooted, hl]
    have hhead : (p.segments ++ [name]).head? = p.segments.head? := by
      cases hs : p.segments with
      | nil => simp [segments, Text.splitBy, Text.segments_ne_nil] at hs
      | cons w ws => rfl
    simp only [components, hseg, hroot, hhead, List.filterMap_append, List.append_assoc]
    simp [component?_of_isFileName h]

theorem isTrim_join_name {p : Path} {name : String} (hp : p.isTrim = true)
    (h : isFileName name = true) : (p.join ⟨name⟩).isTrim = true := by
  have hne : name.toList ≠ [] := by
    simp only [isFileName, Bool.and_eq_true, bne_iff_ne] at h
    simpa using h.1.1.1
  have hlast : name.toList.getLast? ≠ some '/' := by
    simp only [isFileName, Bool.and_eq_true, Bool.not_eq_true'] at h
    intro hl
    have := List.mem_of_getLast? hl
    simp [this] at h
  rw [join_of_isFileName hp h]
  split_ifs
  · simpa [isTrim] using hlast
  · cases hn : name.toList with
    | nil => exact absurd hn hne
    | cons c cs => simpa [isTrim, hn, List.getLast?_cons_cons] using hlast

end Path

end SourceAtlas
