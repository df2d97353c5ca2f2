import SourceAtlas.Proofs.Scope.Links

/-!
# Nested regions

The scopes of a file are nested with a stack of open regions. What lies in them is placed by a
search for the smallest region around it, which looks at neither the stack nor the scopes. If
regions are nested or apart, as the nodes of a syntax tree are, then both tell the same: the scopes
around a place are the regions around it.

* `ScopeMark.AreNested`: regions that are nested or apart;
* `Span.IsAhead`, `ScopeMark.pairwise_arrange`: what sorting makes of them;
* `regionsAround`, `regionsAround_congr`: the regions around a span;
* `innermost?_reverse`: the smallest region around a span is the last one;
* `ScopeBuilder.HasPlaced`, `ScopeBuilder.hasPlaced_nest`: what nesting does with any marks;
* `ScopeBuilder.HasNested`, `ScopeBuilder.hasNested_nest`: what it does with nested ones;
* `ScopeGraph.Ascent`: the scopes from one up to another;
* **`ScopeBuilder.ascent_placeIn`**: the scopes around a place are the regions around it.
-/

namespace SourceAtlas

/-! ## Spans -/

namespace Span

variable {a b c q : Span}

theorem contains_iff : a.contains b = true ↔ a.start ≤ b.start ∧ b.stop ≤ a.stop := by
  simp [contains]

theorem contains_self (a : Span) : a.contains a = true :=
  contains_iff.mpr ⟨Nat.le_refl _, Nat.le_refl _⟩

theorem contains_trans (hab : a.contains b = true) (hbc : b.contains c = true) :
    a.contains c = true := by
  rw [contains_iff] at hab hbc ⊢
  omega

/-- One of two spans lies in the other, or they have no byte in common. -/
def Nests (a b : Span) : Prop :=
  a.contains b = true ∨ b.contains a = true ∨ a.stop ≤ b.start ∨ b.stop ≤ a.start

instance (a b : Span) : Decidable (a.Nests b) := by unfold Nests; infer_instance

/-- A span holds another one or ends before it. -/
def IsAhead (a b : Span) : Prop := a.contains b = true ∨ a.stop ≤ b.start

theorem IsAhead.contains (hab : a.IsAhead b) (hq : q.start < q.stop) (ha : a.contains q = true)
    (hb : b.contains q = true) : a.contains b = true := by
  rcases hab with hab | hab
  · exact hab
  · rw [contains_iff] at ha hb
    omega

theorem length_le (hab : a.contains b = true) : b.length ≤ a.length := by
  rw [contains_iff] at hab
  unfold length
  omega

end Span

/-! ## Marks in their order -/

section EraseReps

variable {α : Type} [BEq α]

theorem eraseReps_loop_sublist (a : α) (as done : List α) :
    (List.eraseRepsBy.loop (· == ·) a as done).Sublist (done.reverse ++ a :: as) := by
  induction as generalizing a done with
  | nil => simp [List.eraseRepsBy.loop]
  | cons b as ih =>
    rw [List.eraseRepsBy.loop]
    split
    · refine (ih a done).trans (List.Sublist.append_left ?_ _)
      exact List.Sublist.cons_cons a (List.sublist_cons_self b as)
    · simpa using ih b (a :: done)

theorem eraseReps_sublist (l : List α) : l.eraseReps.Sublist l := by
  cases l with
  | nil => exact List.Sublist.refl _
  | cons a as => exact eraseReps_loop_sublist a as []

variable [LawfulBEq α]

theorem mem_eraseReps_loop {x a : α} {as done : List α} :
    x ∈ List.eraseRepsBy.loop (· == ·) a as done ↔ x ∈ done ∨ x ∈ a :: as := by
  induction as generalizing a done with
  | nil => simp [List.eraseRepsBy.loop, or_comm]
  | cons b as ih =>
    rw [List.eraseRepsBy.loop]
    split
    · rename_i hab
      obtain rfl := beq_iff_eq.mp hab
      rw [ih]
      simp
    · rw [ih, List.mem_cons, List.mem_cons (b := a), or_assoc, or_left_comm]

theorem mem_eraseReps {x : α} {l : List α} : x ∈ l.eraseReps ↔ x ∈ l := by
  cases l with
  | nil => exact Iff.rfl
  | cons a as => exact mem_eraseReps_loop.trans (by simp)

end EraseReps

namespace ScopeMark

variable {marks : List ScopeMark} {m : ScopeMark}

/-- Regions that are not empty and of which any two are nested or apart. -/
structure AreNested (marks : List ScopeMark) : Prop where
  nonempty : ∀ m ∈ marks, m.span.start < m.span.stop
  nests : ∀ a ∈ marks, ∀ b ∈ marks, a.span.Nests b.span

theorem before_iff {a b : ScopeMark} : before a b = true ↔ a.span.start < b.span.start ∨
    a.span.start = b.span.start ∧ b.span.stop ≤ a.span.stop := by
  simp [before]

theorem mem_arrange : m ∈ arrange marks ↔ m ∈ marks := by
  rw [arrange, mem_eraseReps, List.mem_mergeSort]

/-- In their order, a region holds those after it or ends before them. -/
theorem pairwise_arrange (hmarks : AreNested marks) :
    (arrange marks).Pairwise fun a b => a.span.IsAhead b.span := by
  have hsorted : (arrange marks).Pairwise fun a b => before a b = true := by
    refine (List.pairwise_mergeSort (fun a b c hab hbc => ?_) (fun a b => ?_) marks).sublist
      (eraseReps_sublist _)
    · rw [before_iff] at hab hbc ⊢
      omega
    · rw [Bool.or_eq_true, before_iff, before_iff]
      omega
  refine hsorted.imp_of_mem fun {a b} ha hb hab => ?_
  rw [mem_arrange] at ha hb
  have hne := hmarks.nonempty b hb
  have hnests := hmarks.nests a ha b hb
  unfold Span.Nests at hnests
  unfold Span.IsAhead
  rw [before_iff] at hab
  rw [Span.contains_iff] at hnests ⊢
  rw [Span.contains_iff] at hnests
  omega

end ScopeMark

/-! ## The regions around a span -/

/-- Those regions of a list that hold a span. -/
def regionsAround (placed : List Region) (q : Span) : List Region :=
  placed.filter fun r => r.span.contains q

/-- The scope of the first region, or `file` if there is none. -/
def topScope (file : Nat) (regions : List Region) : Nat :=
  (regions.head?.map (·.scope)).getD file

/-- Regions that are not empty, the last one first. Each of them lies in the regions that were
placed before it or begins after them. -/
structure AreStacked (placed : List Region) : Prop where
  nonempty : ∀ r ∈ placed, r.span.start < r.span.stop
  ahead : placed.Pairwise fun later earlier => earlier.span.IsAhead later.span

section Around

variable {placed : List Region} {r : Region} {q : Span}

theorem AreStacked.tail (h : AreStacked (r :: placed)) : AreStacked placed :=
  ⟨fun s hs => h.nonempty s (List.mem_cons_of_mem _ hs), (List.pairwise_cons.mp h.ahead).2⟩

theorem regionsAround_congr (h : AreStacked (r :: placed)) (hq : q.start < q.stop)
    (hr : r.span.contains q = true) : regionsAround placed q = regionsAround placed r.span := by
  refine List.filter_congr fun s hs => ?_
  have hahead := (List.pairwise_cons.mp h.ahead).1 s hs
  rw [Bool.eq_iff_iff]
  exact ⟨fun hsq => hahead.contains hq hsq hr, fun hsr => Span.contains_trans hsr hr⟩

/-- Among regions that become larger, those around a span come last. -/
theorem dropWhile_not_eq_filter {α : Type} {p : α → Bool} {l : List α}
    (h : l.Pairwise fun a b => p a = true → p b = true) : l.dropWhile (!p ·) = l.filter p := by
  induction l with
  | nil => rfl
  | cons a l ih =>
    obtain ⟨ha, hl⟩ := List.pairwise_cons.mp h
    by_cases hp : p a = true
    · rw [List.dropWhile_cons_of_neg (by simp [hp]), List.filter_eq_self.mpr]
      intro b hb
      rcases List.mem_cons.mp hb with rfl | hb
      · exact hp
      · exact ha b hb hp
    · rw [List.dropWhile_cons_of_pos (by simp [hp]), List.filter_cons_of_neg hp, ih hl]

theorem dropWhile_regionsAround (h : AreStacked (r :: placed)) (hq : q.start < q.stop)
    (hahead : ∀ s ∈ r :: placed, s.span.IsAhead q) :
    (regionsAround (r :: placed) r.span).dropWhile (fun s => !s.span.contains q) =
      regionsAround (r :: placed) q := by
  have hr := h.nonempty r List.mem_cons_self
  have hgrowing : (regionsAround (r :: placed) r.span).Pairwise fun a b =>
      a.span.contains q = true → b.span.contains q = true := by
    refine (h.ahead.filter _).imp_of_mem fun {a b} ha hb hba haq => ?_
    exact Span.contains_trans
      (hba.contains hr (List.mem_filter.mp hb).2 (List.mem_filter.mp ha).2) haq
  rw [dropWhile_not_eq_filter hgrowing, regionsAround, regionsAround, List.filter_filter]
  refine List.filter_congr fun s hs => ?_
  rw [Bool.and_eq_left_iff_imp]
  intro hsq
  -- a region that ended before the last one cannot hold what comes later
  rcases List.mem_cons.mp hs with rfl | hs
  · exact Span.contains_self _
  · rcases (List.pairwise_cons.mp h.ahead).1 s hs with hsr | hsr
    · exact hsr
    · have hrq := hahead r List.mem_cons_self
      unfold Span.IsAhead at hrq
      rw [Span.contains_iff] at hrq hsq
      omega

/-- **The smallest region around a span is the last one around it.** -/
theorem innermost?_reverse (h : AreStacked placed) (hq : q.start < q.stop) :
    innermost? placed.reverse q false = (regionsAround placed q).head? := by
  induction placed with
  | nil => rfl
  | cons r placed ih =>
    have hrest := ih h.tail
    unfold innermost? at hrest ⊢
    rw [List.reverse_cons, List.foldl_append, hrest, List.foldl_cons, List.foldl_nil]
    by_cases hr : r.span.contains q = true
    · have haround : regionsAround (r :: placed) q = r :: regionsAround placed q :=
        List.filter_cons_of_pos hr
      rw [haround, List.head?_cons]
      cases hhead : (regionsAround placed q).head? with
      | none => simp [hr]
      | some b =>
        obtain ⟨hb, hbq⟩ := List.mem_filter.mp (List.mem_of_head? hhead)
        have hahead := (List.pairwise_cons.mp h.ahead).1 b hb
        have hle := Span.length_le (hahead.contains hq hbq hr)
        simp [hr, hle]
    · have haround : regionsAround (r :: placed) q = regionsAround placed q :=
        List.filter_cons_of_neg hr
      simp [hr, haround]

end Around

/-! ## Scopes up to a scope -/

namespace ScopeGraph

variable {g : ScopeGraph} {i p top : Nat}

/-- The scopes from one with a number up to another, which does not count. -/
inductive Ascent (g : ScopeGraph) (top : Nat) : Nat → List Nat → Prop
  | top : Ascent g top top []
  | step {i p : Nat} {chain : List Nat} (hne : i ≠ top) (hparent : g.parentOf i = some p)
      (hchain : Ascent g top p chain) : Ascent g top i (i :: chain)

section AddScope

variable (kind : ScopeKind) (hp : p < g.size)

include hp

theorem addScope_eq : ∃ file, g.addScope kind p =
    ((g.push kind (some p) file).modify p fun s => { s with children := s.children ++ [g.size] },
      g.size) := by
  obtain ⟨s, hs⟩ := scope?_isSome hp
  exact ⟨s.file, by simp only [addScope, hs]⟩

theorem addScope_snd : (g.addScope kind p).2 = g.size := by
  obtain ⟨file, h⟩ := addScope_eq kind hp
  rw [h]

theorem size_addScope : (g.addScope kind p).1.size = g.size + 1 := by
  obtain ⟨file, h⟩ := addScope_eq kind hp
  rw [h, size_modify, size_push]

theorem parentOf_addScope :
    (g.addScope kind p).1.parentOf i = if i = g.size then some p else g.parentOf i := by
  obtain ⟨file, h⟩ := addScope_eq kind hp
  rw [h, parentOf_hold, parentOf_push]

end AddScope

/-- The kind of the scope with a number. -/
def kindOf (g : ScopeGraph) (i : Nat) : Option ScopeKind := (g.scope? i).map (·.kind)

theorem kindOf_addScope (kind : ScopeKind) (hp : p < g.size) :
    (g.addScope kind p).1.kindOf i = if i = g.size then some kind else g.kindOf i := by
  have hlabel : ∀ h : ScopeGraph, h.kindOf i = (h.labelOf i).map (·.1) := fun h => by
    rw [kindOf, labelOf, Option.map_map]
    rfl
  obtain ⟨file, h⟩ := addScope_eq kind hp
  rw [hlabel, hlabel, h, labelOf_hold, labelOf_push]
  split <;> rfl

end ScopeGraph

/-! ## Nesting -/

namespace ScopeBuilder

open ScopeGraph

variable {g h : ScopeGraph} {file : Nat} {marks : List ScopeMark} {m : ScopeMark} {n : Nesting}
  {placed : List Region} {r : Region} {q : Span}

/-- The regions of marks, with scopes that are numbered from `k` on. -/
def regionsFrom (k : Nat) (marks : List ScopeMark) : List Region :=
  (marks.zipIdx k).map fun x => ⟨x.1.span, x.2⟩

theorem regionsFrom_append (k : Nat) (marks : List ScopeMark) (m : ScopeMark) :
    regionsFrom k (marks ++ [m]) = regionsFrom k marks ++ [⟨m.span, k + marks.length⟩] := by
  simp [regionsFrom, List.zipIdx_append]

theorem mem_regionsFrom {k : Nat} : r ∈ regionsFrom k marks ↔
    ∃ j m, marks[j]? = some m ∧ r = ⟨m.span, k + j⟩ := by
  rw [regionsFrom, List.mem_map]
  constructor
  · rintro ⟨⟨m, i⟩, hx, rfl⟩
    obtain ⟨hle, hm⟩ := List.mk_mem_zipIdx_iff_le_and_getElem?_sub.mp hx
    exact ⟨i - k, m, hm, by rw [Nat.add_sub_cancel' hle]⟩
  · rintro ⟨j, m, hm, rfl⟩
    refine ⟨(m, k + j), List.mk_mem_zipIdx_iff_le_and_getElem?_sub.mpr ⟨by omega, ?_⟩, rfl⟩
    rwa [Nat.add_sub_cancel_left]

theorem scope_regionsFrom {k : Nat} (hr : r ∈ regionsFrom k marks) :
    k ≤ r.scope ∧ r.scope < k + marks.length := by
  obtain ⟨j, m, hm, rfl⟩ := mem_regionsFrom.mp hr
  have hj : j < marks.length := (List.getElem?_eq_some_iff.mp hm).1
  dsimp only
  omega

/-- What nesting any marks has made: their regions, which are numbered in the order of the marks. -/
structure HasPlaced (g : ScopeGraph) (marks : List ScopeMark) (n : Nesting) : Prop where
  placed : n.placed = (regionsFrom g.size marks).reverse
  size : n.graph.size = g.size + marks.length
  stack : n.stack ⊆ n.placed
  kind : ∀ j m, marks[j]? = some m → n.graph.kindOf (g.size + j) = some m.kind

theorem hasPlaced_nil (g : ScopeGraph) : HasPlaced g [] ⟨g, [], []⟩ where
  placed := rfl
  size := rfl
  stack := List.Subset.refl _
  kind j m h := by simp at h

theorem HasPlaced.scope_lt (hn : HasPlaced g marks n) (hr : r ∈ n.placed) :
    g.size ≤ r.scope ∧ r.scope < n.graph.size := by
  rw [hn.placed, List.mem_reverse] at hr
  rw [hn.size]
  exact scope_regionsFrom hr

theorem HasPlaced.topScope_cases (hn : HasPlaced g marks n) (file : Nat) {regions : List Region}
    (hsub : regions ⊆ n.placed) :
    topScope file regions = file ∨
      g.size ≤ topScope file regions ∧ topScope file regions < n.graph.size := by
  rw [topScope]
  cases hhead : regions.head? with
  | none => exact .inl rfl
  | some r => exact .inr (hn.scope_lt (hsub (List.mem_of_head? hhead)))

theorem HasPlaced.topScope_lt (hn : HasPlaced g marks n) (hfile : file < g.size)
    {regions : List Region} (hsub : regions ⊆ n.placed) :
    topScope file regions < n.graph.size := by
  have hcases := hn.topScope_cases file hsub
  have hsize := hn.size
  omega

/-- The open regions that hold the next mark. -/
def holders (n : Nesting) (m : ScopeMark) : List Region :=
  n.stack.dropWhile fun r => !r.span.contains m.span

theorem HasPlaced.holders_subset (hn : HasPlaced g marks n) (m : ScopeMark) :
    holders n m ⊆ n.placed :=
  fun _ hr => hn.stack ((List.dropWhile_sublist _).subset hr)

theorem nest_eq (hn : HasPlaced g marks n) (hfile : file < g.size) (m : ScopeMark) :
    nest file n m = ⟨(n.graph.addScope m.kind (topScope file (holders n m))).1,
      ⟨m.span, g.size + marks.length⟩ :: holders n m,
      ⟨m.span, g.size + marks.length⟩ :: n.placed⟩ := by
  have hid := addScope_snd m.kind (hn.topScope_lt hfile (hn.holders_subset m))
  rw [hn.size] at hid
  rw [← hid]
  rfl

/-- **One more mark.** -/
theorem hasPlaced_nest (hn : HasPlaced g marks n) (hfile : file < g.size) (m : ScopeMark) :
    HasPlaced g (marks ++ [m]) (nest file n m) := by
  have hparent := hn.topScope_lt hfile (hn.holders_subset m)
  rw [nest_eq hn hfile m]
  refine ⟨?_, ?_, ?_, fun j a ha => ?_⟩
  · rw [regionsFrom_append, List.reverse_append, hn.placed]
    rfl
  · rw [size_addScope m.kind hparent, hn.size, List.length_append, List.length_singleton]
    omega
  · exact List.cons_subset_cons _ (hn.holders_subset m)
  · rw [kindOf_addScope m.kind hparent, hn.size]
    by_cases hj : j < marks.length
    · rw [List.getElem?_append_left hj] at ha
      rw [if_neg (by omega)]
      exact hn.kind j a ha
    · have hlt := (List.getElem?_eq_some_iff.mp ha).1
      rw [List.length_append, List.length_singleton] at hlt
      obtain rfl : j = marks.length := by omega
      rw [List.getElem?_concat_length] at ha
      rw [if_pos rfl, ← Option.some.inj ha]

theorem hasPlaced_foldl (hfile : file < g.size) (marks : List ScopeMark) :
    HasPlaced g marks (marks.foldl (nest file) ⟨g, [], []⟩) := by
  induction marks using List.reverseRecOn with
  | nil => exact hasPlaced_nil g
  | append_singleton marks m ih =>
    rw [List.foldl_append, List.foldl_cons, List.foldl_nil]
    exact hasPlaced_nest ih hfile m

theorem regions_addScopes (hfile : file < g.size) (marks : List ScopeMark) :
    (addScopes g file marks).2 = regionsFrom g.size (ScopeMark.arrange marks) := by
  rw [addScopes, (hasPlaced_foldl hfile _).placed, List.reverse_reverse]

theorem mem_marks_iff (hfile : file < g.size) : m ∈ marks ↔
    ∃ r ∈ (addScopes g file marks).2, r.span = m.span ∧
      (addScopes g file marks).1.kindOf r.scope = some m.kind := by
  have hkind := (hasPlaced_foldl hfile (ScopeMark.arrange marks)).kind
  rw [regions_addScopes hfile, ← ScopeMark.mem_arrange, List.mem_iff_getElem?]
  constructor
  · rintro ⟨j, hj⟩
    exact ⟨⟨m.span, g.size + j⟩, mem_regionsFrom.mpr ⟨j, m, hj, rfl⟩, rfl, hkind j m hj⟩
  · rintro ⟨r, hr, hspan, hm⟩
    obtain ⟨j, a, ha, rfl⟩ := mem_regionsFrom.mp hr
    obtain rfl : a = m := by
      have hsame : some a.kind = some m.kind := (hkind j a ha).symm.trans hm
      cases a
      cases m
      simp_all
    exact ⟨j, ha⟩

/-! ## Nesting nested regions -/

theorem areStacked_regionsFrom (k : Nat) (hnonempty : ∀ m ∈ marks, m.span.start < m.span.stop)
    (hahead : marks.Pairwise fun a b => a.span.IsAhead b.span) :
    AreStacked (regionsFrom k marks).reverse where
  nonempty r hr := by
    obtain ⟨j, m, hm, rfl⟩ := mem_regionsFrom.mp (List.mem_reverse.mp hr)
    exact hnonempty m (List.mem_of_getElem? hm)
  ahead := by
    rw [List.pairwise_reverse, regionsFrom, List.pairwise_map]
    have hspans : ((marks.zipIdx k).map (·.1)).Pairwise fun a b => a.span.IsAhead b.span := by
      rwa [List.zipIdx_map_fst]
    rwa [List.pairwise_map] at hspans

/-- What nesting nested marks has made: a stack that tells the regions around all that may come,
and scopes that lie in the last region around them. -/
structure HasNested (file : Nat) (n : Nesting) : Prop where
  stack : ∀ q : Span, q.start < q.stop → (∀ r ∈ n.placed, r.span.IsAhead q) →
    (n.stack.dropWhile fun r => !r.span.contains q) = regionsAround n.placed q
  parent : ∀ later r earlier, n.placed = later ++ r :: earlier →
    n.graph.parentOf r.scope = some (topScope file (regionsAround earlier r.span))

theorem hasNested_nil (g : ScopeGraph) (file : Nat) : HasNested file ⟨g, [], []⟩ where
  stack _ _ _ := rfl
  parent later r earlier h := by simp at h

/-- **One more mark, which is nested with those before.** -/
theorem hasNested_nest (hplaced : HasPlaced g marks n) (hn : HasNested file n)
    (hfile : file < g.size) (hstacked : AreStacked (nest file n m).placed) :
    HasNested file (nest file n m) := by
  have hparent := hplaced.topScope_lt hfile (hplaced.holders_subset m)
  rw [nest_eq hplaced hfile m] at hstacked ⊢
  have hm : m.span.start < m.span.stop := hstacked.nonempty _ List.mem_cons_self
  -- the stack tells the regions around the new one
  have haround : holders n m = regionsAround n.placed m.span :=
    hn.stack m.span hm (List.pairwise_cons.mp hstacked.ahead).1
  refine ⟨fun q hq hq' => ?_, fun later r earlier hsplit => ?_⟩
  · have hopen : regionsAround (⟨m.span, g.size + marks.length⟩ :: n.placed) m.span =
        ⟨m.span, g.size + marks.length⟩ :: regionsAround n.placed m.span :=
      List.filter_cons_of_pos (Span.contains_self _)
    rw [haround, ← hopen]
    exact dropWhile_regionsAround hstacked hq hq'
  · rw [parentOf_addScope m.kind hparent]
    cases later with
    | nil =>
      obtain ⟨rfl, rfl⟩ := List.cons.inj hsplit
      rw [if_pos hplaced.size.symm, haround]
    | cons _ later =>
      obtain ⟨-, hsplit⟩ := List.cons.inj hsplit
      have hr : r ∈ n.placed := hsplit ▸ List.mem_append_right _ List.mem_cons_self
      rw [if_neg (Nat.ne_of_lt (hplaced.scope_lt hr).2)]
      exact hn.parent later r earlier hsplit

theorem hasNested_foldl (hfile : file < g.size)
    (hnonempty : ∀ a ∈ marks, a.span.start < a.span.stop)
    (hahead : marks.Pairwise fun a b => a.span.IsAhead b.span) :
    HasNested file (marks.foldl (nest file) ⟨g, [], []⟩) := by
  induction marks using List.reverseRecOn with
  | nil => exact hasNested_nil g file
  | append_singleton marks m ih =>
    have hplaced := hasPlaced_foldl hfile (marks ++ [m])
    rw [List.foldl_append, List.foldl_cons, List.foldl_nil] at hplaced ⊢
    refine hasNested_nest (hasPlaced_foldl hfile marks) (ih (fun a ha => ?_) ?_) hfile ?_
    · exact hnonempty a (List.mem_append_left _ ha)
    · exact (List.pairwise_append.mp hahead).1
    · rw [hplaced.placed]
      exact areStacked_regionsFrom g.size hnonempty hahead

/-- From the last region around a span on, the scopes are those of the regions around it. -/
theorem ascent_regionsAround (hstacked : AreStacked placed)
    (hparent : ∀ later r earlier, placed = later ++ r :: earlier →
      h.parentOf r.scope = some (topScope file (regionsAround earlier r.span)))
    (hne : ∀ r ∈ placed, r.scope ≠ file) (hq : q.start < q.stop) :
    h.Ascent file (topScope file (regionsAround placed q))
      ((regionsAround placed q).map (·.scope)) := by
  induction placed generalizing q with
  | nil => exact .top
  | cons r placed ih =>
    have hrest : ∀ {q : Span}, q.start < q.stop →
        h.Ascent file (topScope file (regionsAround placed q))
      ((regionsAround placed q).map (·.scope)) := by
      refine ih hstacked.tail (fun later s earlier hsplit => ?_) fun s hs =>
        hne s (List.mem_cons_of_mem _ hs)
      exact hparent (r :: later) s earlier (by rw [hsplit, List.cons_append])
    by_cases hr : r.span.contains q = true
    · have haround : regionsAround (r :: placed) q = r :: regionsAround placed r.span := by
        rw [← regionsAround_congr hstacked hq hr]
        exact List.filter_cons_of_pos hr
      rw [haround]
      exact .step (hne r List.mem_cons_self) (hparent [] r placed rfl)
        (hrest (hstacked.nonempty r List.mem_cons_self))
    · have haround : regionsAround (r :: placed) q = regionsAround placed q :=
        List.filter_cons_of_neg hr
      rw [haround]
      exact hrest hq

/-- **The scopes around a place are the regions around it.** Let the regions of a file be nested or
apart. From the scope that a span is placed in, the parents lead up to the file, and the scopes on
the way are those of the regions that hold the span, the last one first. Every mark has a region,
and every region is that of a mark. -/
theorem ascent_placeIn (g : ScopeGraph) (file : Nat) (marks : List ScopeMark) (q : Span)
    (hfile : file < g.size) (hmarks : ScopeMark.AreNested marks) (hq : q.start < q.stop) :
    (addScopes g file marks).1.Ascent file (placeIn (addScopes g file marks).2 file q false)
      (((addScopes g file marks).2.filter fun r => r.span.contains q).map (·.scope)).reverse ∧
    ∀ m, m ∈ marks ↔ ∃ r ∈ (addScopes g file marks).2, r.span = m.span ∧
      (addScopes g file marks).1.kindOf r.scope = some m.kind := by
  refine ⟨?_, fun m => mem_marks_iff hfile⟩
  have hnonempty : ∀ m ∈ ScopeMark.arrange marks, m.span.start < m.span.stop := fun m hm =>
    hmarks.nonempty m (ScopeMark.mem_arrange.mp hm)
  have hahead := ScopeMark.pairwise_arrange hmarks
  have hregions := regions_addScopes hfile marks
  have hstacked := areStacked_regionsFrom g.size hnonempty hahead
  have hparent := (hasNested_foldl hfile hnonempty hahead).parent
  rw [(hasPlaced_foldl hfile (ScopeMark.arrange marks)).placed] at hparent
  -- both the search and the scopes tell the regions around the span
  have hplace : placeIn (addScopes g file marks).2 file q false =
      topScope file (regionsAround (addScopes g file marks).2.reverse q) := by
    rw [← hregions] at hstacked
    rw [placeIn, topScope, ← innermost?_reverse hstacked hq, List.reverse_reverse]
  have hchain : (((addScopes g file marks).2.filter fun r => r.span.contains q).map
      (·.scope)).reverse = (regionsAround (addScopes g file marks).2.reverse q).map (·.scope) := by
    rw [regionsAround, List.filter_reverse, List.map_reverse]
  rw [hplace, hchain, hregions]
  refine ascent_regionsAround hstacked hparent (fun r hr => ?_) hq
  have := scope_regionsFrom (List.mem_reverse.mp hr)
  omega

/-- A function and three scopes that cover the same bytes in it, in no order, and a function after
it. -/
def sameBytes : List ScopeMark :=
  [⟨⟨8, 20⟩, .block⟩, ⟨⟨22, 30⟩, .function⟩, ⟨⟨8, 20⟩, .function⟩, ⟨⟨0, 20⟩, .function⟩,
    ⟨⟨8, 20⟩, .block⟩]

theorem ascent_placeIn_sameBytes :
    ScopeMark.AreNested sameBytes ∧
    (addScopes (ScopeGraph.addFile ∅ ⟨"x.go"⟩).1 0 sameBytes).1.Ascent 0 4 [4, 3, 2, 1] := by
  have hnested : ScopeMark.AreNested sameBytes := ⟨by decide, by decide⟩
  have hascent := (ascent_placeIn (ScopeGraph.addFile ∅ ⟨"x.go"⟩).1 0 sameBytes ⟨10, 12⟩ (by decide)
    hnested (by decide)).1
  have hregions : (addScopes (ScopeGraph.addFile ∅ ⟨"x.go"⟩).1 0 sameBytes).2 =
      [⟨⟨0, 20⟩, 1⟩, ⟨⟨8, 20⟩, 2⟩, ⟨⟨8, 20⟩, 3⟩, ⟨⟨8, 20⟩, 4⟩, ⟨⟨22, 30⟩, 5⟩] := by
    have hsorted : sameBytes.mergeSort ScopeMark.before = [⟨⟨0, 20⟩, .function⟩,
        ⟨⟨8, 20⟩, .block⟩, ⟨⟨8, 20⟩, .function⟩, ⟨⟨8, 20⟩, .block⟩, ⟨⟨22, 30⟩, .function⟩] := by
      simp [sameBytes, List.mergeSort, List.MergeSort.Internal.splitInTwo, ScopeMark.before]
    rw [addScopes, ScopeMark.arrange, hsorted]
    decide +kernel
  rw [hregions] at hascent
  exact ⟨hnested, hascent⟩

end ScopeBuilder

end SourceAtlas
