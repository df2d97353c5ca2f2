import SourceAtlas.Proofs.Scope.Ledger
import SourceAtlas.Proofs.Scope.Targets

/-!
# The nearest definition of a name

A name is looked up in a scope and then in its parents. Parents may lead in a circle, so the search
is cut off by a count, not by a list of the scopes that it has seen. It finds all that there is to
be found: on the way to the nearest scope that binds a name no scope comes up twice. So a new
definition changes what a name means only below its own scope, and only where nothing nearer binds
the name.

* `ScopeGraph.ancestor?`: the scope some steps above another;
* `ScopeGraph.BindsIn`, `ScopeGraph.IsNearest`: what is said about the scopes above a scope;
* `ScopeGraph.IsNearest.lt_size`: the nearest scope that binds a name is not far;
* `ScopeGraph.resolveUpward_of_le`: the bound on the search is never felt;
* **`ScopeGraph.resolveName_nearest`**: a name means its first definition in the nearest scope;
* `ScopeGraph.Captures`: where a definition comes between a name and what it meant;
* **`ScopeGraph.resolveName_define`**: a new definition disturbs nothing but what it captures.
-/

namespace SourceAtlas

namespace ScopeGraph

variable {g : ScopeGraph} {i j k m n s t : Nat} {name : String} {a : Handle} {d : Definition}

/-! ## The scopes above a scope -/

/-- The scope that is reached from a scope by so many steps to the parent. -/
def ancestor? (g : ScopeGraph) (i : Nat) : Nat → Option Nat
  | 0 => some i
  | n + 1 => (g.ancestor? i n).bind g.parentOf

theorem ancestor?_add (g : ScopeGraph) (i m n : Nat) :
    g.ancestor? i (m + n) = (g.ancestor? i m).bind fun j => g.ancestor? j n := by
  induction n with
  | zero => simp [ancestor?]
  | succ n ih =>
    rw [← Nat.add_assoc, ancestor?, ih, Option.bind_assoc]
    rfl

theorem ancestor?_succ_head (g : ScopeGraph) (i n : Nat) :
    g.ancestor? i (n + 1) = (g.parentOf i).bind fun p => g.ancestor? p n := by
  rw [Nat.add_comm, ancestor?_add]
  rfl

theorem lt_size_of_parentOf (hp : g.parentOf i = some j) : i < g.size := by
  obtain ⟨s, hs, -⟩ := Option.bind_eq_some_iff.mp hp
  exact lt_size hs

theorem exists_ancestor?_of_lt (hn : g.ancestor? i n = some j) (hm : m < n) :
    ∃ k, g.ancestor? i m = some k ∧ k < g.size := by
  obtain ⟨r, rfl⟩ := Nat.exists_eq_add_of_lt hm
  rw [Nat.add_assoc, ancestor?_add] at hn
  obtain ⟨k, hk, hrest⟩ := Option.bind_eq_some_iff.mp hn
  rw [ancestor?_succ_head] at hrest
  obtain ⟨p, hp, -⟩ := Option.bind_eq_some_iff.mp hrest
  exact ⟨k, hk, lt_size_of_parentOf hp⟩

/-! ## Names in a scope -/

/-- A scope has a definition of a name. -/
def BindsIn (g : ScopeGraph) (i : Nat) (name : String) : Prop := ∃ k, g.Binds ⟨i, k⟩ name

/-- The position of the first definition of a name in the scope with a number. -/
def first? (g : ScopeGraph) (i : Nat) (name : String) : Option Nat :=
  (g.scope? i).bind fun s => s.find? name

theorem first?_eq (g : ScopeGraph) (i : Nat) (name : String) :
    g.first? i name = (g.definitionsOf i).findIdx? (·.name == name) := by
  unfold first? definitionsOf
  cases g.scope? i <;> rfl

theorem binds_iff_definitionsOf :
    g.Binds a name ↔ ∃ d, (g.definitionsOf a.scope)[a.index]? = some d ∧ d.name = name := by
  rw [Binds, definition?_eq]

theorem first?_eq_some_iff :
    g.first? i name = some k ↔ g.Binds ⟨i, k⟩ name ∧ ∀ m < k, ¬ g.Binds ⟨i, m⟩ name := by
  simp only [first?_eq, binds_iff_definitionsOf, List.findIdx?_eq_some_iff_getElem]
  constructor
  · rintro ⟨hk, hname, hfirst⟩
    refine ⟨⟨_, List.getElem?_eq_getElem hk, beq_iff_eq.mp hname⟩, ?_⟩
    rintro m hm ⟨d, hd, hdname⟩
    obtain ⟨hlt, rfl⟩ := List.getElem?_eq_some_iff.mp hd
    have hne := hfirst m hm
    simp [hdname] at hne
  · rintro ⟨⟨d, hd, hname⟩, hfirst⟩
    obtain ⟨hk, rfl⟩ := List.getElem?_eq_some_iff.mp hd
    refine ⟨hk, beq_iff_eq.mpr hname, fun m hm => ?_⟩
    have hlt : m < (g.definitionsOf i).length := Nat.lt_trans hm hk
    have hne : (g.definitionsOf i)[m].name ≠ name := fun h =>
      hfirst m hm ⟨_, List.getElem?_eq_getElem hlt, h⟩
    simpa using hne

theorem first?_eq_none_iff : g.first? i name = none ↔ ¬ g.BindsIn i name := by
  rw [first?_eq, List.findIdx?_eq_none_iff]
  constructor
  · rintro hnone ⟨k, hk⟩
    obtain ⟨d, hd, hname⟩ := binds_iff_definitionsOf.mp hk
    have hne := hnone d (List.mem_of_getElem? hd)
    simp [hname] at hne
  · intro hnot d hd
    obtain ⟨k, hk⟩ := List.getElem?_of_mem hd
    have hne : d.name ≠ name := fun h => hnot ⟨k, binds_iff_definitionsOf.mpr ⟨d, hk, h⟩⟩
    simpa using hne

theorem exists_first? (h : g.BindsIn i name) : ∃ k, g.first? i name = some k := by
  rw [← Option.ne_none_iff_exists', ne_eq, first?_eq_none_iff]
  exact not_not_intro h

theorem BindsIn.lt_size (h : g.BindsIn i name) : i < g.size := by
  obtain ⟨k, d, hd, -⟩ := h
  obtain ⟨s, hs, -⟩ := Option.bind_eq_some_iff.mp hd
  exact ScopeGraph.lt_size hs

/-! ## The nearest scope that binds a name -/

/-- A handle tells the first definition of a name in a scope that is so many steps above another,
and no scope before it on the way up binds the name. -/
structure IsNearest (g : ScopeGraph) (i : Nat) (name : String) (n : Nat) (a : Handle) : Prop where
  reached : g.ancestor? i n = some a.scope
  binds : g.Binds a name
  first : ∀ m < a.index, ¬ g.Binds ⟨a.scope, m⟩ name
  nearest : ∀ m < n, ∀ j, g.ancestor? i m = some j → ¬ g.BindsIn j name

theorem isNearest_iff : g.IsNearest i name n a ↔ g.ancestor? i n = some a.scope ∧
    g.first? a.scope name = some a.index ∧
    ∀ m < n, ∀ j, g.ancestor? i m = some j → g.first? j name = none := by
  simp only [first?_eq_some_iff, first?_eq_none_iff]
  constructor
  · rintro ⟨hreached, hbinds, hfirst, hnearest⟩
    exact ⟨hreached, ⟨hbinds, hfirst⟩, hnearest⟩
  · rintro ⟨hreached, ⟨hbinds, hfirst⟩, hnearest⟩
    exact ⟨hreached, hbinds, hfirst, hnearest⟩

theorem isNearest_zero_iff :
    g.IsNearest i name 0 a ↔ (g.first? i name).map (Handle.mk i) = some a := by
  rw [isNearest_iff, Option.map_eq_some_iff]
  constructor
  · rintro ⟨hreached, hfirst, -⟩
    obtain rfl : i = a.scope := Option.some.inj hreached
    exact ⟨a.index, hfirst, rfl⟩
  · rintro ⟨k, hfirst, rfl⟩
    exact ⟨rfl, hfirst, by simp⟩

theorem isNearest_succ_iff : g.IsNearest i name (n + 1) a ↔
    g.first? i name = none ∧ ∃ p, g.parentOf i = some p ∧ g.IsNearest p name n a := by
  simp only [isNearest_iff, ancestor?_succ_head, Option.bind_eq_some_iff]
  constructor
  · rintro ⟨⟨p, hp, hreached⟩, hfirst, hnearest⟩
    refine ⟨hnearest 0 (Nat.succ_pos n) i rfl, p, hp, hreached, hfirst, fun m hm j hj => ?_⟩
    refine hnearest (m + 1) (Nat.succ_lt_succ hm) j ?_
    rw [ancestor?_succ_head, hp, Option.bind_some, hj]
  · rintro ⟨hnone, p, hp, hreached, hfirst, hnearest⟩
    refine ⟨⟨p, hp, hreached⟩, hfirst, fun m hm j hj => ?_⟩
    cases m with
    | zero =>
      obtain rfl : i = j := Option.some.inj hj
      exact hnone
    | succ m =>
      rw [ancestor?_succ_head, hp, Option.bind_some] at hj
      exact hnearest m (Nat.lt_of_succ_lt_succ hm) j hj

theorem exists_isNearest (hn : g.ancestor? i n = some j) (hj : g.BindsIn j name) :
    ∃ m a, g.IsNearest i name m a := by
  classical
  have hex : ∃ n j, g.ancestor? i n = some j ∧ g.BindsIn j name := ⟨n, j, hn, hj⟩
  obtain ⟨k, hk, hbinds⟩ := Nat.find_spec hex
  obtain ⟨x, hx⟩ := exists_first? hbinds
  refine ⟨Nat.find hex, ⟨k, x⟩, isNearest_iff.mpr ⟨hk, hx, fun m hm l hl => ?_⟩⟩
  rw [first?_eq_none_iff]
  exact fun hl' => Nat.find_min hex hm ⟨l, hl, hl'⟩

/-- If a scope comes up twice on the way up, the first of the two times can be left out. -/
theorem ancestor?_shortcut (hsame : g.ancestor? i m = g.ancestor? i k) (hkn : k ≤ n) :
    g.ancestor? i (m + (n - k)) = g.ancestor? i n := by
  rw [ancestor?_add, hsame, ← ancestor?_add, Nat.add_sub_cancel' hkn]

theorem IsNearest.ancestor?_ne (h : g.IsNearest i name n a) (hmk : m < k) (hkn : k ≤ n) :
    g.ancestor? i m ≠ g.ancestor? i k := by
  intro hsame
  have hearly : g.ancestor? i (m + (n - k)) = some a.scope :=
    (ancestor?_shortcut hsame hkn).trans h.reached
  exact h.nearest _ (by omega) a.scope hearly ⟨a.index, h.binds⟩

/-- **The nearest scope that binds a name is fewer steps away than there are scopes.** -/
theorem IsNearest.lt_size (h : g.IsNearest i name n a) : n < g.size := by
  have hin : ∀ m ≤ n, ∃ k, g.ancestor? i m = some k ∧ k < g.size := by
    intro m hm
    rcases Nat.lt_or_eq_of_le hm with hm | rfl
    · exact exists_ancestor?_of_lt h.reached hm
    · exact ⟨a.scope, h.reached, BindsIn.lt_size ⟨a.index, h.binds⟩⟩
  by_contra hge
  -- otherwise two of the `n + 1` scopes on the way would be the same
  have hcard : (Finset.range g.size).card < (Finset.range (n + 1)).card := by
    rw [Finset.card_range, Finset.card_range]
    omega
  have hmaps : ∀ m ∈ Finset.range (n + 1), (g.ancestor? i m).getD 0 ∈ Finset.range g.size := by
    intro m hm
    rw [Finset.mem_range] at hm
    obtain ⟨k, hk, hlt⟩ := hin m (by omega)
    rw [hk, Option.getD_some, Finset.mem_range]
    exact hlt
  obtain ⟨x, hx, y, hy, hne, hsame⟩ :=
    Finset.exists_ne_map_eq_of_card_lt_of_maps_to hcard hmaps
  rw [Finset.mem_range] at hx hy
  have heq : g.ancestor? i x = g.ancestor? i y := by
    obtain ⟨k, hk, -⟩ := hin x (by omega)
    obtain ⟨l, hl, -⟩ := hin y (by omega)
    rw [hk, hl, Option.getD_some, Option.getD_some] at hsame
    rw [hk, hl, hsame]
  rcases Nat.lt_or_gt_of_ne hne with hlt | hlt
  · exact h.ancestor?_ne hlt (by omega) heq
  · exact h.ancestor?_ne hlt (by omega) heq.symm

/-! ## The search -/

theorem resolveUpward_succ (g : ScopeGraph) (name : String) (n i : Nat) :
    g.resolveUpward name (n + 1) i =
      ((g.first? i name).map (Handle.mk i)).or ((g.parentOf i).bind (g.resolveUpward name n)) := by
  rw [resolveUpward, first?, parentOf]
  cases g.scope? i with
  | none => rfl
  | some s => cases hfind : s.find? name <;> cases hparent : s.parent <;> simp [hfind, hparent]

/-- A search in `n` scopes finds what is fewer than `n` steps away. -/
theorem resolveUpward_eq_some_iff :
    g.resolveUpward name n i = some a ↔ ∃ k < n, g.IsNearest i name k a := by
  induction n generalizing i with
  | zero => simp [resolveUpward]
  | succ n ih =>
    rw [resolveUpward_succ, Option.or_eq_some_iff, Option.bind_eq_some_iff]
    constructor
    · rintro (hhere | ⟨hnone, p, hp, habove⟩)
      · exact ⟨0, Nat.succ_pos n, isNearest_zero_iff.mpr hhere⟩
      · obtain ⟨k, hk, hnearest⟩ := ih.mp habove
        rw [Option.map_eq_none_iff] at hnone
        exact ⟨k + 1, Nat.succ_lt_succ hk, isNearest_succ_iff.mpr ⟨hnone, p, hp, hnearest⟩⟩
    · rintro ⟨k, hk, hnearest⟩
      cases k with
      | zero => exact .inl (isNearest_zero_iff.mp hnearest)
      | succ k =>
        obtain ⟨hnone, p, hp, habove⟩ := isNearest_succ_iff.mp hnearest
        refine .inr ⟨Option.map_eq_none_iff.mpr hnone, p, hp, ?_⟩
        exact ih.mpr ⟨k, Nat.lt_of_succ_lt_succ hk, habove⟩

theorem resolveUpward_eq_some_iff_of_le (hn : g.size ≤ n) :
    g.resolveUpward name n i = some a ↔ ∃ k, g.IsNearest i name k a := by
  rw [resolveUpward_eq_some_iff]
  constructor
  · rintro ⟨k, -, h⟩
    exact ⟨k, h⟩
  · rintro ⟨k, h⟩
    exact ⟨k, Nat.lt_of_lt_of_le h.lt_size hn, h⟩

theorem resolveName_eq_some_iff :
    g.resolveName i name = some a ↔ ∃ k, g.IsNearest i name k a :=
  resolveUpward_eq_some_iff_of_le (Nat.le_succ _)

theorem resolveUpward_of_le (hn : g.size ≤ n) :
    g.resolveUpward name n i = g.resolveName i name := by
  ext a
  rw [resolveName_eq_some_iff, resolveUpward_eq_some_iff_of_le hn]

/-- **A name means its first definition in the nearest scope that has one.** Whatever the graph,
also where parents lead in a circle: something is found if and only if a scope on the way up binds
the name, however many steps away. What is found is the first definition of the name in its scope,
and no scope on the way there binds the name. The search would find the same if it went on. -/
theorem resolveName_nearest (g : ScopeGraph) (i : Nat) (name : String) :
    ((g.resolveName i name).isSome = true ↔
      ∃ n j, g.ancestor? i n = some j ∧ ∃ k, g.Binds ⟨j, k⟩ name) ∧
    (∀ a, g.resolveName i name = some a ↔ ∃ n,
      g.ancestor? i n = some a.scope ∧
      (g.Binds a name ∧ ∀ k < a.index, ¬ g.Binds ⟨a.scope, k⟩ name) ∧
      ∀ m < n, ∀ j, g.ancestor? i m = some j → ∀ k, ¬ g.Binds ⟨j, k⟩ name) ∧
    ∀ bound, g.size ≤ bound → g.resolveUpward name bound i = g.resolveName i name := by
  refine ⟨?_, fun a => ?_, fun bound hbound => resolveUpward_of_le hbound⟩
  · rw [Option.isSome_iff_exists]
    constructor
    · rintro ⟨a, ha⟩
      obtain ⟨n, h⟩ := resolveName_eq_some_iff.mp ha
      exact ⟨n, a.scope, h.reached, a.index, h.binds⟩
    · rintro ⟨n, j, hn, hj⟩
      obtain ⟨m, a, h⟩ := exists_isNearest hn hj
      exact ⟨a, resolveName_eq_some_iff.mpr ⟨m, h⟩⟩
  · rw [resolveName_eq_some_iff]
    constructor
    · rintro ⟨n, h⟩
      exact ⟨n, h.reached, ⟨h.binds, h.first⟩, fun m hm j hj k hk => h.nearest m hm j hj ⟨k, hk⟩⟩
    · rintro ⟨n, hreached, ⟨hbinds, hfirst⟩, hnearest⟩
      refine ⟨n, hreached, hbinds, hfirst, fun m hm j hj => ?_⟩
      rintro ⟨k, hk⟩
      exact hnearest m hm j hj k hk

/-- A block in a function in a file, whose package lies in another one that lies in it. The outer
package defines `f` after something else. -/
def spiral : List Operation :=
  let place : Location := ⟨⟨"a.go"⟩, 1, 1, 1, 2⟩
  [.addFile ⟨"a.go"⟩, .addScope .function 0, .addScope .block 1, .addPackage "x",
    .addPackage "y", .setParent 0 3, .setParent 3 4, .setParent 4 3,
    .define 4 ⟨"e", .value, none, none, place, none⟩,
    .define 4 ⟨"f", .function, none, none, place, none⟩]

/-- The graph of the block, the function, the file and the two packages. -/
def spiralGraph : ScopeGraph :=
  let place : Location := ⟨⟨"a.go"⟩, 1, 1, 1, 2⟩
  { scopes := #[⟨0, .file, some 3, [1], [], [], some ⟨"a.go"⟩⟩,
      ⟨1, .function, some 0, [2], [], [], some ⟨"a.go"⟩⟩,
      ⟨2, .block, some 1, [], [], [], some ⟨"a.go"⟩⟩,
      ⟨3, .package, some 4, [0, 4], [], [], none⟩,
      ⟨4, .package, some 3, [3], [⟨"e", .value, none, none, place, none⟩,
        ⟨"f", .function, none, none, place, none⟩], [], none⟩]
    files := [(⟨"a.go"⟩, 0)]
    packages := [("x", 3), ("y", 4)] }

theorem resolveName_nearest_spiral :
    Operation.runAll? spiral = some spiralGraph ∧
    (∃ n, spiralGraph.ancestor? 2 n = some 4 ∧ spiralGraph.Binds ⟨4, 1⟩ "f" ∧
      ∀ m < n, ∀ j, spiralGraph.ancestor? 2 m = some j → ∀ k, ¬ spiralGraph.Binds ⟨j, k⟩ "f") ∧
    spiralGraph.resolveUpward "f" 5 2 = some ⟨4, 1⟩ ∧ spiralGraph.resolveUpward "f" 4 2 = none ∧
    ¬ ∃ n j, spiralGraph.ancestor? 2 n = some j ∧ ∃ k, spiralGraph.Binds ⟨j, k⟩ "g" := by
  have hrun : Operation.runAll? spiral = some spiralGraph := by decide +kernel
  have hf : spiralGraph.resolveName 2 "f" = some ⟨4, 1⟩ := by decide
  have hg : ¬ (spiralGraph.resolveName 2 "g").isSome = true := by decide
  obtain ⟨-, hfound, hbound⟩ := resolveName_nearest spiralGraph 2 "f"
  obtain ⟨n, hn, ⟨hbinds, -⟩, hnearest⟩ := (hfound ⟨4, 1⟩).mp hf
  refine ⟨hrun, ⟨n, hn, hbinds, hnearest⟩, (hbound 5 (by decide)).trans hf, by decide, ?_⟩
  rwa [(resolveName_nearest spiralGraph 2 "g").1] at hg

/-! ## A new definition -/

/-- A definition that is added to the scope `s` comes between a scope and what a name means there:
it has the name, `s` is on the way up, and neither `s` nor a scope before it binds the name. -/
def Captures (g : ScopeGraph) (s : Nat) (d : Definition) (t : Nat) (name : String) : Prop :=
  name = d.name ∧ ∃ n, g.ancestor? t n = some s ∧
    ∀ m ≤ n, ∀ j, g.ancestor? t m = some j → ¬ g.BindsIn j name

theorem ancestor?_define (g : ScopeGraph) (s : Nat) (d : Definition) (i n : Nat) :
    (g.define s d).1.ancestor? i n = g.ancestor? i n := by
  have hparent : (g.define s d).1.parentOf = g.parentOf := by
    funext j
    exact parentOf_modify fun _ => rfl
  induction n with
  | zero => rfl
  | succ n ih => rw [ancestor?, ancestor?, ih, hparent]

theorem first?_define (hs : s < g.size) (d : Definition) (i : Nat) (name : String) :
    (g.define s d).1.first? i name = (g.first? i name).or
      (if s = i ∧ d.name = name then some (g.definitionsOf s).length else none) := by
  rw [first?_eq, first?_eq, definitionsOf_define hs, List.findIdx?_append]
  congr 1
  by_cases hi : s = i
  · subst hi
    by_cases hname : d.name = name <;> simp [hname]
  · simp [hi]

theorem isNearest_define (hs : s < g.size) (hcaptures : ¬ g.Captures s d t name) :
    (g.define s d).1.IsNearest t name n a ↔ g.IsNearest t name n a := by
  -- where the search comes to `s` without a find, the new definition has another name
  have hother : ∀ m, (∀ k ≤ m, ∀ j, g.ancestor? t k = some j → g.first? j name = none) →
      g.ancestor? t m = some s → d.name ≠ name := by
    intro m hnone hm hname
    refine hcaptures ⟨hname.symm, m, hm, fun k hk j hj => ?_⟩
    rw [← first?_eq_none_iff]
    exact hnone k hk j hj
  simp only [isNearest_iff, ancestor?_define, first?_define hs, Option.or_eq_none_iff]
  constructor
  · rintro ⟨hreached, hfirst, hnearest⟩
    have hbefore : ∀ m < n, ∀ j, g.ancestor? t m = some j → g.first? j name = none :=
      fun m hm j hj => (hnearest m hm j hj).1
    refine ⟨hreached, ?_, hbefore⟩
    cases hold : g.first? a.scope name with
    | some k => rwa [hold, Option.some_or] at hfirst
    | none =>
      rw [hold, Option.none_or] at hfirst
      split_ifs at hfirst with hnew
      obtain ⟨hscope, hname⟩ := hnew
      rw [← hscope] at hreached hold
      refine absurd hname (hother n (fun k hk j hj => ?_) hreached)
      rcases Nat.lt_or_eq_of_le hk with hk | rfl
      · exact hbefore k hk j hj
      · rw [hreached] at hj
        cases hj
        exact hold
  · rintro ⟨hreached, hfirst, hnearest⟩
    refine ⟨hreached, by rw [hfirst, Option.some_or], fun m hm j hj => ⟨hnearest m hm j hj, ?_⟩⟩
    rw [if_neg]
    rintro ⟨rfl, hname⟩
    exact hother m (fun k hk => hnearest k (Nat.lt_of_le_of_lt hk hm)) hj hname

theorem Captures.isNearest_define (hs : s < g.size) (h : g.Captures s d t name) :
    ∃ n, (g.define s d).1.IsNearest t name n (g.define s d).2 := by
  classical
  obtain ⟨hname, n, hn, hfree⟩ := h
  have hnone : ∀ m ≤ n, ∀ j, g.ancestor? t m = some j → g.first? j name = none :=
    fun m hm j hj => first?_eq_none_iff.mpr (hfree m hm j hj)
  -- parents may lead to `s` again and again, so it is taken where it comes up first
  have hex : ∃ n, g.ancestor? t n = some s := ⟨n, hn⟩
  have hle : Nat.find hex ≤ n := Nat.find_min' hex hn
  refine ⟨Nat.find hex, ?_⟩
  rw [isNearest_iff, define_snd]
  refine ⟨?_, ?_, fun m hm j hj => ?_⟩
  · rw [ancestor?_define]
    exact Nat.find_spec hex
  · rw [first?_define hs, hnone n (Nat.le_refl n) s hn, Option.none_or, if_pos ⟨rfl, hname.symm⟩]
  · rw [ancestor?_define] at hj
    have hne : s ≠ j := fun h => Nat.find_min hex hm (h ▸ hj)
    rw [first?_define hs, hnone m (by omega) j hj, Option.none_or, if_neg fun h => hne h.1]

/-- **A new definition disturbs nothing but what it captures.** Whatever the graph: where a name is
captured, it means the new definition; everywhere else it means what it meant before. The new
definition takes a position where there was none, and all others stay where they are. -/
theorem resolveName_define (g : ScopeGraph) (s : Nat) (d : Definition) (hs : s < g.size) :
    (∀ t name, g.Captures s d t name →
      (g.define s d).1.resolveName t name = some (g.define s d).2) ∧
    (∀ t name, ¬ g.Captures s d t name →
      (g.define s d).1.resolveName t name = g.resolveName t name) ∧
    (g.definition? (g.define s d).2 = none ∧
      (g.define s d).1.definition? (g.define s d).2 = some d) ∧
    ∀ a e, g.definition? a = some e → (g.define s d).1.definition? a = some e := by
  refine ⟨fun t name h => ?_, fun t name h => ?_, ⟨?_, ?_⟩, fun a e ha => ?_⟩
  · exact resolveName_eq_some_iff.mpr (h.isNearest_define hs)
  · ext a
    simp only [resolveName_eq_some_iff, isNearest_define hs h]
  · rw [define_snd, definition?_eq]
    exact List.getElem?_eq_none (Nat.le_refl _)
  · rw [define_snd, definition?_eq, definitionsOf_define hs, if_pos rfl]
    exact List.getElem?_concat_length
  · exact (gains_define (P := fun _ => True) trivial).definition?_eq_some ha

/-- The definition of `f` that the inner package gets, between the file and the outer package. -/
def innerDefinition : Definition :=
  ⟨"f", .value, none, none, ⟨⟨"a.go"⟩, 1, 1, 1, 2⟩, none⟩

theorem resolveName_define_spiral :
    spiralGraph.Captures 3 innerDefinition 2 "f" ∧ ¬ spiralGraph.Captures 3 innerDefinition 4 "f" ∧
    (spiralGraph.define 3 innerDefinition).1.resolveName 2 "f" = some ⟨3, 0⟩ ∧
    (spiralGraph.define 3 innerDefinition).1.resolveName 4 "f" = some ⟨4, 1⟩ := by
  have hcaptured : spiralGraph.Captures 3 innerDefinition 2 "f" := by
    have hfree : ∀ m ≤ 3, (spiralGraph.ancestor? 2 m).all
        (fun j => (spiralGraph.first? j "f").isNone) = true := by decide
    refine ⟨rfl, 3, rfl, fun m hm j hj => first?_eq_none_iff.mp ?_⟩
    have hnone := hfree m hm
    rw [hj] at hnone
    exact Option.isNone_iff_eq_none.mp hnone
  -- the outer package has a definition of its own
  have hkept : ¬ spiralGraph.Captures 3 innerDefinition 4 "f" := by
    rintro ⟨-, n, -, hfree⟩
    exact hfree 0 (Nat.zero_le n) 4 rfl ⟨1, _, rfl, rfl⟩
  have hfound : spiralGraph.resolveName 4 "f" = some ⟨4, 1⟩ := by decide
  obtain ⟨hnew, hold, -⟩ := resolveName_define spiralGraph 3 innerDefinition (by decide)
  exact ⟨hcaptured, hkept, hnew 2 "f" hcaptured, (hold 4 "f" hkept).trans hfound⟩

end ScopeGraph

end SourceAtlas
