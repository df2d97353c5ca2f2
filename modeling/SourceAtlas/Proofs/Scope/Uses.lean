import SourceAtlas.Proofs.Scope.Ledger
import SourceAtlas.Proofs.Summary.Canonical

/-!
# Uses are counted once

A name in a source may be marked as used several times, on its own and with a member, and it may be
the name that a definition binds. Whatever the marks are and wherever the scopes of the file lie,
each use gets into one scope, once.

* `Marks.IsBound`, `Marks.IsDotted`: names that are not used on their own;
* `Marks.IsCount`, `Marks.isCount_arrange`: the marks that count;
* `ScopeGraph.usesOf`: the uses in a scope, `ScopeGraph.uses_perm`: the uses in all of them;
* `ScopeBuilder.usesOf_add`: what a file adds to a scope;
* **`ScopeBuilder.uses_add_once`**: what a file adds to all scopes.
-/

namespace SourceAtlas

/-- What is left out by its key may be left out before the first for each key is kept. -/
theorem mem_firstBy_filter {α κ : Type} [DecidableEq κ] {key : α → κ} {p : α → Bool}
    (hp : ∀ a b, key a = key b → p a = p b) {l : List α} {x : α} :
    x ∈ firstBy key (l.filter p) ↔ x ∈ firstBy key l ∧ p x = true := by
  by_cases hx : p x = true
  · have hsame : ∀ a, (p a && decide (key a = key x)) = decide (key a = key x) := fun a => by
      by_cases ha : key a = key x <;> simp [ha, hp a x, hx]
    rw [mem_firstBy, mem_firstBy, List.find?_filter]
    simp [hx, hsame]
  · have hout : x ∉ firstBy key (l.filter p) := fun h =>
      hx (List.mem_filter.mp ((firstBy_sublist key _).subset h)).2
    exact iff_of_false hout fun h => hx h.2

/-- Elements that are numbered below a bound, put together number by number, are all of them. -/
theorem flatMap_filter_perm {α : Type} (f : α → Nat) {n : Nat} {l : List α}
    (hl : ∀ x ∈ l, f x < n) : ((List.range n).flatMap fun i => l.filter (f · = i)).Perm l := by
  induction n generalizing l with
  | zero => simp [List.eq_nil_iff_forall_not_mem.mpr fun x hx => Nat.not_lt_zero _ (hl x hx)]
  | succ n ih =>
    -- those with the last number are put at the end
    have hrest := @ih (l.filter fun x => !decide (f x = n)) fun x hx => by
      have hlt := hl x (List.mem_filter.mp hx).1
      have hne : f x ≠ n := by simpa using (List.mem_filter.mp hx).2
      omega
    have hsame : ((List.range n).flatMap fun i =>
        (l.filter fun x => !decide (f x = n)).filter (f · = i)) =
        (List.range n).flatMap fun i => l.filter (f · = i) := by
      refine List.flatMap_congr fun i hi => ?_
      have hlt := List.mem_range.mp hi
      rw [List.filter_filter]
      refine List.filter_congr fun x _ => ?_
      by_cases hx : f x = i
      · simp [hx, Nat.ne_of_lt hlt]
      · simp [hx]
    rw [List.range_succ, List.flatMap_append, List.flatMap_singleton, ← hsame]
    exact (hrest.append_right _).trans
      (List.perm_append_comm.trans (List.filter_append_perm (f · = n) l))

/-! ## The marks that count -/

/-- The use that a mark tells. -/
def UseMark.use (u : UseMark) : Use := ⟨u.name.text, u.member.map (·.text), u.name.location, none⟩

namespace Marks

/-- Is a node the name that some mark binds? -/
def IsBound (m : Marks) (n : Nat) : Prop := ∃ b ∈ m.bindings, ∃ x, b.name = some x ∧ x.node = n

/-- Is a node used as a name with a member, or as such a member? -/
def IsDotted (m : Marks) (n : Nat) : Prop :=
  ∃ u ∈ m.uses, ∃ x, u.member = some x ∧ (u.name.node = n ∨ x.node = n)

/-- The marks that count: of all marks with one name and one member the first, and of all marks with
one name on its own the first, unless the name is bound or used with a member or as one. -/
structure IsCount (m : Marks) (kept : List UseMark) : Prop where
  nodup : (kept.map UseMark.key).Nodup
  dotted : ∀ n x, (n, some x) ∈ kept.map UseMark.key ↔ (n, some x) ∈ m.uses.map UseMark.key
  plain : ∀ n, (n, none) ∈ kept.map UseMark.key ↔
    (n, none) ∈ m.uses.map UseMark.key ∧ ¬m.IsBound n ∧ ¬m.IsDotted n
  first : ∀ u ∈ kept, m.uses.find? (·.key = u.key) = some u

variable {m : Marks} {u : UseMark} {n : Nat}

theorem mem_boundNodes : n ∈ m.boundNodes ↔ m.IsBound n := by
  simp [boundNodes, IsBound]

theorem mem_dottedNodes_realUses : n ∈ UseMark.dottedNodes m.realUses ↔ m.IsDotted n := by
  rw [UseMark.dottedNodes, List.mem_flatMap]
  constructor
  · rintro ⟨u, hu, hn⟩
    cases hx : u.member with
    | none => simp [hx] at hn
    | some x =>
      rw [hx, List.mem_pair] at hn
      exact ⟨u, (List.mem_filter.mp hu).1, x, hx, hn.imp Eq.symm Eq.symm⟩
  · rintro ⟨u, hu, x, hx, hn⟩
    refine ⟨u, List.mem_filter.mpr ⟨hu, by simp [hx]⟩, ?_⟩
    rw [hx, List.mem_pair]
    exact hn.imp Eq.symm Eq.symm

/-- **What is kept** is the first mark for its key, and its key counts. -/
theorem mem_arrange_realUses : u ∈ UseMark.arrange m.realUses ↔
    m.uses.find? (·.key = u.key) = some u ∧
      (u.member = none → ¬m.IsBound u.name.node ∧ ¬m.IsDotted u.name.node) := by
  have hkept : m.realUses.filter (fun u => u.member.isSome ||
      !(UseMark.dottedNodes m.realUses).contains u.name.node) =
      m.uses.filter fun u => u.member.isSome || (!m.boundNodes.contains u.name.node &&
        !(UseMark.dottedNodes m.realUses).contains u.name.node) := by
    rw [realUses, List.filter_filter]
    refine List.filter_congr fun u _ => ?_
    cases u.member <;> simp [Bool.and_comm]
  have hkey : ∀ u v : UseMark, u.key = v.key →
      u.name.node = v.name.node ∧ u.member.isSome = v.member.isSome := fun u v h => by
    obtain ⟨hname, hmember⟩ := Prod.mk.inj h
    rw [← Option.isSome_map (f := (·.node)), hmember, Option.isSome_map]
    exact ⟨hname, rfl⟩
  rw [UseMark.arrange, List.mem_mergeSort, hkept, mem_firstBy_filter fun u v h => by
    obtain ⟨hname, hmember⟩ := hkey u v h
    rw [hname, hmember], mem_firstBy]
  cases u.member <;> simp [mem_boundNodes, mem_dottedNodes_realUses]

/-- The names and members that count are those that are marked, a name on its own only if it is not
bound and not used with a member or as one. -/
theorem mem_keys_arrange {k : Nat × Option Nat} :
    k ∈ (UseMark.arrange m.realUses).map UseMark.key ↔
      k ∈ m.uses.map UseMark.key ∧ (k.2 = none → ¬m.IsBound k.1 ∧ ¬m.IsDotted k.1) := by
  have hnone : ∀ u : UseMark, u.key.2 = none ↔ u.member = none := fun u => Option.map_eq_none_iff
  constructor
  · intro hk
    obtain ⟨u, hu, rfl⟩ := List.mem_map.mp hk
    obtain ⟨hfirst, hcounts⟩ := mem_arrange_realUses.mp hu
    exact ⟨List.mem_map_of_mem (List.mem_of_find?_eq_some hfirst),
      fun h => hcounts ((hnone u).mp h)⟩
  · rintro ⟨hk, hcounts⟩
    obtain ⟨u, hu, rfl⟩ := List.mem_map.mp hk
    obtain ⟨v, hv⟩ := Option.isSome_iff_exists.mp
      (List.find?_isSome.mpr ⟨u, hu, by simp⟩ : (m.uses.find? (·.key = u.key)).isSome)
    have hkey : v.key = u.key := by simpa using List.find?_some hv
    rw [← hkey] at hv hcounts ⊢
    exact List.mem_map_of_mem (mem_arrange_realUses.mpr ⟨hv, fun h => hcounts ((hnone v).mpr h)⟩)

theorem isCount_arrange (m : Marks) : m.IsCount (UseMark.arrange m.realUses) where
  nodup := by
    rw [List.Nodup, List.pairwise_map]
    exact (List.mergeSort_perm _ _).symm.pairwise (firstBy_pairwise _ _) Ne.symm
  dotted n x := by simp only [mem_keys_arrange, reduceCtorEq, false_implies, and_true]
  plain n := by simp only [mem_keys_arrange, forall_const]
  first u hu := (mem_arrange_realUses.mp hu).1

end Marks

namespace UseMark

/-- Does a mark start before another, or at the same byte and end no later? -/
def IsBefore (u v : UseMark) : Prop :=
  u.name.span.start < v.name.span.start ∨
    (u.name.span.start = v.name.span.start ∧ u.name.span.stop ≤ v.name.span.stop)

theorem before_iff {u v : UseMark} : u.before v = true ↔ u.IsBefore v := by
  simp [before, IsBefore]

theorem pairwise_arrange (us : List UseMark) : (arrange us).Pairwise IsBefore := by
  have htrans : ∀ u v w : UseMark, u.before v = true → v.before w = true → u.before w = true := by
    intro u v w huv hvw
    rw [before_iff, IsBefore] at *
    omega
  have htotal : ∀ u v : UseMark, (u.before v || v.before u) = true := by
    intro u v
    rw [Bool.or_eq_true, before_iff, before_iff, IsBefore, IsBefore]
    omega
  exact (List.pairwise_mergeSort htrans htotal _).imp before_iff.mp

end UseMark

/-! ## The uses in scopes -/

namespace ScopeGraph

variable {g h : ScopeGraph} {i j n : Nat}

/-- The uses in the scope with a number. -/
def usesOf (g : ScopeGraph) (i : Nat) : List Use := ((g.scope? i).map (·.uses)).getD []

theorem usesOf_of_le (hi : g.size ≤ i) : g.usesOf i = [] := by
  rw [usesOf, scope?, Array.getElem?_eq_none hi]
  rfl

theorem usesOf_push (kind : ScopeKind) (parent : Option Nat) (file : Option Path) :
    (g.push kind parent file).usesOf i = g.usesOf i := by
  rw [usesOf, usesOf, scope?_push]
  split_ifs with hi
  · rw [hi, scope?_size]
    rfl
  · rfl

theorem usesOf_modify {t : Scope → Scope} (ht : ∀ s, (t s).uses = s.uses) :
    (g.modify j t).usesOf i = g.usesOf i := by
  rw [usesOf, usesOf, scope?_modify]
  split_ifs
  · cases g.scope? i <;> simp [ht]
  · rfl

theorem usesOf_addFile (path : Path) : (g.addFile path).1.usesOf i = g.usesOf i := by
  unfold addFile
  split
  · rfl
  · exact usesOf_push _ _ _

theorem usesOf_addPackage (key : String) : (g.addPackage key).1.usesOf i = g.usesOf i := by
  unfold addPackage
  split
  · rfl
  · exact usesOf_push _ _ _

theorem usesOf_hold (c : Nat) :
    (g.modify j fun s => { s with children := s.children ++ [c] }).usesOf i = g.usesOf i :=
  usesOf_modify fun _ => rfl

theorem usesOf_addScope (kind : ScopeKind) (p : Nat) :
    (g.addScope kind p).1.usesOf i = g.usesOf i := by
  unfold addScope
  split
  · exact (usesOf_hold _).trans (usesOf_push _ _ _)
  · rfl

theorem usesOf_setParent (c p : Nat) : (g.setParent c p).usesOf i = g.usesOf i := by
  have hdetach : (g.detach c).usesOf i = g.usesOf i := by
    unfold detach
    split
    · exact usesOf_modify fun _ => rfl
    · rfl
  have hmoved : ((g.detach c).modify c fun s => { s with parent := some p }).usesOf i =
      (g.detach c).usesOf i := usesOf_modify fun _ => rfl
  unfold setParent
  split_ifs
  · rfl
  · rw [usesOf_hold, hmoved, hdetach]

theorem usesOf_addUse (hj : j < g.size) (u : Use) :
    (g.addUse j u).usesOf i = g.usesOf i ++ if j = i then [u] else [] := by
  rw [usesOf, usesOf, addUse, scope?_modify]
  split_ifs with hi
  · subst hi
    obtain ⟨s, hs⟩ := scope?_isSome hj
    simp [hs]
  · simp

theorem uses_eq_flatMap (hn : g.size ≤ n) : g.uses = (List.range n).flatMap g.usesOf := by
  induction n, hn using Nat.le_induction with
  | base =>
    have hscopes : g.scopes.toList.map (·.uses) = (List.range g.size).map g.usesOf := by
      refine List.ext_getElem? fun i => ?_
      rw [List.getElem?_map, List.getElem?_map, Array.getElem?_toList]
      by_cases hi : i < g.size
      · obtain ⟨s, hs⟩ := scope?_isSome hi
        rw [List.getElem?_range hi, Option.map_some, usesOf, hs]
        exact congrArg (Option.map _) hs
      · rw [Array.getElem?_eq_none (Nat.le_of_not_lt hi),
          List.getElem?_eq_none (by simpa using Nat.le_of_not_lt hi)]
        rfl
    rw [uses, List.flatMap, List.flatMap, hscopes]
  | succ n hn ih =>
    rw [List.range_succ, List.flatMap_append, ← ih, List.flatMap_singleton, usesOf_of_le hn,
      List.append_nil]

/-- **What is added scope by scope is added to the graph.** -/
theorem uses_perm {α : Type} {f : α → Use} {place : α → Nat} {l : List α} (hsize : g.size ≤ h.size)
    (hplace : ∀ x ∈ l, place x < h.size)
    (husesOf : ∀ i, h.usesOf i = g.usesOf i ++ (l.filter (place · = i)).map f) :
    h.uses.Perm (g.uses ++ l.map f) := by
  have hadded := (flatMap_filter_perm place hplace).map f
  rw [List.map_flatMap] at hadded
  have hsplit : h.uses =
      (List.range h.size).flatMap fun i => g.usesOf i ++ (l.filter (place · = i)).map f := by
    rw [uses_eq_flatMap (Nat.le_refl _)]
    exact List.flatMap_congr fun i _ => husesOf i
  rw [hsplit, uses_eq_flatMap hsize]
  exact (List.flatMap_append_perm _ _ _).symm.trans (hadded.append_left _)

end ScopeGraph

/-! ## The uses of a file -/

namespace ScopeBuilder

open ScopeGraph

variable {g h : ScopeGraph} {b : ScopeBuilder} {f i : Nat} {regions : List Region}

theorem usesOf_addScopes (marks : List ScopeMark) :
    (addScopes g f marks).1.usesOf i = g.usesOf i :=
  List.foldlRecOn (ScopeMark.arrange marks) (nest f) (b := ⟨g, [], []⟩)
    (motive := fun n => n.graph.usesOf i = g.usesOf i) rfl fun _ hn m _ =>
      (usesOf_addScope m.kind _).trans hn

theorem usesOf_foldl_bind (language : Language) (path : Path) (ms : List BindingMark) :
    (ms.foldl (bind language path f regions) b).graph.usesOf i = b.graph.usesOf i := by
  induction ms generalizing b with
  | nil => rfl
  | cons m ms ih =>
    rw [List.foldl_cons, ih, bind_eq]
    split
    · rfl
    · exact usesOf_modify fun _ => rfl

theorem usesOf_foldl_addUse (hf : f < g.size) (hh : IsFilledWith g f regions h)
    (us : List UseMark) : (us.foldl (addUse f regions) h).usesOf i =
      h.usesOf i ++ (us.filter (placeIn regions f ·.name.span false = i)).map UseMark.use := by
  induction us generalizing h with
  | nil => simp
  | cons u us ih =>
    have hstep : (addUse f regions h u).usesOf i =
        h.usesOf i ++ if placeIn regions f u.name.span false = i then [u.use] else [] :=
      usesOf_addUse (hh.placeIn_lt hf u.name.span false) u.use
    rw [List.foldl_cons, ih (hh.addUse u), hstep]
    by_cases hi : placeIn regions f u.name.span false = i <;> simp [hi]

theorem usesOf_joinPackage (path : Path) : (joinPackage g path f).usesOf i = g.usesOf i := by
  have hextend : ∀ (k : ScopeGraph) (p : Nat) (ds : List Definition),
      (k.modify p fun s => { s with definitions := s.definitions ++ ds }).usesOf i = k.usesOf i :=
    fun _ _ _ => usesOf_modify fun _ => rfl
  rw [joinPackage_eq, hextend, usesOf_setParent, usesOf_addPackage]

/-- The scope in which a use of a file is placed: that of the smallest region around it, or that of
the file. -/
def useScope (g : ScopeGraph) (a : Addition) (u : UseMark) : Nat :=
  let (g, file) := g.addFile a.path
  placeIn (addScopes g file a.contents.scopes).2 file u.name.span false

theorem usesOf_fill (hf : f < b.graph.size) (path : Path) (language : Language) (marks : Marks) :
    (b.fill path language marks f).graph.usesOf i = b.graph.usesOf i ++
      ((UseMark.arrange marks.realUses).filter (placeIn (addScopes b.graph f marks.scopes).2 f
        ·.name.span false = i)).map UseMark.use := by
  have hbound := IsFilledWith.foldl_bind (b := ⟨(addScopes b.graph f marks.scopes).1, b.imports⟩)
    (isFilledWith_addScopes hf marks.scopes) language path (BindingMark.arrange marks.bindings)
  rw [fill]
  dsimp only
  rw [usesOf_foldl_addUse hf hbound, usesOf_foldl_bind, usesOf_addScopes]

theorem size_fill_le_add (a : Addition) (ha : a.language.hasBindings = true) :
    ((b.addEmpty a.path).1.fill a.path a.language a.contents (b.addEmpty a.path).2).graph.size ≤
      (b.add a).graph.size := by
  rw [add_eq, addMarks_eq, if_pos ha]
  dsimp only
  split_ifs
  · exact (gains_joinPackage a.path).size
  · exact Nat.le_refl _

section Add

variable (hb : b.graph.IsTabled) (a : Addition) (ha : a.language.hasBindings = true)

include hb ha

/-- **What a file adds to a scope:** the uses that count and are placed there, in their order. -/
theorem usesOf_add (i : Nat) : (b.add a).graph.usesOf i = b.graph.usesOf i ++
    ((UseMark.arrange a.contents.realUses).filter (useScope b.graph a · = i)).map UseMark.use := by
  have hfill := usesOf_fill (b := (b.addEmpty a.path).1) (i := i)
    (addFile_snd_lt b.graph hb a.path) a.path a.language a.contents
  have hempty : (b.addEmpty a.path).1.graph.usesOf i = b.graph.usesOf i := usesOf_addFile a.path
  rw [hempty] at hfill
  rw [add_eq, addMarks_eq, if_pos ha]
  dsimp only
  split_ifs
  · rw [usesOf_joinPackage]
    exact hfill
  · exact hfill

theorem useScope_lt (u : UseMark) : useScope b.graph a u < (b.add a).graph.size := by
  have hf := addFile_snd_lt b.graph hb a.path
  have hfilled := isFilledWith_fill (b := (b.addEmpty a.path).1) hf a.path a.language a.contents
  exact Nat.lt_of_lt_of_le (hfilled.placeIn_lt hf u.name.span false) (size_fill_le_add a ha)

theorem size_le_add : b.graph.size ≤ (b.add a).graph.size := by
  have hfilled := isFilled_fill (b := (b.addEmpty a.path).1) (addFile_snd_lt b.graph hb a.path)
    a.path a.language a.contents
  have hadded : b.graph.Gains (fun _ => True) (b.addEmpty a.path).1.graph := gains_addFile a.path
  exact (hadded.size.trans hfilled.size).trans (size_fill_le_add a ha)

end Add

/-- **Every use is counted once.** Let a file of a language with scopes be added after any others,
with any marks. There are marks that count: one for each name and member that are marked together,
and one for each name that is marked on its own and is neither bound nor used with a member or as
one. Their uses, and no others, are added to the uses of the graph. To each scope those are added
that are placed in it, ordered by where they start and end. -/
theorem uses_add_once (additions : List Addition) (a : Addition)
    (ha : a.language.hasBindings = true) :
    let g := (run additions).graph
    let h := ((run additions).add a).graph
    ∃ kept : List UseMark, a.contents.IsCount kept ∧
      h.uses.Perm (g.uses ++ kept.map UseMark.use) ∧
      ∀ i, let own := kept.filter (useScope g a · = i)
        h.usesOf i = g.usesOf i ++ own.map UseMark.use ∧ own.Pairwise UseMark.IsBefore := by
  intro g h
  have htabled := isTabled_run additions
  refine ⟨UseMark.arrange a.contents.realUses, a.contents.isCount_arrange, ?_, fun i => ?_⟩
  · exact uses_perm (size_le_add htabled a ha) (fun u _ => useScope_lt htabled a ha u)
      (usesOf_add htabled a ha)
  · exact ⟨usesOf_add htabled a ha i, (UseMark.pairwise_arrange _).filter _⟩

/-- A name in the nodes of a file, one node for each byte. -/
def letterAt (node : Nat) (text : String) : NameMark :=
  ⟨node, ⟨node, node + 1⟩, text, ⟨⟨"x.go"⟩, 1, 1, 1, 2⟩⟩

/-- A function `f` in which `a.b` and `c` are used. The parts of `a.b` and the name of the function
are marked on their own too, `a.b` and `c` twice, and another `c` stands before all of them. -/
def crowded : Addition :=
  .marks ⟨"x.go"⟩ .go {
    scopes := [⟨⟨1, 9⟩, .function⟩]
    bindings := [⟨⟨1, 9⟩, .function, some (letterAt 1 "f"), none, none, "",
      (letterAt 1 "f").location⟩]
    uses := [⟨letterAt 3 "a", none⟩, ⟨letterAt 6 "c", none⟩,
      ⟨letterAt 3 "a", some (letterAt 4 "b")⟩, ⟨letterAt 1 "f", none⟩, ⟨letterAt 4 "b", none⟩,
      ⟨letterAt 3 "a", some (letterAt 4 "b")⟩, ⟨letterAt 6 "c", none⟩, ⟨letterAt 0 "c", none⟩] }

/-- Eight marks tell three uses. -/
theorem uses_add_once_crowded :
    crowded.language.hasBindings = true ∧ crowded.contents.uses.length = 8 ∧
    ((run []).add crowded).graph.uses.length = 3 := by
  have hbindings : crowded.language.hasBindings = true := by decide
  obtain ⟨kept, hcount, hperm, -⟩ := uses_add_once [] crowded hbindings
  have hkeys : (kept.map UseMark.key).Perm [(3, some 4), (6, none), (0, none)] := by
    rw [List.perm_ext_iff_of_nodup hcount.nodup (by decide)]
    rintro ⟨n, x⟩
    cases x with
    | none =>
      have hplain : (n = 3 ∨ n = 6 ∨ n = 1 ∨ n = 4 ∨ n = 6 ∨ n = 0) ∧ ¬1 = n ∧ ¬3 = n ∧ ¬4 = n ↔
          n = 6 ∨ n = 0 := by omega
      rw [hcount.plain]
      simpa [crowded, Addition.contents, Marks.IsBound, Marks.IsDotted, UseMark.key, letterAt]
        using hplain
    | some x =>
      rw [hcount.dotted]
      simp [crowded, Addition.contents, UseMark.key, letterAt]
  refine ⟨hbindings, rfl, ?_⟩
  have hlength := hkeys.length_eq
  rw [List.length_map] at hlength
  rw [hperm.length_eq, List.length_append, List.length_map, hlength]
  rfl

end ScopeBuilder

end SourceAtlas
