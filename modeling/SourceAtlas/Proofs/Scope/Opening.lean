import SourceAtlas.Proofs.Scope.Ledger

/-!
# Definitions and the scopes that they open

A definition opens the first region that covers its bytes, and lies in the smallest region that
covers more. The scopes of regions are nested with a stack. These three choices fit together: where
regions are nested or apart, a definition lies one level above the scope that it opens, also if
several scopes cover the same bytes or none lies around the definition.

* `innermost?_skipEqual`: to skip regions is to leave them out;
* `BindingMark.AreMerged`: one mark for each key;
* `ScopeBuilder.HasRegions`, `ScopeBuilder.hasRegions_addScopes`: the scopes of nested regions;
* `ScopeBuilder.HasRegions.parentOf_first`: where the outermost of equal regions lies;
* `ScopeBuilder.IsOutermost`, `ScopeBuilder.HasRegions.isOutermost_first`: all others lie in it;
* `ScopeBuilder.definitionsOf_foldl_bind`: the definitions of a file and where they are;
* **`ScopeBuilder.opens_bind`**: a definition lies one level above the scope that it opens.
-/

namespace SourceAtlas

/-! ## Regions that cover the same bytes -/

theorem Span.contains_antisymm {a b : Span} (hab : a.contains b = true)
    (hba : b.contains a = true) : a = b := by
  rw [contains_iff] at hab hba
  obtain ⟨start, stop⟩ := a
  obtain ⟨start', stop'⟩ := b
  simp only [mk.injEq]
  simp only at hab hba
  omega

/-- To skip the regions that cover the same bytes is to leave them out. -/
theorem innermost?_skipEqual (regions : List Region) (q : Span) :
    innermost? regions q true = innermost? (regions.filter (·.span != q)) q false := by
  unfold innermost?
  rw [List.foldl_filter]
  congr 1
  funext best r
  by_cases hr : r.span = q <;> simp [hr]

section Stacked

variable {placed later earlier : List Region} {r : Region}

theorem AreStacked.filter (h : AreStacked placed) (p : Region → Bool) :
    AreStacked (placed.filter p) :=
  ⟨fun s hs => h.nonempty s (List.mem_filter.mp hs).1, h.ahead.filter p⟩

theorem AreStacked.right (h : AreStacked (later ++ earlier)) : AreStacked earlier :=
  ⟨fun s hs => h.nonempty s (List.mem_append_right _ hs), (List.pairwise_append.mp h.ahead).2.1⟩

/-- A region that was placed later does not hold an earlier one, unless both cover the same
bytes. -/
theorem AreStacked.eq_of_contains (h : AreStacked (later ++ r :: earlier)) {s : Region}
    (hs : s ∈ later) (hcontains : s.span.contains r.span = true) : s.span = r.span := by
  have hr : r.span.start < r.span.stop :=
    h.nonempty r (List.mem_append_right _ List.mem_cons_self)
  have hahead : r.span.IsAhead s.span :=
    (List.pairwise_append.mp h.ahead).2.2 s hs r List.mem_cons_self
  exact Span.contains_antisymm hcontains (hahead.contains hr (Span.contains_self _) hcontains)

theorem regionsAround_filter (h : AreStacked (later ++ r :: earlier))
    (hfirst : ∀ s ∈ earlier, s.span ≠ r.span) :
    regionsAround ((later ++ r :: earlier).filter (·.span != r.span)) r.span =
      regionsAround earlier r.span := by
  have hlater : regionsAround (later.filter (·.span != r.span)) r.span = [] := by
    rw [regionsAround, List.filter_eq_nil_iff]
    intro s hs hcontains
    obtain ⟨hmem, hne⟩ := List.mem_filter.mp hs
    exact bne_iff_ne.mp hne (h.eq_of_contains hmem hcontains)
  have hearlier : earlier.filter (·.span != r.span) = earlier :=
    List.filter_eq_self.mpr fun s hs => bne_iff_ne.mpr (hfirst s hs)
  rw [List.filter_append, List.filter_cons_of_neg (by simp), hearlier, regionsAround,
    List.filter_append]
  change regionsAround (later.filter (·.span != r.span)) r.span ++ _ = _
  rw [hlater]
  rfl

end Stacked

/-! ## Bindings of one name -/

namespace BindingMark

variable {m x c : BindingMark} {kept marks : List BindingMark} {k : Nat ⊕ (Span × Option String)}

/-- What merging keeps of marks: of those with one key the first, though perhaps with the kind of
another. -/
structure AreMerged (marks kept : List BindingMark) : Prop where
  key : ∀ x ∈ kept, ∃ y ∈ marks, y.key = x.key
  first : ∀ k c, marks.find? (·.key = k) = some c → ∃ kind, { c with kind := kind } ∈ kept

theorem key_of_mem_merge (hx : x ∈ merge m kept) : x.key = m.key ∨ ∃ y ∈ kept, y.key = x.key := by
  induction kept with
  | nil =>
    rw [List.mem_singleton.mp hx]
    exact .inl rfl
  | cons y kept ih =>
    rw [merge] at hx
    split_ifs at hx with hkey hkind
    · rcases List.mem_cons.mp hx with rfl | hx
      · exact .inl hkey
      · exact .inr ⟨x, List.mem_cons_of_mem _ hx, rfl⟩
    · exact .inr ⟨x, hx, rfl⟩
    · rcases List.mem_cons.mp hx with rfl | hx
      · exact .inr ⟨x, List.mem_cons_self, rfl⟩
      · rcases ih hx with hm | ⟨z, hz, hsame⟩
        · exact .inl hm
        · exact .inr ⟨z, List.mem_cons_of_mem _ hz, hsame⟩

theorem exists_mem_merge (m : BindingMark) (hx : x ∈ kept) :
    ∃ kind, { x with kind := kind } ∈ merge m kept := by
  induction kept with
  | nil => exact absurd hx List.not_mem_nil
  | cons y kept ih =>
    rw [merge]
    split_ifs with hkey hkind
    · rcases List.mem_cons.mp hx with rfl | hx
      · exact ⟨m.kind, List.mem_cons_self⟩
      · exact ⟨x.kind, List.mem_cons_of_mem _ hx⟩
    · exact ⟨x.kind, hx⟩
    · rcases List.mem_cons.mp hx with rfl | hx
      · exact ⟨x.kind, List.mem_cons_self⟩
      · obtain ⟨kind, hmem⟩ := ih hx
        exact ⟨kind, List.mem_cons_of_mem _ hmem⟩

theorem mem_merge_self (hnew : ∀ x ∈ kept, x.key ≠ m.key) : m ∈ merge m kept := by
  induction kept with
  | nil => exact List.mem_cons_self
  | cons y kept ih =>
    rw [merge, if_neg (hnew y List.mem_cons_self)]
    exact List.mem_cons_of_mem _ (ih fun x hx => hnew x (List.mem_cons_of_mem _ hx))

theorem AreMerged.merge (h : AreMerged marks kept) (m : BindingMark) :
    AreMerged (marks ++ [m]) (m.merge kept) := by
  refine ⟨fun x hx => ?_, fun k c hc => ?_⟩
  · rcases key_of_mem_merge hx with hm | ⟨y, hy, hkey⟩
    · exact ⟨m, by simp, hm.symm⟩
    · obtain ⟨z, hz, hsame⟩ := h.key y hy
      exact ⟨z, List.mem_append_left _ hz, hsame.trans hkey⟩
  · rw [List.find?_append, Option.or_eq_some_iff] at hc
    rcases hc with hc | ⟨hnone, hc⟩
    · obtain ⟨kind, hmem⟩ := h.first k c hc
      obtain ⟨kind', hmem'⟩ := exists_mem_merge m hmem
      exact ⟨kind', hmem'⟩
    · -- no mark before `m` has its key, so none that is kept has it
      obtain ⟨rfl, rfl⟩ : m = c ∧ m.key = k := by
        rw [List.find?_singleton] at hc
        split_ifs at hc with hkey
        exact ⟨Option.some.inj hc, of_decide_eq_true hkey⟩
      refine ⟨m.kind, mem_merge_self fun x hx hkey => ?_⟩
      obtain ⟨y, hy, hsame⟩ := h.key x hx
      exact List.find?_eq_none.mp hnone y hy (decide_eq_true (hsame.trans hkey))

theorem areMerged_foldl (marks : List BindingMark) :
    AreMerged marks (marks.foldl (fun kept m => m.merge kept) []) := by
  induction marks using List.reverseRecOn with
  | nil => exact ⟨by simp, by simp⟩
  | append_singleton marks m ih =>
    rw [List.foldl_append]
    exact ih.merge m

theorem exists_mem_arrange (hc : marks.find? (·.key = k) = some c) :
    ∃ kind, { c with kind := kind } ∈ arrange marks := by
  simp only [arrange, List.mem_mergeSort]
  exact (areMerged_foldl marks).first k c hc

end BindingMark

namespace ScopeBuilder

open ScopeGraph

variable {g h : ScopeGraph} {b : ScopeBuilder} {file i o : Nat} {marks : List ScopeMark}
  {regions before after : List Region} {r : Region} {q : Span} {m : BindingMark}

/-! ## The scopes of nested regions -/

/-- The regions of a file, in the order in which they were placed, and where their scopes lie: each
in the last region before it that holds it. -/
structure HasRegions (g : ScopeGraph) (file : Nat) (regions : List Region) : Prop where
  stacked : AreStacked regions.reverse
  parent : ∀ before r after, regions = before ++ r :: after →
    g.parentOf r.scope = some (topScope file (regionsAround before.reverse r.span))
  ne_file : ∀ r ∈ regions, r.scope ≠ file

theorem hasRegions_addScopes (hfile : file < g.size) (hmarks : ScopeMark.AreNested marks) :
    HasRegions (addScopes g file marks).1 file (addScopes g file marks).2 := by
  have hnonempty : ∀ m ∈ ScopeMark.arrange marks, m.span.start < m.span.stop := fun m hm =>
    hmarks.nonempty m (ScopeMark.mem_arrange.mp hm)
  have hahead := ScopeMark.pairwise_arrange hmarks
  have hparent := (hasNested_foldl hfile hnonempty hahead).parent
  rw [(hasPlaced_foldl hfile (ScopeMark.arrange marks)).placed] at hparent
  rw [regions_addScopes hfile]
  refine ⟨areStacked_regionsFrom g.size hnonempty hahead, fun before r after hsplit => ?_,
    fun r hr => ?_⟩
  · refine hparent after.reverse r before.reverse ?_
    rw [hsplit]
    simp
  · have := scope_regionsFrom hr
    omega

namespace HasRegions

theorem congr (hg : HasRegions g file regions) (hparent : ∀ i, h.parentOf i = g.parentOf i) :
    HasRegions h file regions :=
  ⟨hg.stacked, fun before r after hsplit => by rw [hparent, hg.parent before r after hsplit],
    hg.ne_file⟩

theorem ascent (hg : HasRegions g file (before ++ r :: after)) :
    g.Ascent file r.scope ((r :: regionsAround before.reverse r.span).map (·.scope)) := by
  have hplaced : (before ++ r :: after).reverse = after.reverse ++ r :: before.reverse := by simp
  have hstacked := hg.stacked
  rw [hplaced] at hstacked
  have haround : regionsAround (r :: before.reverse) r.span =
      r :: regionsAround before.reverse r.span :=
    List.filter_cons_of_pos (Span.contains_self _)
  have hascent : g.Ascent file (topScope file (regionsAround (r :: before.reverse) r.span))
      ((regionsAround (r :: before.reverse) r.span).map (·.scope)) := by
    refine ascent_regionsAround hstacked.right (fun later s earlier hsplit => ?_)
      (fun s hs => hg.ne_file s ?_) (hstacked.right.nonempty r List.mem_cons_self)
    · -- read from the first to the last, `s` comes in the regions up to `r`
      have hforward : before ++ [r] = earlier.reverse ++ s :: later.reverse := by
        have hreverse := congrArg List.reverse hsplit
        simpa using hreverse
      have hparent := hg.parent earlier.reverse s (later.reverse ++ after) (by
        rw [List.append_cons, hforward, List.append_assoc, List.cons_append])
      rwa [List.reverse_reverse] at hparent
    · simp only [List.mem_cons, List.mem_reverse] at hs
      simp only [List.mem_append, List.mem_cons]
      tauto
  rw [haround] at hascent
  exact hascent

/-- **The first of the regions that cover some bytes lies where a definition with these bytes
does.** -/
theorem parentOf_first (hg : HasRegions g file (before ++ r :: after))
    (hfirst : ∀ s ∈ before, s.span ≠ r.span) :
    g.parentOf r.scope = some (placeIn (before ++ r :: after) file r.span true) := by
  have hplaced : (before ++ r :: after).reverse = after.reverse ++ r :: before.reverse := by simp
  have hstacked := hg.stacked
  have hr : r.span.start < r.span.stop := hstacked.nonempty r (by simp)
  have hsearch : innermost? (before ++ r :: after) r.span true =
      (regionsAround before.reverse r.span).head? := by
    have hrest := innermost?_reverse (hstacked.filter (·.span != r.span)) hr
    rw [← List.filter_reverse, List.reverse_reverse, ← innermost?_skipEqual] at hrest
    rw [hplaced] at hstacked hrest
    rw [hrest, regionsAround_filter hstacked fun s hs => hfirst s (List.mem_reverse.mp hs)]
  rw [hg.parent before r after rfl, placeIn, hsearch, topScope]

end HasRegions

/-- The outermost scope that covers some bytes: all others that cover them lie in it. -/
def IsOutermost (g : ScopeGraph) (file : Nat) (regions : List Region) (q : Span) (o : Nat) :
    Prop :=
  ⟨q, o⟩ ∈ regions ∧ ∀ r ∈ regions, r.span = q → ∃ chain, g.Ascent file r.scope chain ∧ o ∈ chain

theorem HasRegions.isOutermost_first (hg : HasRegions g file (before ++ r :: after))
    (hfirst : ∀ s ∈ before, s.span ≠ r.span) :
    IsOutermost g file (before ++ r :: after) r.span r.scope := by
  refine ⟨List.mem_append_right _ List.mem_cons_self, fun s hs hspan => ?_⟩
  rcases List.mem_append.mp hs with hs | hs
  · exact absurd hspan (hfirst s hs)
  · rcases List.mem_cons.mp hs with rfl | hs
    · exact ⟨_, hg.ascent, List.mem_cons_self⟩
    · obtain ⟨between, rest, rfl⟩ := List.append_of_mem hs
      have hsplit : before ++ r :: (between ++ s :: rest) =
          (before ++ r :: between) ++ s :: rest := by
        simp
      rw [hsplit] at hg
      refine ⟨_, hg.ascent, List.mem_cons_of_mem _ (List.mem_map_of_mem ?_)⟩
      rw [regionsAround, List.mem_filter, hspan]
      exact ⟨by simp, Span.contains_self _⟩

/-! ## The definitions of a file -/

theorem parentOf_foldl_bind (language : Language) (path : Path) (regions : List Region)
    (ms : List BindingMark) :
    (ms.foldl (bind language path file regions) b).graph.parentOf i = b.graph.parentOf i := by
  induction ms generalizing b with
  | nil => rfl
  | cons m ms ih =>
    rw [List.foldl_cons, ih, bind_eq]
    split
    · rfl
    · exact parentOf_modify fun _ => rfl

theorem boundName_of_name {n : NameMark} (language : Language) (path : Path)
    (hkind : m.kind ≠ .imported) (hn : m.name = some n) : boundName language path m = n.text := by
  rw [boundName, if_neg hkind, hn]
  rfl

/-- Does a mark bind a name, and in the scope with a number? -/
def isBoundIn (language : Language) (path : Path) (file : Nat) (regions : List Region) (i : Nat)
    (m : BindingMark) : Bool :=
  boundName language path m ≠ "" && placeIn regions file m.span true = i

theorem definitionsOf_bind (hplace : placeIn regions file m.span true < b.graph.size)
    (language : Language) (path : Path) :
    (bind language path file regions b m).graph.definitionsOf i = b.graph.definitionsOf i ++
      ([m].filter (isBoundIn language path file regions i)).map
        (boundDefinition language path regions) := by
  rw [bind_eq]
  by_cases hname : boundName language path m = ""
  · simp [isBoundIn, hname]
  · rw [if_neg hname]
    change (b.graph.define _ _).1.definitionsOf i = _
    rw [definitionsOf_define hplace]
    by_cases hi : placeIn regions file m.span true = i <;> simp [isBoundIn, hname, hi]

/-- **Marks add their definitions in their order,** each in the scope where it is placed. -/
theorem definitionsOf_foldl_bind (hfile : file < g.size)
    (hb : IsFilledWith g file regions b.graph) (language : Language) (path : Path)
    (ms : List BindingMark) :
    (ms.foldl (bind language path file regions) b).graph.definitionsOf i =
      b.graph.definitionsOf i ++ (ms.filter (isBoundIn language path file regions i)).map
        (boundDefinition language path regions) := by
  induction ms generalizing b with
  | nil => simp
  | cons m ms ih =>
    rw [List.foldl_cons, ih (hb.bind language path m),
      definitionsOf_bind (hb.placeIn_lt hfile m.span true), List.append_assoc, ← List.map_append,
      ← List.filter_append, List.singleton_append]

theorem definitionsOf_addScopes (marks : List ScopeMark) :
    (addScopes g file marks).1.definitionsOf i = g.definitionsOf i := by
  obtain ⟨ds, hds, hnone⟩ :=
    (gains_addScopes (g := g) (f := file) (P := fun _ => False) marks).definitions i
  have hnil : ds = [] := List.eq_nil_iff_forall_not_mem.mpr hnone
  rw [hds, hnil, List.append_nil]

/-! ## What definitions open -/

theorem isSome_opens_iff (hfile : file < g.size) (language : Language) (path : Path)
    (marks : List ScopeMark) (m : BindingMark) :
    (boundDefinition language path (addScopes g file marks).2 m).opens.isSome = true ↔
      ∃ s ∈ marks, s.span = m.span := by
  rw [boundDefinition, Option.isSome_map, isSome_find?_addScopes hfile, List.any_eq_true]
  simp only [beq_iff_eq]

/-- What a definition opens is the outermost scope with its bytes, and lies where it does. -/
theorem HasRegions.of_opens (hg : HasRegions g file regions) {language : Language} {path : Path}
    (ho : (boundDefinition language path regions m).opens = some o) :
    IsOutermost g file regions m.span o ∧
      g.parentOf o = some (placeIn regions file m.span true) := by
  obtain ⟨r, hr, rfl⟩ := Option.map_eq_some_iff.mp ho
  obtain ⟨hspan, before, after, rfl, hfirst⟩ := List.find?_eq_some_iff_append.mp hr
  rw [← beq_iff_eq.mp hspan] at hfirst ⊢
  have hne : ∀ s ∈ before, s.span ≠ r.span := fun s hs => by simpa using hfirst s hs
  exact ⟨hg.isOutermost_first hne, hg.parentOf_first hne⟩

/-- **A definition lies one level above the scope that it opens.** Let a file get scopes whose
regions are nested or apart, and then any bindings. Every scope has the definitions that it had and,
after them, those of the named marks that are placed in it; of bindings with one key, the first is
marked. A named definition that is no import opens a scope if and only if a scope covers its bytes.
Then it opens the outermost of these, and that one lies in the scope where the definition is
placed. -/
theorem opens_bind (g : ScopeGraph) (imports : List PendingImport) (file : Nat) (path : Path)
    (language : Language) (marks : List ScopeMark) (bindings : List BindingMark)
    (hfile : file < g.size) (hmarks : ScopeMark.AreNested marks) :
    let regions := (addScopes g file marks).2
    let h := ((BindingMark.arrange bindings).foldl (bind language path file regions)
      ⟨(addScopes g file marks).1, imports⟩).graph
    (∀ i, h.definitionsOf i = g.definitionsOf i ++
      ((BindingMark.arrange bindings).filter fun m =>
        boundName language path m ≠ "" && placeIn regions file m.span true = i).map
          (boundDefinition language path regions)) ∧
    (∀ k c, bindings.find? (·.key = k) = some c →
      ∃ kind, { c with kind := kind } ∈ BindingMark.arrange bindings) ∧
    ∀ m ∈ BindingMark.arrange bindings, m.kind ≠ .imported →
      ∀ n, m.name = some n → n.text ≠ "" →
        let d := boundDefinition language path regions m
        let place := placeIn regions file m.span true
        (d ∈ h.definitionsOf place ∧ d.name = n.text ∧ d.kind = m.kind ∧
          d.location = m.location) ∧
        (d.opens.isSome = true ↔ ∃ s ∈ marks, s.span = m.span) ∧
        ∀ o, d.opens = some o →
          IsOutermost h file regions m.span o ∧ h.parentOf o = some place := by
  intro regions h
  have hregions : HasRegions h file regions :=
    (hasRegions_addScopes hfile hmarks).congr fun i => parentOf_foldl_bind language path _ _
  have hdefinitions : ∀ i, h.definitionsOf i = g.definitionsOf i ++
      ((BindingMark.arrange bindings).filter (isBoundIn language path file regions i)).map
        (boundDefinition language path regions) := by
    intro i
    have hscopes : (addScopes g file marks).1.definitionsOf i = g.definitionsOf i :=
      definitionsOf_addScopes marks
    rw [← hscopes]
    exact definitionsOf_foldl_bind (b := ⟨(addScopes g file marks).1, imports⟩) hfile
      (isFilledWith_addScopes hfile marks) language path _
  refine ⟨hdefinitions, fun k c hc => BindingMark.exists_mem_arrange hc,
    fun m hm hkind n hn hname => ⟨⟨?_, ?_, rfl, rfl⟩, ?_, fun o ho => hregions.of_opens ho⟩⟩
  · have hbound : isBoundIn language path file regions (placeIn regions file m.span true) m =
        true := by
      simp [isBoundIn, boundName_of_name language path hkind hn, hname]
    rw [hdefinitions]
    exact List.mem_append_right _ (List.mem_map_of_mem (List.mem_filter.mpr ⟨hm, hbound⟩))
  · exact boundName_of_name language path hkind hn
  · exact isSome_opens_iff hfile language path marks m

/-- A function, and in it a closure that covers the same bytes as two blocks. -/
def sharedBytes : List ScopeMark :=
  [⟨⟨8, 20⟩, .block⟩, ⟨⟨8, 20⟩, .function⟩, ⟨⟨0, 20⟩, .function⟩, ⟨⟨8, 20⟩, .block⟩]

/-- A name that is bound to the bytes of a span. -/
def nameAt (node : Nat) (span : Span) (text : String) : BindingMark :=
  let place : Location := ⟨⟨"x.go"⟩, 1, 1, 1, 2⟩
  ⟨span, .function, some ⟨node, span, text, place⟩, none, none, "", place⟩

/-- The regions of the function and the closure, with the scopes that they have in a file. -/
def sharedRegions : List Region :=
  [⟨⟨0, 20⟩, 1⟩, ⟨⟨8, 20⟩, 2⟩, ⟨⟨8, 20⟩, 3⟩, ⟨⟨8, 20⟩, 4⟩]

/-- Names of something in the closure, of the closure and of the function. -/
def sharedNames : List BindingMark :=
  [nameAt 1 ⟨12, 15⟩ "x", nameAt 2 ⟨8, 20⟩ "g", nameAt 3 ⟨0, 20⟩ "f"]

/-- The file with its scopes and names. -/
def sharedFile : ScopeGraph :=
  ((BindingMark.arrange sharedNames).foldl (bind .go ⟨"x.go"⟩ 0 sharedRegions)
    ⟨(addScopes (ScopeGraph.addFile ∅ ⟨"x.go"⟩).1 0 sharedBytes).1, []⟩).graph

theorem opens_bind_sharedBytes :
    ScopeMark.AreNested sharedBytes ∧
    nameAt 2 ⟨8, 20⟩ "g" ∈ BindingMark.arrange sharedNames ∧
    (boundDefinition .go ⟨"x.go"⟩ sharedRegions (nameAt 2 ⟨8, 20⟩ "g")).opens = some 2 ∧
    IsOutermost sharedFile 0 sharedRegions ⟨8, 20⟩ 2 ∧ sharedFile.parentOf 2 = some 1 := by
  have hnested : ScopeMark.AreNested sharedBytes := ⟨by decide, by decide⟩
  have hregions : (addScopes (ScopeGraph.addFile ∅ ⟨"x.go"⟩).1 0 sharedBytes).2 =
      sharedRegions := by
    have hsorted : sharedBytes.mergeSort ScopeMark.before = [⟨⟨0, 20⟩, .function⟩,
        ⟨⟨8, 20⟩, .block⟩, ⟨⟨8, 20⟩, .function⟩, ⟨⟨8, 20⟩, .block⟩] := by
      simp [sharedBytes, List.mergeSort, List.MergeSort.Internal.splitInTwo, ScopeMark.before]
    rw [addScopes, ScopeMark.arrange, hsorted]
    decide +kernel
  have hmem : nameAt 2 ⟨8, 20⟩ "g" ∈ BindingMark.arrange sharedNames := by
    rw [BindingMark.arrange, List.mem_mergeSort]
    decide
  have hfile := opens_bind (ScopeGraph.addFile ∅ ⟨"x.go"⟩).1 [] 0 ⟨"x.go"⟩ .go sharedBytes
    sharedNames (by decide) hnested
  dsimp only at hfile
  rw [hregions] at hfile
  obtain ⟨-, -, hopens⟩ := hfile.2.2 _ hmem (by decide) _ rfl (by decide)
  obtain ⟨houter, hparent⟩ := hopens 2 rfl
  exact ⟨hnested, hmem, rfl, houter, hparent⟩

end ScopeBuilder

end SourceAtlas
