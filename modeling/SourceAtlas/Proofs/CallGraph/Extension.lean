import Mathlib.Tactic.Common
import SourceAtlas.Proofs.CallGraph.Adjacency

/-!
# Adding a file

A file that is added to an index moves the definitions of the others to new positions, and its own
definitions take part in calls by name. The calls between the definitions of the other files stay as
they are. A call of an unknown name stays unresolved unless the file defines the name.

* `OpenCall`, `CallGraph.openCalls`: unresolved calls with the definitions that make them;
* `Embeds`, `embeds_insert`: definitions that keep their order among new ones;
* `Embeds.enclosing?_eq`, `Embeds.reaches_eq`: a call of another file is made as before;
* `Embeds.links_eq`, `Embeds.openCalls_eq`: what stays of a graph;
* `Summary.IsOwn`, `exists_mergeSort_insert`, `definitionsIn_append`: where the file goes;
* `Surrounds`: a file in its place, and what the index has with it and without it;
* **`CallGraph.build_insert`**: adding a file disturbs no other one.
-/

namespace SourceAtlas

open Std

/-! ## Definitions among new ones -/

/-- The definitions of one list stand in another one, in their order and at the positions that `σ`
gives, and what is new there lies in one file. -/
structure Embeds (σ : Nat → Nat) (ds es : List CallDefinition) (file : Path) : Prop where
  mono : StrictMono σ
  getElem?_eq : ∀ p, es[σ p]? = ds[p]?
  old : ∀ d ∈ ds, d.file.same file = false
  new : ∀ q e, es[q]? = some e → e.file.same file = false → ∃ p, σ p = q

/-- Where the definitions of a list go if others are inserted behind the first `k`. -/
def shift (k n p : Nat) : Nat := if p < k then p else p + n

/-- Definitions of one file that are inserted leave the others in their order. -/
theorem embeds_insert {front new behind : List CallDefinition} {file : Path}
    (hold : ∀ d ∈ front ++ behind, d.file.same file = false)
    (hnew : ∀ d ∈ new, d.file.same file = true) :
    Embeds (shift front.length new.length) (front ++ behind) (front ++ (new ++ behind)) file where
  mono p q hpq := by
    unfold shift
    split_ifs <;> omega
  getElem?_eq p := by
    unfold shift
    split_ifs with hp
    · rw [List.getElem?_append_left hp, List.getElem?_append_left hp]
    · rw [List.getElem?_append_right (by omega), List.getElem?_append_right (by omega),
        List.getElem?_append_right (by omega)]
      congr 1
      omega
  old := hold
  new q e he hfile := by
    unfold shift
    by_cases hq : q < front.length
    · exact ⟨q, if_pos hq⟩
    · rw [List.getElem?_append_right (by omega)] at he
      have hlarge : new.length ≤ q - front.length := by
        by_contra hsmall
        rw [List.getElem?_append_left (by omega)] at he
        rw [hnew e (List.mem_of_getElem? he)] at hfile
        cases hfile
      exact ⟨q - new.length, by rw [if_neg (by omega)]; omega⟩

namespace Embeds

variable {σ : Nat → Nat} {ds es : List CallDefinition} {file : Path} {r : Reference} {a b q : Nat}

theorem exists_of_isAround (h : Embeds σ ds es file) (hr : r.file.same file = false)
    {e : CallDefinition} (he : es[q]? = some e) (haround : e.isAround r = true) :
    ∃ p, σ p = q ∧ ds[p]? = some e := by
  rw [CallDefinition.isAround, Bool.and_eq_true] at haround
  have hfile : e.file.same file = false := by rw [Path.same_congr haround.2, hr]
  obtain ⟨p, rfl⟩ := h.new q e he hfile
  exact ⟨p, rfl, by rw [← h.getElem?_eq, he]⟩

theorem innermost_iff (h : Embeds σ ds es file) (hr : r.file.same file = false) :
    Innermost es r (σ a) ↔ Innermost ds r a := by
  unfold Innermost
  rw [h.getElem?_eq]
  constructor
  · rintro ⟨d, hd, haround, hbest⟩
    refine ⟨d, hd, haround, fun b e hb he => ?_⟩
    have := hbest (σ b) e (by rw [h.getElem?_eq, hb]) he
    rwa [h.mono.le_iff_le] at this
  · rintro ⟨d, hd, haround, hbest⟩
    refine ⟨d, hd, haround, fun q e hq he => ?_⟩
    obtain ⟨p, rfl, hp⟩ := h.exists_of_isAround hr hq he
    rw [h.mono.le_iff_le]
    exact hbest p e hp he

/-- **A call of another file is made by the same definition.** -/
theorem enclosing?_eq (h : Embeds σ ds es file) (hr : r.file.same file = false) :
    enclosing? es r = (enclosing? ds r).map σ := by
  ext q
  rw [Option.map_eq_some_iff, enclosing?_eq_some_iff]
  simp only [enclosing?_eq_some_iff]
  constructor
  · intro hq
    obtain ⟨e, he, haround, -⟩ := id hq
    obtain ⟨p, rfl, -⟩ := h.exists_of_isAround hr he haround
    exact ⟨p, (h.innermost_iff hr).mp hq, rfl⟩
  · rintro ⟨p, hp, rfl⟩
    exact (h.innermost_iff hr).mpr hp

/-- A call of the new file is made by none of the old definitions. -/
theorem enclosing?_ne (h : Embeds σ ds es file) (hr : r.file.same file = true) (a : Nat) :
    enclosing? es r ≠ some (σ a) := by
  intro ha
  obtain ⟨d, hd, haround, -⟩ := enclosing?_eq_some_iff.mp ha
  rw [CallDefinition.isAround, Bool.and_eq_true] at haround
  rw [h.getElem?_eq] at hd
  have hold := h.old d (List.mem_of_getElem? hd)
  rw [Path.same_congr haround.2, hr] at hold
  cases hold

/-- Only calls of other files are calls between old definitions, and they are the same as before. -/
theorem reaches_eq (h : Embeds σ ds es file) (r : Reference) (a b : Nat) :
    CallGraph.reaches es (σ a) (σ b) r =
      (CallGraph.reaches ds a b r && !r.file.same file) := by
  unfold CallGraph.reaches
  cases hr : r.file.same file with
  | true => simp [h.enclosing?_ne hr a]
  | false =>
    rw [h.enclosing?_eq hr, h.getElem?_eq]
    cases enclosing? ds r with
    | none => simp
    | some c =>
      have hca : (σ c == σ a) = (c == a) := by
        rw [Bool.eq_iff_iff, beq_iff_eq, beq_iff_eq, h.mono.injective.eq_iff]
      simp [hca]

end Embeds

/-! ## What stays of a graph -/

/-- A call of a name that nothing defines. -/
structure OpenCall where
  /-- The definition that makes the call. -/
  caller : Option CallDefinition
  file : Path
  name : String
  line : UInt32
  column : UInt32
deriving DecidableEq, Repr

/-- The call that a reference stands for. -/
def OpenCall.ofReference (definitions : List CallDefinition) (r : Reference) : OpenCall where
  caller := (enclosing? definitions r).bind (definitions[·]?)
  file := r.file
  name := r.name
  line := r.startLine
  column := r.startColumn

namespace CallGraph

variable {g g' : CallGraph} {rs rs' : List Reference} {file : Path} {σ : Nat → Nat}

/-- The unresolved calls of a graph in their order, told by the definitions that make them. -/
def openCalls (g : CallGraph) : List OpenCall :=
  g.unresolved.map fun u => ⟨u.caller.bind g.at?, u.file, u.name, u.line, u.column⟩

theorem Accounts.openCalls_eq (h : g.Accounts rs) : g.openCalls =
    (rs.filter fun r => !isKnown g.definitions r).map (.ofReference g.definitions) := by
  rw [openCalls, h.unresolved, List.map_map]
  rfl

/-- The edge between the new positions of its ends. -/
def moveEdge (σ : Nat → Nat) (e : CallEdge) : CallEdge := ⟨σ e.caller, σ e.callee, e.count⟩

/-- Do both ends of an edge lie outside of a file? -/
def isOutsideOf (file : Path) (l : CallLink) : Bool :=
  !l.caller.file.same file && !l.callee.file.same file

theorem eq_of_pairwise_before {es fs : List CallEdge} (hes : es.Pairwise Before)
    (hfs : fs.Pairwise Before) (h : ∀ e, e ∈ es ↔ e ∈ fs) : es = fs := by
  have irrefl : Std.Irrefl Before := ⟨fun e he => by unfold Before at he; omega⟩
  have antisymm : Std.Antisymm Before :=
    ⟨fun e f hef hfe => by unfold Before at hef hfe; omega⟩
  exact List.Pairwise.eq_of_mem_iff hes hfs h

end CallGraph

namespace Embeds

open CallGraph

variable {g g' : CallGraph} {rs rs' : List Reference} {file : Path} {σ : Nat → Nat}

theorem tallyOf_eq (h : Embeds σ g.definitions g'.definitions file) (hg : g.Accounts rs)
    (hg' : g'.Accounts rs') (hrs : (rs'.filter fun r => !r.file.same file) = rs) (a b : Nat) :
    tallyOf g'.edges (σ a) (σ b) = tallyOf g.edges a b := by
  rw [hg.tally, hg'.tally, ← hrs, List.countP_filter]
  exact List.countP_congr fun r _ => by rw [h.reaches_eq]

theorem link?_moveEdge (h : Embeds σ g.definitions g'.definitions file) (e : CallEdge) :
    g'.link? (moveEdge σ e) = g.link? e := by
  simp only [link?, at?, moveEdge, h.getElem?_eq]

/-- The edges between old definitions are those from before, at their new positions. -/
theorem filter_edges_eq (h : Embeds σ g.definitions g'.definitions file) (hsound : g.IsSound)
    (hg : g.Accounts rs) (hg' : g'.Accounts rs')
    (hrs : (rs'.filter fun r => !r.file.same file) = rs) :
    (g'.edges.filter fun e => (g'.link? e).any (isOutsideOf file)) = g.edges.map (moveEdge σ) := by
  have hmoved : (g.edges.map (moveEdge σ)).Pairwise Before := by
    rw [List.pairwise_map]
    refine hg.ordered.before.imp fun {e f} hef => ?_
    rcases hef with hcaller | ⟨hcaller, hcallee⟩
    · exact .inl (h.mono hcaller)
    · exact .inr ⟨congrArg σ hcaller, h.mono hcallee⟩
  refine eq_of_pairwise_before (hg'.ordered.before.filter _) hmoved fun e => ?_
  rw [List.mem_filter, Option.any_eq_true, List.mem_map]
  constructor
  · rintro ⟨he, l, hl, houtside⟩
    simp only [isOutsideOf, Bool.and_eq_true, Bool.not_eq_true'] at houtside
    obtain ⟨hcaller, hcallee, -⟩ := link?_eq_some_iff.mp hl
    obtain ⟨a, ha⟩ := h.new _ _ hcaller houtside.1
    obtain ⟨b, hb⟩ := h.new _ _ hcallee houtside.2
    have hmoved : e = moveEdge σ ⟨a, b, e.count⟩ := by rw [moveEdge, ha, hb]
    refine ⟨⟨a, b, e.count⟩, ?_, hmoved.symm⟩
    rw [hmoved, moveEdge, mem_iff_tallyOf hg'.ordered, h.tallyOf_eq hg hg' hrs] at he
    exact (mem_iff_tallyOf hg.ordered).mpr he
  · rintro ⟨f, hf, rfl⟩
    obtain ⟨a, b, n⟩ := f
    rw [link?_moveEdge h]
    constructor
    · rw [moveEdge, mem_iff_tallyOf hg'.ordered, h.tallyOf_eq hg hg' hrs]
      exact (mem_iff_tallyOf hg.ordered).mp hf
    · obtain ⟨hcaller, hcallee⟩ := hsound.ends _ hf
      have hl : g.link? ⟨a, b, n⟩ = some ⟨g.definitions[a], g.definitions[b], n⟩ := by
        simp [link?, at?, hcaller, hcallee]
      refine ⟨_, hl, ?_⟩
      simp only [isOutsideOf, Bool.and_eq_true, Bool.not_eq_true']
      exact ⟨h.old _ (List.getElem_mem _), h.old _ (List.getElem_mem _)⟩

/-- **Calls between old definitions stay**, with their numbers and in their order. -/
theorem links_eq (h : Embeds σ g.definitions g'.definitions file) (hsound : g.IsSound)
    (hg : g.Accounts rs) (hg' : g'.Accounts rs')
    (hrs : (rs'.filter fun r => !r.file.same file) = rs) :
    g'.links.filter (isOutsideOf file) = g.links := by
  have hfilter : g'.links.filter (isOutsideOf file) =
      (g'.edges.filter fun e => (g'.link? e).any (isOutsideOf file)).filterMap g'.link? := by
    rw [links, List.filter_filterMap, List.filterMap_filter]
    congr 1
    funext e
    cases g'.link? e with
    | none => rfl
    | some l => cases hl : isOutsideOf file l <;> simp [hl]
  rw [hfilter, h.filter_edges_eq hsound hg hg' hrs, List.filterMap_map, links]
  congr 1
  funext e
  exact link?_moveEdge h e

/-- **Unresolved calls stay**, unless their names become known. -/
theorem openCalls_eq (h : Embeds σ g.definitions g'.definitions file) (hg : g.Accounts rs)
    (hg' : g'.Accounts rs') (hrs : (rs'.filter fun r => !r.file.same file) = rs)
    (isNew : String → Bool)
    (hknown : ∀ r, isKnown g'.definitions r = (isKnown g.definitions r || isNew r.name)) :
    (g'.openCalls.filter fun u => !u.file.same file) =
      g.openCalls.filter fun u => !isNew u.name := by
  have hold : ∀ r ∈ rs, OpenCall.ofReference g'.definitions r = .ofReference g.definitions r := by
    intro r hr
    rw [← hrs, List.mem_filter, Bool.not_eq_true'] at hr
    simp only [OpenCall.ofReference, h.enclosing?_eq hr.2, Option.bind_map, Function.comp_def,
      h.getElem?_eq]
  have hfilter : (rs.filter fun r => !isKnown g'.definitions r) =
      (rs.filter fun r => !isKnown g.definitions r).filter fun r => !isNew r.name := by
    rw [List.filter_filter]
    refine List.filter_congr fun r _ => ?_
    rw [hknown, Bool.not_or, Bool.and_comm]
  calc (g'.openCalls.filter fun u => !u.file.same file)
    _ = ((rs'.filter fun r => !isKnown g'.definitions r).filter fun r => !r.file.same file).map
        (.ofReference g'.definitions) := by
      rw [hg'.openCalls_eq, List.filter_map]
      rfl
    _ = (rs.filter fun r => !isKnown g'.definitions r).map (.ofReference g'.definitions) := by
      rw [List.filter_comm, hrs]
    _ = (rs.filter fun r => !isKnown g'.definitions r).map (.ofReference g.definitions) :=
      List.map_congr_left fun r hr => hold r (List.mem_filter.mp hr).1
    _ = g.openCalls.filter fun u => !isNew u.name := by
      rw [hfilter, hg.openCalls_eq, List.filter_map]
      rfl

end Embeds

/-! ## Where a file goes -/

/-- Everything in a summary lies in its file, and ids tell what it defines. -/
structure Summary.IsOwn (s : Summary) : Prop where
  symbol_file : ∀ x ∈ s.symbols, x.file.same s.path = true
  reference_file : ∀ x ∈ s.references, x.file.same s.path = true
  plain : ∀ x ∈ s.symbols, x.IsPlain

instance (s : Summary) : Decidable s.IsOwn :=
  decidable_of_iff ((∀ x ∈ s.symbols, x.file.same s.path = true) ∧
      (∀ x ∈ s.references, x.file.same s.path = true) ∧ ∀ x ∈ s.symbols, x.IsPlain)
    ⟨fun h => ⟨h.1, h.2.1, h.2.2⟩, fun h => ⟨h.symbol_file, h.reference_file, h.plain⟩⟩

/-- A file that is added to others goes between those that come before and those that come after
it, and the others keep their order. -/
theorem exists_mergeSort_insert {l₁ l₂ : List Summary} {f : Summary}
    (hnew : ∀ s ∈ l₁ ++ l₂, s.path.same f.path = false) :
    ∃ front behind, ((l₁ ++ l₂).mergeSort fun a b => a.path.le b.path) = front ++ behind ∧
      ((l₁ ++ f :: l₂).mergeSort fun a b => a.path.le b.path) = front ++ f :: behind ∧
      (∀ s ∈ front, s.path.compare f.path = .lt) ∧
      ∀ s ∈ behind, f.path.compare s.path = .lt := by
  have hmem : f ∈ (l₁ ++ f :: l₂).mergeSort fun a b => a.path.le b.path :=
    List.mem_mergeSort.mpr (by simp)
  obtain ⟨front, behind, hsorted⟩ := List.append_of_mem hmem
  have hperm : (front ++ behind).Perm (l₁ ++ l₂) := by
    have h := List.mergeSort_perm (l₁ ++ f :: l₂) fun a b => a.path.le b.path
    rw [hsorted] at h
    exact (List.perm_middle.symm.trans (h.trans List.perm_middle)).cons_inv
  have hother : ∀ s ∈ front ++ behind, s.path.same f.path = false := fun s hs =>
    hnew s (hperm.mem_iff.mp hs)
  -- sorting and leaving the file out can be swapped
  have hrest : ((l₁ ++ l₂).mergeSort fun a b => a.path.le b.path) = front ++ behind := by
    have hkeep : ∀ {l m : List Summary}, (∀ s ∈ l ++ m, s.path.same f.path = false) →
        (l ++ f :: m).filter (fun s => !s.path.same f.path) = l ++ m := by
      intro l m h
      have hself : f.path.same f.path = true := Path.same_iff.mpr rfl
      rw [List.filter_append, List.filter_cons_of_neg (by simp [hself]), ← List.filter_append]
      exact List.filter_eq_self.mpr fun s hs => by simp [h s hs]
    have htrans : ∀ a b c : Summary, a.path.le b.path = true → b.path.le c.path = true →
        a.path.le c.path = true := fun _ _ _ => Path.le_trans
    have htotal : ∀ a b : Summary, (a.path.le b.path || b.path.le a.path) = true :=
      fun _ _ => Path.le_total _ _
    have h := filter_mergeSort htrans htotal (fun s => !s.path.same f.path) (l₁ ++ f :: l₂)
    rw [hsorted, hkeep hother, hkeep hnew] at h
    exact h.symm
  have hle := pairwise_mergeSort_path Summary.path (l₁ ++ f :: l₂)
  rw [hsorted, List.pairwise_append, List.pairwise_cons] at hle
  refine ⟨front, behind, hrest, hsorted, fun s hs => ?_, fun s hs => ?_⟩
  · exact Path.compare_eq_lt (hle.2.2 s hs f (by simp)) (hother s (by simp [hs]))
  · refine Path.compare_eq_lt (hle.2.1.1 s hs) ?_
    rw [Path.same_comm]
    exact hother s (by simp [hs])

/-- The definitions of files. -/
def definitionsIn (files : List Summary) : List CallDefinition :=
  CallDefinition.arrange (files.flatMap (·.symbols))

theorem isPlain_flatMap {files : List Summary} (hfiles : ∀ s ∈ files, s.IsOwn) :
    ∀ x ∈ files.flatMap (·.symbols), x.IsPlain := by
  intro x hx
  obtain ⟨s, hs, hxs⟩ := List.mem_flatMap.mp hx
  exact (hfiles s hs).plain x hxs

theorem exists_of_mem_definitionsIn {files : List Summary} (hfiles : ∀ s ∈ files, s.IsOwn)
    {d : CallDefinition} (hd : d ∈ definitionsIn files) :
    ∃ s ∈ files, d.file.same s.path = true := by
  obtain ⟨x, hx, rfl⟩ := CallDefinition.exists_of_mem_arrange hd
  obtain ⟨s, hs, hxs⟩ := List.mem_flatMap.mp hx
  exact ⟨s, hs, (hfiles s hs).symbol_file x hxs⟩

theorem definitionsIn_append {files more : List Summary} (hfiles : ∀ s ∈ files, s.IsOwn)
    (hmore : ∀ t ∈ more, t.IsOwn) (h : ∀ s ∈ files, ∀ t ∈ more, s.path.compare t.path = .lt) :
    definitionsIn (files ++ more) = definitionsIn files ++ definitionsIn more := by
  rw [definitionsIn, List.flatMap_append]
  refine CallDefinition.arrange_append (isPlain_flatMap hfiles) (isPlain_flatMap hmore) ?_
  intro x hx y hy
  obtain ⟨s, hs, hxs⟩ := List.mem_flatMap.mp hx
  obtain ⟨t, ht, hyt⟩ := List.mem_flatMap.mp hy
  rw [Path.compare_congr ((hfiles s hs).symbol_file x hxs) ((hmore t ht).symbol_file y hyt)]
  exact h s hs t ht

/-- A file between files that come before and files that come after it. -/
structure Surrounds (front : List Summary) (f : Summary) (behind : List Summary) : Prop where
  own : ∀ s ∈ front ++ f :: behind, s.IsOwn
  front_lt : ∀ s ∈ front, s.path.compare f.path = .lt
  lt_behind : ∀ s ∈ behind, f.path.compare s.path = .lt

namespace Surrounds

variable {front behind : List Summary} {f : Summary}

theorem own_front (h : Surrounds front f behind) : ∀ s ∈ front, s.IsOwn := fun s hs =>
  h.own s (by simp [hs])

theorem own_file (h : Surrounds front f behind) : f.IsOwn := h.own f (by simp)

theorem own_behind (h : Surrounds front f behind) : ∀ s ∈ behind, s.IsOwn := fun s hs =>
  h.own s (by simp [hs])

theorem own_other (h : Surrounds front f behind) : ∀ s ∈ front ++ behind, s.IsOwn :=
  List.forall_mem_append.mpr ⟨h.own_front, h.own_behind⟩

theorem same_eq_false (h : Surrounds front f behind) :
    ∀ s ∈ front ++ behind, s.path.same f.path = false := by
  intro s hs
  rcases List.mem_append.mp hs with hs | hs
  · exact Path.same_of_compare_lt (h.front_lt s hs)
  · rw [Path.same_comm]
    exact Path.same_of_compare_lt (h.lt_behind s hs)

theorem definitionsIn_without (h : Surrounds front f behind) :
    definitionsIn (front ++ behind) = definitionsIn front ++ definitionsIn behind :=
  definitionsIn_append h.own_front h.own_behind fun s hs t ht =>
    TransCmp.lt_trans (h.front_lt s hs) (h.lt_behind t ht)

theorem definitionsIn_with (h : Surrounds front f behind) :
    definitionsIn (front ++ f :: behind) =
      definitionsIn front ++ (definitionsIn [f] ++ definitionsIn behind) := by
  have hfile : ∀ s ∈ [f], s.IsOwn := by simpa using h.own_file
  have hrest : ∀ s ∈ f :: behind, s.IsOwn := List.forall_mem_cons.mpr ⟨h.own_file, h.own_behind⟩
  rw [definitionsIn_append h.own_front hrest]
  · congr 1
    exact definitionsIn_append hfile h.own_behind (by simpa using h.lt_behind)
  · intro s hs t ht
    rcases List.mem_cons.mp ht with rfl | ht
    · exact h.front_lt s hs
    · exact TransCmp.lt_trans (h.front_lt s hs) (h.lt_behind t ht)

theorem embeds (h : Surrounds front f behind) :
    Embeds (shift (definitionsIn front).length (definitionsIn [f]).length)
      (definitionsIn (front ++ behind)) (definitionsIn (front ++ f :: behind)) f.path := by
  have hold : ∀ d ∈ definitionsIn (front ++ behind), d.file.same f.path = false := by
    intro d hd
    obtain ⟨s, hs, hsame⟩ := exists_of_mem_definitionsIn h.own_other hd
    rw [Path.same_congr hsame]
    exact h.same_eq_false s hs
  rw [h.definitionsIn_without] at hold ⊢
  rw [h.definitionsIn_with]
  refine embeds_insert hold fun d hd => ?_
  obtain ⟨s, hs, hsame⟩ := exists_of_mem_definitionsIn (by simpa using h.own_file) hd
  obtain rfl : s = f := by simpa using hs
  exact hsame

theorem filter_references (h : Surrounds front f behind) :
    (((front ++ f :: behind).flatMap (·.references)).filter fun r => !r.file.same f.path) =
      (front ++ behind).flatMap (·.references) := by
  have hold : ∀ r ∈ (front ++ behind).flatMap (·.references), (!r.file.same f.path) = true := by
    intro r hr
    obtain ⟨s, hs, hrs⟩ := List.mem_flatMap.mp hr
    rw [Path.same_congr ((h.own_other s hs).reference_file r hrs), h.same_eq_false s hs]
    rfl
  have hnew : ∀ r ∈ f.references, ¬ (!r.file.same f.path) = true := by
    intro r hr
    simp [h.own_file.reference_file r hr]
  rw [List.flatMap_append] at hold
  rw [List.flatMap_append, List.flatMap_cons, List.filter_append, List.filter_append,
    List.filter_eq_nil_iff.mpr hnew, List.nil_append, ← List.filter_append,
    List.filter_eq_self.mpr hold, List.flatMap_append]

/-- The file makes the names known that it defines. -/
theorem isKnown_eq (h : Surrounds front f behind) (r : Reference) :
    CallGraph.isKnown (definitionsIn (front ++ f :: behind)) r =
      (CallGraph.isKnown (definitionsIn (front ++ behind)) r ||
        f.symbols.any (·.name == r.name)) := by
  have hfile : (definitionsIn [f]).any (·.name == r.name) = f.symbols.any (·.name == r.name) := by
    rw [definitionsIn, List.flatMap_singleton]
    exact CallDefinition.any_name_arrange h.own_file.plain r.name
  rw [CallGraph.isKnown, CallGraph.isKnown, h.definitionsIn_without, h.definitionsIn_with,
    List.any_append, List.any_append, List.any_append, hfile]
  ac_rfl

/-! ## Adding the file -/

variable {i i' : Index}

theorem embeds_build (h : Surrounds front f behind) (hi : i.files = front ++ behind)
    (hi' : i'.files = front ++ f :: behind) :
    Embeds (shift (definitionsIn front).length (definitionsIn [f]).length)
      (CallGraph.build i).definitions (CallGraph.build i').definitions f.path := by
  rw [CallGraph.definitions_build, CallGraph.definitions_build, Index.symbols, Index.symbols, hi,
    hi']
  exact h.embeds

theorem isKnown_build (h : Surrounds front f behind) (hi : i.files = front ++ behind)
    (hi' : i'.files = front ++ f :: behind) (r : Reference) :
    CallGraph.isKnown (CallGraph.build i').definitions r =
      (CallGraph.isKnown (CallGraph.build i).definitions r ||
        f.symbols.any (·.name == r.name)) := by
  rw [CallGraph.definitions_build, CallGraph.definitions_build, Index.symbols, Index.symbols, hi,
    hi']
  exact h.isKnown_eq r

theorem filter_calls (h : Surrounds front f behind) (hi : i.files = front ++ behind)
    (hi' : i'.files = front ++ f :: behind) :
    ((i'.references.filter (·.isCall)).filter fun r => !r.file.same f.path) =
      i.references.filter (·.isCall) := by
  rw [List.filter_comm, Index.references, Index.references, hi, hi', h.filter_references]

end Surrounds

namespace CallGraph

/-- **Adding a file disturbs no other one.** The calls between definitions of the other files are
the ones from before, with their numbers and in their order. The unresolved calls of the other files
are those from before whose names the file does not define, made by the same definitions and in
their order. -/
theorem build_insert (root : Path) (before after : Timestamp) (problems : List Problem)
    (l₁ l₂ : List Summary) (f : Summary) (hown : ∀ s ∈ l₁ ++ f :: l₂, s.IsOwn)
    (hnew : ∀ s ∈ l₁ ++ l₂, s.path.same f.path = false) :
    let g := build (.assemble root before (l₁ ++ l₂) problems)
    let g' := build (.assemble root after (l₁ ++ f :: l₂) problems)
    (g'.links.filter fun l => !l.caller.file.same f.path && !l.callee.file.same f.path) = g.links ∧
    (g.links.length = g.edges.length ∧ g'.links.length = g'.edges.length) ∧
    (g'.openCalls.filter fun u => !u.file.same f.path) =
      (g.openCalls.filter fun u => !f.symbols.any (·.name == u.name)) ∧
    ∀ u ∈ g.openCalls, u ∈ g'.openCalls ↔ ∀ s ∈ f.symbols, s.name ≠ u.name := by
  intro g g'
  obtain ⟨front, behind, hfiles, hfiles', hfront, hbehind⟩ := exists_mergeSort_insert hnew
  have hs : Surrounds front f behind := by
    refine ⟨fun s hs => hown s ?_, hfront, hbehind⟩
    rw [← hfiles'] at hs
    exact List.mem_mergeSort.mp hs
  have hfiles : (Index.assemble root before (l₁ ++ l₂) problems).files = front ++ behind := hfiles
  have hfiles' : (Index.assemble root after (l₁ ++ f :: l₂) problems).files =
      front ++ f :: behind := hfiles'
  have hembeds : Embeds _ g.definitions g'.definitions f.path := hs.embeds_build hfiles hfiles'
  have hg : g.Accounts _ := accounts_build _
  have hg' : g'.Accounts _ := accounts_build _
  have hcalls := hs.filter_calls hfiles hfiles'
  have hopen := hembeds.openCalls_eq hg hg' hcalls (fun n => f.symbols.any (·.name == n))
    (hs.isKnown_build hfiles hfiles')
  refine ⟨hembeds.links_eq (isSound_build _) hg hg' hcalls,
    ⟨(isSound_build _).length_links, (isSound_build _).length_links⟩, hopen, fun u hu => ?_⟩
  have houtside : u.file.same f.path = false := by
    rw [hg.openCalls_eq] at hu
    obtain ⟨r, hr, rfl⟩ := List.mem_map.mp hu
    have hr := (List.mem_filter.mp hr).1
    rw [← hcalls] at hr
    simpa [OpenCall.ofReference] using (List.mem_filter.mp hr).2
  have hmem : u ∈ g'.openCalls ↔ u ∈ g'.openCalls.filter fun u => !u.file.same f.path := by
    simp [houtside]
  rw [hmem, hopen]
  simp [hu]

/-- A file with one function that makes the given calls. -/
def script (path name : String) (calls : List String) : Summary where
  path := ⟨path⟩
  language := .python
  size := 40
  modTime := 0
  imports := []
  symbols := [⟨⟨path⟩, .function, name, "", none, 1, 9⟩]
  references := calls.map fun c => ⟨⟨path⟩, "reference.call", c, 2, 5, 2, 9⟩

/-- The file `b` goes between `a` and `c` and defines one of the two unknown names. -/
theorem build_insert_script :
    let c := script "c" "run" ["run", "help", "gone"]
    let b := script "b" "help" ["run", "help"]
    let a := script "a" "run" ["run", "run"]
    let g := build (.assemble ⟨"/"⟩ .epoch [c, a] [])
    let g' := build (.assemble ⟨"/"⟩ .epoch [c, b, a] [])
    (∀ s ∈ [c, b, a], s.IsOwn) ∧ (∀ s ∈ [c, a], s.path.same b.path = false) ∧
    g.openCalls.map (·.name) = ["help", "gone"] ∧
    (g'.links.filter fun l => !l.caller.file.same b.path && !l.callee.file.same b.path) = g.links ∧
    (g'.openCalls.filter fun u => !u.file.same b.path) =
      (g.openCalls.filter fun u => !b.symbols.any (·.name == u.name)) ∧
    ∀ u ∈ g.openCalls, u ∈ g'.openCalls ↔ ∀ s ∈ b.symbols, s.name ≠ u.name := by
  intro c b a g g'
  have hown : ∀ s ∈ [c, b, a], s.IsOwn := by decide
  have hnew : ∀ s ∈ [c, a], s.path.same b.path = false := by decide
  have hfiles : (Index.assemble ⟨"/"⟩ .epoch [c, a] []).files = [a, c] := by
    have hle : c.path.le a.path = false := by decide +kernel
    simp [Index.assemble, List.mergeSort, List.MergeSort.Internal.splitInTwo, hle]
  have hnames : g.openCalls.map (·.name) = ["help", "gone"] := by
    subst g
    rw [build, Index.symbols, Index.references, hfiles,
      CallDefinition.arrange_of_pairwise (by decide +kernel)]
    decide +kernel
  obtain ⟨hlinks, -, hopen, hstays⟩ := build_insert ⟨"/"⟩ .epoch .epoch [] [c] [a] b hown hnew
  exact ⟨hown, hnew, hnames, hlinks, hopen, hstays⟩

end CallGraph

end SourceAtlas
