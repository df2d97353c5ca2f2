import SourceAtlas.Proofs.Scope.Contents

/-!
# The imports of files

Imports wait in a list for the files that they may lead to. While files are added, scopes and
definitions are added around the definitions that wait, which stay where they are.

* `ScopeGraph.Gains`: a graph to which scopes and definitions were added;
* `ScopeBuilder.boundDefinition`, `ScopeBuilder.bind_eq`: what a mark binds;
* `ImportRecord`, `Addition.imports`: the imports of a file, as its marks tell them;
* `ScopeBuilder.IsLedger`: all imports of a graph wait, and each waits once;
* **`ScopeBuilder.isLedger_run`**: this holds after any files with different paths were added.
-/

namespace SourceAtlas

namespace ScopeGraph

variable {g h k : ScopeGraph} {P : Definition → Prop} {i j : Nat} {a : Handle} {d : Definition}

/-! ## Growth -/

/-- There is more in `h` than in `g`: new scopes, new entries in the tables that lead to new scopes,
and definitions after the old ones, for each of which `P` holds. -/
structure Gains (P : Definition → Prop) (g h : ScopeGraph) : Prop where
  size : g.size ≤ h.size
  label : ∀ i < g.size, h.labelOf i = g.labelOf i
  files : ∀ x ∈ h.files, x ∈ g.files ∨ g.size ≤ x.2
  packages : ∀ x ∈ h.packages, x ∈ g.packages ∨ g.size ≤ x.2
  definitions : ∀ i, ∃ ds, h.definitionsOf i = g.definitionsOf i ++ ds ∧ ∀ d ∈ ds, P d

namespace Gains

theorem refl (P : Definition → Prop) (g : ScopeGraph) : g.Gains P g where
  size := Nat.le_refl _
  label _ _ := rfl
  files _ := .inl
  packages _ := .inl
  definitions _ := ⟨[], (List.append_nil _).symm, by simp⟩

theorem trans (hgh : g.Gains P h) (hhk : h.Gains P k) : g.Gains P k where
  size := Nat.le_trans hgh.size hhk.size
  label i hi := by rw [hhk.label i (Nat.lt_of_lt_of_le hi hgh.size), hgh.label i hi]
  files x hx := by
    rcases hhk.files x hx with hx | hx
    · exact hgh.files x hx
    · exact .inr (Nat.le_trans hgh.size hx)
  packages x hx := by
    rcases hhk.packages x hx with hx | hx
    · exact hgh.packages x hx
    · exact .inr (Nat.le_trans hgh.size hx)
  definitions i := by
    obtain ⟨ds, hds, hP⟩ := hgh.definitions i
    obtain ⟨es, hes, hQ⟩ := hhk.definitions i
    refine ⟨ds ++ es, by rw [hes, hds, List.append_assoc], fun d hd => ?_⟩
    rcases List.mem_append.mp hd with hd | hd
    · exact hP d hd
    · exact hQ d hd

theorem imp {Q : Definition → Prop} (hgh : g.Gains P h) (hPQ : ∀ d, P d → Q d) : g.Gains Q h :=
  ⟨hgh.size, hgh.label, hgh.files, hgh.packages, fun i =>
    have ⟨ds, hds, hP⟩ := hgh.definitions i
    ⟨ds, hds, fun d hd => hPQ d (hP d hd)⟩⟩

theorem definition?_eq_some (hgh : g.Gains P h) (ha : g.definition? a = some d) :
    h.definition? a = some d := by
  obtain ⟨ds, hds, -⟩ := hgh.definitions a.scope
  rw [definition?_eq] at ha ⊢
  have hlt := (List.getElem?_eq_some_iff.mp ha).1
  rw [hds, List.getElem?_append_left hlt, ha]

theorem definition?_cases (hgh : g.Gains P h) (ha : h.definition? a = some d) :
    g.definition? a = some d ∨ P d := by
  obtain ⟨ds, hds, hP⟩ := hgh.definitions a.scope
  rw [definition?_eq, hds, List.getElem?_append] at ha
  split_ifs at ha
  · rw [definition?_eq]
    exact .inl ha
  · exact .inr (hP d (List.mem_of_getElem? ha))

theorem fileOf (hgh : g.Gains P h) (hi : i < g.size) : h.fileOf i = g.fileOf i := by
  rw [fileOf_eq_labelOf, fileOf_eq_labelOf, hgh.label i hi]

end Gains

theorem gains_push (kind : ScopeKind) (parent : Option Nat) (file : Option Path) :
    g.Gains P (g.push kind parent file) where
  size := by
    rw [size_push]
    exact Nat.le_succ _
  label i hi := by rw [labelOf_push, if_neg (Nat.ne_of_lt hi)]
  files _ := .inl
  packages _ := .inl
  definitions i := ⟨[], by rw [definitionsOf_push, List.append_nil], by simp⟩

theorem gains_modify {t : Scope → Scope} (hdefinitions : ∀ s, (t s).definitions = s.definitions)
    (hkind : ∀ s, (t s).kind = s.kind) (hfile : ∀ s, (t s).file = s.file) :
    g.Gains P (g.modify j t) where
  size := Nat.le_of_eq (size_modify t).symm
  label _ _ := labelOf_modify hkind hfile
  files _ := .inl
  packages _ := .inl
  definitions i := ⟨[], by rw [definitionsOf_modify hdefinitions, List.append_nil], by simp⟩

theorem gains_addFile (path : Path) : g.Gains P (g.addFile path).1 := by
  unfold addFile
  split
  · exact .refl P g
  · have hpush := gains_push (g := g) (P := P) .file none (some path)
    refine ⟨hpush.size, hpush.label, fun x hx => ?_, hpush.packages, hpush.definitions⟩
    rcases List.mem_append.mp hx with hx | hx
    · exact .inl hx
    · rw [List.mem_singleton.mp hx]
      exact .inr (Nat.le_refl _)

theorem gains_addPackage (key : String) : g.Gains P (g.addPackage key).1 := by
  unfold addPackage
  split
  · exact .refl P g
  · have hpush := gains_push (g := g) (P := P) .package none none
    refine ⟨hpush.size, hpush.label, hpush.files, fun x hx => ?_, hpush.definitions⟩
    rcases List.mem_append.mp hx with hx | hx
    · exact .inl hx
    · rw [List.mem_singleton.mp hx]
      exact .inr (Nat.le_refl _)

theorem gains_addScope (kind : ScopeKind) (p : Nat) : g.Gains P (g.addScope kind p).1 := by
  unfold addScope
  split
  · exact (gains_push _ _ _).trans (gains_modify (fun _ => rfl) (fun _ => rfl) fun _ => rfl)
  · exact .refl P g

theorem gains_setParent (c p : Nat) : g.Gains P (g.setParent c p) := by
  by_cases hstay : c = p ∨ g.size ≤ c ∨ g.size ≤ p
  · rw [setParent, if_pos hstay]
    exact .refl P g
  · obtain ⟨hne, hc, hp⟩ : c ≠ p ∧ c < g.size ∧ p < g.size := by omega
    have htables := tables_setParent (g := g) c p
    refine ⟨?_, fun _ _ => labelOf_setParent hne hc hp, fun x hx => .inl (htables.1 ▸ hx),
      fun x hx => .inl (htables.2 ▸ hx), fun i => ?_⟩
    · rw [setParent_eq hne hc hp, size_modify, size_modify, size_detach]
    · exact ⟨[], by rw [definitionsOf_setParent, List.append_nil], by simp⟩

theorem gains_extend {ds : List Definition} (hds : ∀ d ∈ ds, P d) :
    g.Gains P (g.modify j fun s => { s with definitions := s.definitions ++ ds }) where
  size := Nat.le_of_eq (size_modify _).symm
  label _ _ := labelOf_modify (fun _ => rfl) fun _ => rfl
  files _ := .inl
  packages _ := .inl
  definitions i := by
    by_cases hj : j < g.size
    · refine ⟨if j = i then ds else [], definitionsOf_extend hj ds, fun d hd => ?_⟩
      split_ifs at hd
      · exact hds d hd
      · exact absurd hd List.not_mem_nil
    · refine ⟨[], ?_, by simp⟩
      have hnone : g.scope? j = none := Array.getElem?_eq_none_iff.mpr (Nat.le_of_not_lt hj)
      rw [definitionsOf, definitionsOf, scope?_modify, List.append_nil]
      split_ifs with hi
      · rw [← hi, hnone]
        rfl
      · rfl

theorem gains_define (hd : P d) : g.Gains P (g.define j d).1 :=
  gains_extend fun _ he => List.mem_singleton.mp he ▸ hd

/-! ## Scopes that are in no table -/

/-- A scope that is neither that of a file nor that of a package. -/
def IsInner (g : ScopeGraph) (i : Nat) : Prop :=
  i < g.size ∧ (∀ x ∈ g.files, x.2 ≠ i) ∧ ∀ x ∈ g.packages, x.2 ≠ i

theorem IsInner.gain (hi : g.IsInner i) (hgh : g.Gains P h) : h.IsInner i := by
  obtain ⟨hlt, hfiles, hpackages⟩ := hi
  refine ⟨Nat.lt_of_lt_of_le hlt hgh.size, fun x hx => ?_, fun x hx => ?_⟩
  · rcases hgh.files x hx with hx | hx
    · exact hfiles x hx
    · omega
  · rcases hgh.packages x hx with hx | hx
    · exact hpackages x hx
    · omega

end ScopeGraph

/-! ## What marks bind -/

namespace ScopeBuilder

open ScopeGraph

/-- The definition that a mark makes. -/
def boundDefinition (language : Language) (path : Path) (regions : List Region)
    (m : BindingMark) : Definition where
  name := boundName language path m
  kind := m.kind
  declaredType := m.declaredType
  importPath := if m.kind = .imported then m.path.or (m.name.map (·.text)) else m.path
  location := m.location
  opens := (regions.find? (·.span == m.span)).map (·.scope)

theorem boundName_of_none {language : Language} {path : Path} {m : BindingMark}
    (hkind : m.kind = .imported) (himported : m.path.or (m.name.map (·.text)) = none) :
    boundName language path m = "" := by
  obtain ⟨hpath, hname⟩ := Option.or_eq_none_iff.mp himported
  have hempty : Import.lastStep "" = "" ∧ Import.firstModule "" = "" ∧ Import.lastSegment "" = "" :=
    by decide +kernel
  rw [boundName, if_pos hkind, himported, importOf, hname]
  cases language with
  | go => exact hempty.1
  | python => exact hempty.2.1
  | rust | csharp => exact hempty.2.2

/-- A mark with a name makes a definition, which waits if it is an import. -/
theorem bind_eq (language : Language) (path : Path) (f : Nat) (regions : List Region)
    (b : ScopeBuilder) (m : BindingMark) : bind language path f regions b m =
      if boundName language path m = "" then b
      else
        let d := boundDefinition language path regions m
        let (graph, handle) := b.graph.define (placeIn regions f m.span true) d
        ⟨graph, if m.kind = .imported then
          b.imports ++ [⟨handle, language, importOf path m (d.importPath.getD "")⟩]
          else b.imports⟩ := by
  unfold bind boundDefinition
  dsimp only
  split_ifs with hname hkind
  · rfl
  · cases himported : m.path.or (m.name.map (·.text)) with
    | none => exact absurd (boundName_of_none hkind himported) hname
    | some text => rfl
  · cases m.path <;> rfl

end ScopeBuilder

/-! ## The imports of a file -/

/-- An import of a file, as its mark tells it. -/
structure ImportRecord where
  /-- The definition that the import makes; what it opens is left out. -/
  definition : Definition
  language : Language
  site : Import
  /-- Does a scope of the file cover the same bytes? -/
  opensOwn : Bool
deriving DecidableEq, Repr

/-- The import that a mark tells, if it is one that binds a name. -/
def BindingMark.importRecord? (language : Language) (path : Path) (scopes : List ScopeMark)
    (m : BindingMark) : Option ImportRecord :=
  let d := ScopeBuilder.boundDefinition language path [] m
  if d.kind = .imported ∧ d.name ≠ "" then
    some ⟨d, language, ScopeBuilder.importOf path m (d.importPath.getD ""),
      scopes.any (·.span == m.span)⟩
  else none

/-- The imports of a file. -/
def Addition.imports (a : Addition) : List ImportRecord :=
  if a.language.hasBindings then
    (BindingMark.arrange a.contents.bindings).filterMap
      (BindingMark.importRecord? a.language a.path a.contents.scopes)
  else []

namespace ScopeBuilder

open ScopeGraph

variable {g h : ScopeGraph} {b : ScopeBuilder} {p : PendingImport} {e : ImportRecord}
  {entries : List ImportRecord} {j f : Nat} {d : Definition} {P : Definition → Prop}

/-- An import that waits stands for an import of a file: its definition is that of the import, but
may open a scope of the file. -/
structure Records (g : ScopeGraph) (p : PendingImport) (e : ImportRecord) : Prop where
  language : p.language = e.language
  site : p.site = e.site
  kind : e.definition.kind = .imported
  closed : e.definition.opens = none
  file : g.fileOf p.definition.scope = some e.site.fromFile
  definition : ∃ own, g.definition? p.definition = some { e.definition with opens := own } ∧
    own.isSome = e.opensOwn ∧ ∀ i, own = some i → g.IsInner i

theorem lt_of_definition? {a : Handle} (ha : g.definition? a = some d) :
    a.scope < g.size ∧ a.index < (g.definitionsOf a.scope).length := by
  obtain ⟨s, hs, -⟩ := Option.bind_eq_some_iff.mp ha
  rw [definition?_eq] at ha
  exact ⟨lt_size hs, (List.getElem?_eq_some_iff.mp ha).1⟩

theorem Records.gain (hp : Records g p e) (hgh : g.Gains P h) : Records h p e := by
  obtain ⟨own, hown, hsome, hinner⟩ := hp.definition
  refine ⟨hp.language, hp.site, hp.kind, hp.closed, ?_, own, hgh.definition?_eq_some hown, hsome,
    fun i hi => (hinner i hi).gain hgh⟩
  rw [hgh.fileOf (lt_of_definition? hown).1, hp.file]

/-- The list of imports that wait: each stands for an import of a file, none waits twice, and there
are no other imports in the graph. -/
structure IsLedger (b : ScopeBuilder) (entries : List ImportRecord) : Prop where
  records : List.Forall₂ (Records b.graph) b.imports entries
  nodup : (b.imports.map (·.definition)).Nodup
  complete : ∀ a d, b.graph.definition? a = some d → d.kind = .imported →
    a ∈ b.imports.map (·.definition)

theorem exists_of_mem_forall₂ {α β : Type} {R : α → β → Prop} {l : List α} {l' : List β}
    (h : List.Forall₂ R l l') {x : α} (hx : x ∈ l) : ∃ y ∈ l', R x y := by
  induction h with
  | nil => exact absurd hx List.not_mem_nil
  | @cons a b l l' hab _ ih =>
    rcases List.mem_cons.mp hx with rfl | hx
    · exact ⟨b, List.mem_cons_self, hab⟩
    · obtain ⟨y, hy, hxy⟩ := ih hx
      exact ⟨y, List.mem_cons_of_mem _ hy, hxy⟩

theorem isLedger_empty : IsLedger ∅ [] where
  records := .nil
  nodup := List.nodup_nil
  complete a d ha := by
    obtain ⟨s, hs, -⟩ := Option.bind_eq_some_iff.mp ha
    exact absurd (lt_size hs) (Nat.not_lt_zero _)

namespace IsLedger

theorem gain (hb : IsLedger b entries) (hgain : b.graph.Gains (·.kind ≠ .imported) g) :
    IsLedger ⟨g, b.imports⟩ entries where
  records := hb.records.imp fun _ _ hp => hp.gain hgain
  nodup := hb.nodup
  complete a d ha hd := by
    rcases hgain.definition?_cases ha with ha | hne
    · exact hb.complete a d ha hd
    · exact absurd hd hne

theorem define (hb : IsLedger b entries) (hj : j < b.graph.size)
    (hp : p.definition = (b.graph.define j d).2) (hrecord : Records (b.graph.define j d).1 p e) :
    IsLedger ⟨(b.graph.define j d).1, b.imports ++ [p]⟩ (entries ++ [e]) where
  records := by
    have hgain : b.graph.Gains (fun _ => True) (b.graph.define j d).1 := gains_define trivial
    exact List.rel_append (hb.records.imp fun _ _ hq => hq.gain hgain) (.cons hrecord .nil)
  nodup := by
    rw [List.map_append, List.nodup_append]
    refine ⟨hb.nodup, List.nodup_singleton _, fun x hx y hy => ?_⟩
    -- the definitions that wait already are there, and the new one is not
    obtain ⟨q, hq, rfl⟩ := List.mem_map.mp hx
    rw [List.map_singleton, List.mem_singleton, hp, define_snd] at hy
    obtain ⟨c, -, hrecord⟩ := exists_of_mem_forall₂ hb.records hq
    obtain ⟨own, hown, -⟩ := hrecord.definition
    have hlt := (lt_of_definition? hown).2
    rintro heq
    rw [heq, hy] at hlt
    exact Nat.lt_irrefl _ hlt
  complete a c ha hc := by
    rw [List.map_append, List.mem_append, List.map_singleton, List.mem_singleton, hp, define_snd]
    rw [definition?_eq, definitionsOf_define hj, List.getElem?_append] at ha
    split_ifs at ha with hlt hscope
    · refine .inl (hb.complete a c ?_ hc)
      rw [definition?_eq, ha]
    · obtain ⟨scope, index⟩ := a
      obtain rfl : j = scope := hscope
      have hzero := (List.getElem?_eq_some_iff.mp ha).1
      rw [List.length_singleton] at hzero
      refine .inr ?_
      simp only [Handle.mk.injEq, true_and]
      simp only at hzero hlt
      omega
    · simp at ha

end IsLedger

/-! ## One file -/

theorem gains_addScopes (marks : List ScopeMark) : g.Gains P (addScopes g f marks).1 :=
  List.foldlRecOn (ScopeMark.arrange marks) (nest f) (b := ⟨g, [], []⟩)
    (motive := fun n => g.Gains P n.graph) (.refl P g) fun _ hn m _ =>
      hn.trans (gains_addScope m.kind _)

theorem gains_addUse (regions : List Region) (u : UseMark) : g.Gains P (addUse f regions g u) :=
  gains_modify (fun _ => rfl) (fun _ => rfl) fun _ => rfl

theorem isShared_iff : isShared d = true ↔ d.kind ≠ .imported ∧ d.kind ≠ .method := by
  rw [isShared, Bool.and_eq_true, decide_eq_true_iff, decide_eq_true_iff]

theorem gains_joinPackage (path : Path) :
    g.Gains (fun d => isShared d = true) (joinPackage g path f) := by
  rw [joinPackage_eq]
  refine ((gains_addPackage _).trans (gains_setParent _ _)).trans (gains_extend fun d hd => ?_)
  exact (List.mem_filter.mp hd).2

theorem isSome_find?_addScopes (hf : f < g.size) (marks : List ScopeMark) (q : Span) :
    ((addScopes g f marks).2.find? (·.span == q)).isSome = marks.any (·.span == q) := by
  rw [Bool.eq_iff_iff, List.find?_isSome, List.any_eq_true]
  constructor
  · rintro ⟨r, hr, hspan⟩
    rw [regions_addScopes hf] at hr
    obtain ⟨n, m, hm, rfl⟩ := mem_regionsFrom.mp hr
    exact ⟨m, ScopeMark.mem_arrange.mp (List.mem_of_getElem? hm), hspan⟩
  · rintro ⟨m, hm, hspan⟩
    obtain ⟨r, hr, heq, -⟩ := (mem_marks_iff hf).mp hm
    exact ⟨r, hr, by rw [heq, hspan]⟩

section Bind

variable (language : Language) {path : Path} {marks : List ScopeMark} {regions : List Region}
  (hg : g.IsTabled) (hf : f < g.size) (hpath : g.fileOf f = some path)
  (hregions : ∀ q, (regions.find? (·.span == q)).isSome = marks.any (·.span == q))

include hg hf hpath hregions

theorem records_define (hfilled : IsFilledWith g f regions b.graph) (m : BindingMark)
    (hkind : m.kind = .imported) :
    let d := boundDefinition language path regions m
    let site := importOf path m (d.importPath.getD "")
    Records (b.graph.define (placeIn regions f m.span true) d).1
      ⟨(b.graph.define (placeIn regions f m.span true) d).2, language, site⟩
      ⟨{ d with opens := none }, language, site, marks.any (·.span == m.span)⟩ := by
  intro d site
  have hplace := hfilled.placeIn_lt hf m.span true
  have hgain : b.graph.Gains (fun _ => True) (b.graph.define (placeIn regions f m.span true) d).1 :=
    gains_define trivial
  refine ⟨rfl, rfl, hkind, rfl, ?_, d.opens, ?_, ?_, fun i hi => ?_⟩
  · rw [define_snd, hgain.fileOf hplace,
      hfilled.toIsFilled.fileOf_own (hfilled.placeIn_own m.span true) hplace, hpath]
    rfl
  · rw [define_snd, definition?_eq, definitionsOf_define hplace, if_pos rfl]
    exact List.getElem?_concat_length
  · rw [← hregions m.span]
    exact Option.isSome_map
  · -- the regions of the file are new scopes, to which no table leads
    obtain ⟨r, hr, rfl⟩ := Option.map_eq_some_iff.mp hi
    have hmem := List.mem_of_find?_eq_some hr
    have hle := hfilled.regions_le r hmem
    refine IsInner.gain ⟨hfilled.regions_lt r hmem, fun x hx => ?_, fun x hx => ?_⟩ hgain
    · rw [hfilled.files] at hx
      have := hg.file_lt hx
      omega
    · rw [hfilled.packages] at hx
      have := hg.package_lt hx
      omega

theorem isLedger_bind (hfilled : IsFilledWith g f regions b.graph) (hb : IsLedger b entries)
    (m : BindingMark) : IsLedger (bind language path f regions b m)
      (entries ++ (m.importRecord? language path marks).toList) := by
  rw [bind_eq, BindingMark.importRecord?]
  by_cases hname : boundName language path m = ""
  · simpa [hname, boundDefinition] using hb
  · by_cases hkind : m.kind = .imported
    · have hrecord := records_define language hg hf hpath hregions hfilled m hkind
      have hadded := hb.define (hfilled.placeIn_lt hf m.span true) rfl hrecord
      simpa [hname, hkind, boundDefinition] using hadded
    · have hkept := hb.gain (gains_define (j := placeIn regions f m.span true)
        (d := boundDefinition language path regions m) hkind)
      simpa [hname, hkind, boundDefinition] using hkept

theorem isLedger_foldl_bind (hfilled : IsFilledWith g f regions b.graph) (hb : IsLedger b entries)
    (ms : List BindingMark) : IsLedger (ms.foldl (bind language path f regions) b)
      (entries ++ ms.filterMap (BindingMark.importRecord? language path marks)) := by
  induction ms generalizing b entries with
  | nil => simpa using hb
  | cons m ms ih =>
    have hadded := isLedger_bind language hg hf hpath hregions hfilled hb m
    have hrest := ih (hfilled.bind language path m) hadded
    rw [List.foldl_cons, List.filterMap_cons]
    cases hm : m.importRecord? language path marks with
    | none => simpa [hm] using hrest
    | some e => simpa [hm] using hrest

end Bind

theorem isLedger_fill {path : Path} (hg : b.graph.IsTabled) (hf : f < b.graph.size)
    (hpath : b.graph.fileOf f = some path) (hb : IsLedger b entries) (language : Language)
    (marks : Marks) : IsLedger (b.fill path language marks f)
      (entries ++ (BindingMark.arrange marks.bindings).filterMap
        (BindingMark.importRecord? language path marks.scopes)) := by
  have hscopes : IsLedger ⟨(addScopes b.graph f marks.scopes).1, b.imports⟩ entries :=
    hb.gain (gains_addScopes _)
  have hbound := isLedger_foldl_bind language hg hf hpath
    (isSome_find?_addScopes hf marks.scopes) (isFilledWith_addScopes hf marks.scopes) hscopes
    (BindingMark.arrange marks.bindings)
  refine hbound.gain ?_
  exact List.foldlRecOn _ _ (motive := Gains _ _) (.refl _ _) fun h hh u _ =>
    hh.trans (gains_addUse _ u)

/-- A file whose path is new adds its imports and nothing else that waits. -/
theorem isLedger_add (hg : b.graph.IsTabled) {a : Addition} (hnew : b.graph.file? a.path = none)
    (hb : IsLedger b entries) : IsLedger (b.add a) (entries ++ a.imports) := by
  have hf := addFile_snd_lt b.graph hg a.path
  have hadded : IsLedger (b.addEmpty a.path).1 entries := hb.gain (gains_addFile a.path)
  have hpath : (b.addEmpty a.path).1.graph.fileOf (b.addEmpty a.path).2 = some a.path := by
    change (b.graph.addFile a.path).1.fileOf (b.graph.addFile a.path).2 = _
    rw [addFile_of_new hnew, fileOf_eq_labelOf]
    change ((b.graph.push .file none (some a.path)).labelOf b.graph.size).bind (·.2) = _
    rw [labelOf_push, if_pos rfl]
    rfl
  have hfilled := isLedger_fill (hg.addFile a.path) hf hpath hadded a.language a.contents
  rw [add_eq, addMarks_eq, Addition.imports]
  split_ifs with hbindings hshares
  · exact hfilled.gain ((gains_joinPackage a.path).imp fun d hd => (isShared_iff.mp hd).1)
  · exact hfilled
  · simpa using hadded

/-- **All imports wait, and each waits once, after any files with different paths were added.** -/
theorem isLedger_run {additions : List Addition}
    (hdistinct : additions.Pairwise fun a b => a.path.same b.path = false) :
    IsLedger (run additions) (additions.flatMap (·.imports)) := by
  induction additions using List.reverseRecOn with
  | nil => exact isLedger_empty
  | append_singleton additions a ih =>
    have hbefore := (List.pairwise_append.mp hdistinct).1
    rw [run_append_singleton, List.flatMap_append, List.flatMap_singleton]
    exact isLedger_add (isTabled_run additions) (file?_eq_none (files_run hbefore) hdistinct)
      (ih hbefore)

end ScopeBuilder

end SourceAtlas
