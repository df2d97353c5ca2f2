import SourceAtlas.Proofs.Scope.Nesting
import SourceAtlas.Proofs.Scope.Sweep

/-!
# What a file adds

A file that is added to a graph fills its own scope and new ones. If its language has packages, it
is then moved below its package, where its definitions are made known. All other scopes stay as they
are.

* `ScopeGraph.definitionsOf`, `ScopeGraph.fileOf`: what is said about the inside of scopes;
* `ScopeGraph.IsFilled`: a graph in which one file has been filled;
* `ScopeBuilder.fill`, `ScopeBuilder.isFilled_fill`: the inside of a file;
* `ScopeBuilder.joinPackage_eq`: a file joins its package;
* `Addition.path`, `Addition.language`, `Addition.contents`: what is known of a file;
* **`ScopeBuilder.add_eq`**, **`ScopeBuilder.graph_add`**: all that adding a file does;
* `ScopeBuilder.isTabled_run`: the tables stay right.
-/

namespace SourceAtlas

namespace ScopeGraph

variable {g h : ScopeGraph} {f i j k p : Nat} {s : Scope} {d : Definition} {path : Path}
  {key : String}

/-! ## Views of the inside of scopes -/

/-- The definitions in the scope with a number. -/
def definitionsOf (g : ScopeGraph) (i : Nat) : List Definition :=
  ((g.scope? i).map (·.definitions)).getD []

/-- The file that the scope with a number lies in. -/
def fileOf (g : ScopeGraph) (i : Nat) : Option Path := (g.scope? i).bind (·.file)

theorem definitionsOf_eq (hs : g.scope? i = some s) : g.definitionsOf i = s.definitions := by
  rw [definitionsOf, hs]
  rfl

theorem fileOf_eq (hs : g.scope? i = some s) : g.fileOf i = s.file := by
  rw [fileOf, hs, Option.bind_some]

theorem definition?_eq (g : ScopeGraph) (a : Handle) :
    g.definition? a = (g.definitionsOf a.scope)[a.index]? := by
  rw [definition?, definitionsOf]
  cases g.scope? a.scope <;> rfl

theorem fileOf_eq_labelOf (g : ScopeGraph) (i : Nat) : g.fileOf i = (g.labelOf i).bind (·.2) := by
  rw [fileOf, labelOf]
  cases g.scope? i <;> rfl

theorem definitionsOf_size (g : ScopeGraph) : g.definitionsOf g.size = [] := by
  rw [definitionsOf, scope?_size]
  rfl

theorem definitionsOf_push (kind : ScopeKind) (parent : Option Nat) (file : Option Path) :
    (g.push kind parent file).definitionsOf i = g.definitionsOf i := by
  rw [definitionsOf, definitionsOf, scope?_push]
  split_ifs with hi
  · rw [hi, scope?_size]
    rfl
  · rfl

theorem definitionsOf_modify {t : Scope → Scope} (ht : ∀ s, (t s).definitions = s.definitions) :
    (g.modify j t).definitionsOf i = g.definitionsOf i := by
  rw [definitionsOf, definitionsOf, scope?_modify]
  split_ifs
  · cases g.scope? i <;> simp [ht]
  · rfl

theorem definitionsOf_addPackage (key : String) :
    (g.addPackage key).1.definitionsOf i = g.definitionsOf i := by
  unfold addPackage
  split
  · rfl
  · exact definitionsOf_push _ _ _

theorem definitionsOf_hold (c : Nat) :
    (g.modify j fun s => { s with children := s.children ++ [c] }).definitionsOf i =
      g.definitionsOf i :=
  definitionsOf_modify fun _ => rfl

theorem definitionsOf_detach (c : Nat) : (g.detach c).definitionsOf i = g.definitionsOf i := by
  unfold detach
  split
  · exact definitionsOf_modify fun _ => rfl
  · rfl

theorem definitionsOf_setParent (c p : Nat) :
    (g.setParent c p).definitionsOf i = g.definitionsOf i := by
  unfold setParent
  split_ifs
  · rfl
  · have hmoved : ((g.detach c).modify c fun s => { s with parent := some p }).definitionsOf i =
        (g.detach c).definitionsOf i := definitionsOf_modify fun _ => rfl
    rw [definitionsOf_hold, hmoved, definitionsOf_detach]

theorem definitionsOf_extend (hj : j < g.size) (ds : List Definition) :
    (g.modify j fun s => { s with definitions := s.definitions ++ ds }).definitionsOf i =
      g.definitionsOf i ++ if j = i then ds else [] := by
  rw [definitionsOf, definitionsOf, scope?_modify]
  split_ifs with hi
  · subst hi
    obtain ⟨s, hs⟩ := scope?_isSome hj
    simp [hs]
  · simp

theorem definitionsOf_define (hj : j < g.size) (d : Definition) :
    (g.define j d).1.definitionsOf i = g.definitionsOf i ++ if j = i then [d] else [] :=
  definitionsOf_extend hj [d]

theorem define_snd (g : ScopeGraph) (j : Nat) (d : Definition) :
    (g.define j d).2 = ⟨j, (g.definitionsOf j).length⟩ := by
  rw [define, definitionsOf]
  cases g.scope? j <;> rfl

theorem foldl_define (g : ScopeGraph) (j : Nat) (ds : List Definition) :
    ds.foldl (fun g d => (g.define j d).1) g =
      g.modify j fun s => { s with definitions := s.definitions ++ ds } := by
  induction ds generalizing g with
  | nil =>
    refine ext_scope? (fun i => ?_) rfl rfl
    rw [List.foldl_nil, scope?_modify]
    simp
  | cons d ds ih =>
    rw [List.foldl_cons, ih]
    refine ext_scope? (fun i => ?_) rfl rfl
    rw [define, scope?_modify, scope?_modify, scope?_modify]
    split_ifs
    · rw [Option.map_map]
      simp [Function.comp_def]
    · rfl

/-! ## Tables -/

theorem file?_addFile (path q : Path) : (g.addFile path).1.file? q =
    if path.same q then some (g.addFile path).2 else g.file? q := by
  have hcongr : path.same q = true → g.file? q = g.file? path := by
    intro hsame
    rw [Path.same_iff] at hsame
    simp only [file?, Path.same, hsame]
  unfold addFile
  cases hpath : g.file? path with
  | some n =>
    split_ifs with hsame
    · rw [hcongr hsame, hpath]
    · rfl
  | none =>
    rw [file?, push, List.find?_append]
    change Option.map _ (Option.or (g.files.find? _) _) = _
    by_cases hsame : path.same q = true
    · have hnone : g.files.find? (fun x => x.1.same q) = none := by
        have h := (hcongr hsame).trans hpath
        rwa [file?, Option.map_eq_none_iff] at h
      simp [hnone, hsame]
    · simp [hsame, file?]

theorem package?_addPackage (key q : String) : (g.addPackage key).1.package? q =
    if key = q then some (g.addPackage key).2 else g.package? q := by
  unfold addPackage
  cases hkey : g.package? key with
  | some n =>
    split_ifs with hsame
    · rw [← hsame, hkey]
    · rfl
  | none =>
    rw [package?, push, List.find?_append]
    change Option.map _ (Option.or (g.packages.find? _) _) = _
    by_cases hsame : key = q
    · subst hsame
      have hnone : g.packages.find? (fun x => x.1 == key) = none := by
        rwa [package?, Option.map_eq_none_iff] at hkey
      simp [hnone]
    · simp [hsame, package?]

theorem package?_addPackage_self (g : ScopeGraph) (key : String) :
    (g.addPackage key).1.package? key = some (g.addPackage key).2 := by
  rw [package?_addPackage, if_pos rfl]

theorem addFile_of_new (hnew : g.file? path = none) : g.addFile path =
    ({ g.push .file none (some path) with files := g.files ++ [(path, g.size)] }, g.size) := by
  rw [addFile, hnew]
  rfl

/-! ## Filled files -/

/-- The graph `h` is `g` with more in the file with the number `f`: its scope, and new scopes that
lie in it and in the same file. -/
structure IsFilled (g : ScopeGraph) (f : Nat) (h : ScopeGraph) : Prop where
  files : h.files = g.files
  packages : h.packages = g.packages
  size : g.size ≤ h.size
  other : ∀ i < g.size, i ≠ f → h.scope? i = g.scope? i
  parent : h.parentOf f = g.parentOf f
  label : h.labelOf f = g.labelOf f
  file : ∀ i, g.size ≤ i → i < h.size → h.fileOf i = g.fileOf f
  inner : ∀ i, g.size ≤ i → i < h.size →
    ∃ p, h.parentOf i = some p ∧ p < i ∧ (p = f ∨ g.size ≤ p)

namespace IsFilled

theorem refl (g : ScopeGraph) (f : Nat) : g.IsFilled f g where
  files := rfl
  packages := rfl
  size := Nat.le_refl _
  other _ _ _ := rfl
  parent := rfl
  label := rfl
  file _ hle hlt := absurd hlt (Nat.not_lt.mpr hle)
  inner _ hle hlt := absurd hlt (Nat.not_lt.mpr hle)

theorem fileOf_own (hh : g.IsFilled f h) (hi : i = f ∨ g.size ≤ i) (hlt : i < h.size) :
    h.fileOf i = g.fileOf f := by
  rcases hi with rfl | hi
  · rw [fileOf_eq_labelOf, fileOf_eq_labelOf, hh.label]
  · exact hh.file i hi hlt

theorem labelOf (hh : g.IsFilled f h) (hi : i < g.size) : h.labelOf i = g.labelOf i := by
  by_cases hif : i = f
  · rw [hif, hh.label]
  · rw [ScopeGraph.labelOf, ScopeGraph.labelOf, hh.other i hi hif]

theorem isTabled (hh : g.IsFilled f h) (hg : g.IsTabled) : h.IsTabled :=
  hg.keep hh.files hh.packages fun _ hi => hh.labelOf hi

/-- While a file is filled, it is found like before. -/
theorem file?_eq (hh : (g.addFile path).1.IsFilled f h) (q : Path) :
    h.file? q = if path.same q then some (g.addFile path).2 else g.file? q := by
  rw [← file?_addFile, file?, hh.files]
  rfl

theorem modify (hh : g.IsFilled f h) (hj : j = f ∨ g.size ≤ j) {t : Scope → Scope}
    (hparent : ∀ s, (t s).parent = s.parent) (hkind : ∀ s, (t s).kind = s.kind)
    (hfile : ∀ s, (t s).file = s.file) : g.IsFilled f (h.modify j t) where
  files := hh.files
  packages := hh.packages
  size := by
    rw [size_modify]
    exact hh.size
  other i hi hif := by
    rw [scope?_modify, if_neg (by omega)]
    exact hh.other i hi hif
  parent := by rw [parentOf_modify hparent, hh.parent]
  label := by rw [labelOf_modify hkind hfile, hh.label]
  file i hle hlt := by
    rw [size_modify] at hlt
    rw [fileOf_eq_labelOf, labelOf_modify hkind hfile, ← fileOf_eq_labelOf, hh.file i hle hlt]
  inner i hle hlt := by
    rw [size_modify] at hlt
    rw [parentOf_modify hparent]
    exact hh.inner i hle hlt

theorem addScope (hh : g.IsFilled f h) (hf : f < g.size) (hp : p = f ∨ g.size ≤ p)
    (hlt : p < h.size) (kind : ScopeKind) : g.IsFilled f (h.addScope kind p).1 := by
  obtain ⟨s, hs⟩ := scope?_isSome hlt
  have hfile : s.file = g.fileOf f := (fileOf_eq hs).symm.trans (hh.fileOf_own hp hlt)
  have hpush : g.IsFilled f (h.push kind (some p) s.file) := by
    refine ⟨hh.files, hh.packages, ?_, fun i hi hif => ?_, ?_, ?_, fun i hle hlt => ?_,
      fun i hle hlt => ?_⟩
    · rw [size_push]
      exact Nat.le_succ_of_le hh.size
    · have := hh.size
      rw [scope?_push, if_neg (by omega)]
      exact hh.other i hi hif
    · have := hh.size
      rw [parentOf_push, if_neg (by omega), hh.parent]
    · have := hh.size
      rw [labelOf_push, if_neg (by omega), hh.label]
    · rw [size_push] at hlt
      rw [fileOf_eq_labelOf, labelOf_push]
      split_ifs with hi
      · rw [Option.bind_some, hfile]
      · rw [← fileOf_eq_labelOf]
        exact hh.file i hle (by omega)
    · rw [size_push] at hlt
      rw [parentOf_push]
      split_ifs with hi
      · exact ⟨p, rfl, by omega, hp⟩
      · exact hh.inner i hle (by omega)
  have hadd : (h.addScope kind p).1 = (h.push kind (some p) s.file).modify p fun s =>
      { s with children := s.children ++ [h.size] } := by
    simp only [ScopeGraph.addScope, hs]
  rw [hadd]
  exact hpush.modify hp (fun _ => rfl) (fun _ => rfl) fun _ => rfl

end IsFilled

end ScopeGraph

/-! ## The inside of a file -/

theorem mem_of_innermost? {regions : List Region} {q : Span} {b : Bool} {r : Region}
    (h : innermost? regions q b = some r) : r ∈ regions := by
  refine List.foldlRecOn regions _ (motive := fun best => ∀ r, best = some r → r ∈ regions)
    (by simp) (fun best hbest s hs r hr => ?_) r h
  split_ifs at hr
  · exact hbest r hr
  · split at hr
    · cases hr
      exact hs
    · split_ifs at hr
      · cases hr
        exact hs
      · exact hbest r hr

theorem placeIn_cases (regions : List Region) (f : Nat) (q : Span) (b : Bool) :
    placeIn regions f q b = f ∨ ∃ r ∈ regions, placeIn regions f q b = r.scope := by
  unfold placeIn
  cases h : innermost? regions q b with
  | none => exact .inl rfl
  | some r => exact .inr ⟨r, mem_of_innermost? h, rfl⟩

namespace ScopeBuilder

open ScopeGraph

variable {g h : ScopeGraph} {b : ScopeBuilder} {f : Nat} {regions : List Region}

/-- Fills a file that has a scope with its marks. -/
def fill (b : ScopeBuilder) (path : Path) (language : Language) (marks : Marks) (f : Nat) :
    ScopeBuilder :=
  let (graph, regions) := addScopes b.graph f marks.scopes
  let b := (BindingMark.arrange marks.bindings).foldl (bind language path f regions)
    ⟨graph, b.imports⟩
  ⟨(UseMark.arrange marks.realUses).foldl (addUse f regions) b.graph, b.imports⟩

theorem addMarks_eq (b : ScopeBuilder) (path : Path) (language : Language) (marks : Marks) :
    (b.addMarks path language marks).1 =
      if language.hasBindings then
        let c := (b.addEmpty path).1.fill path language marks (b.addEmpty path).2
        ⟨if language.sharesPackage then joinPackage c.graph path (b.addEmpty path).2 else c.graph,
          c.imports⟩
      else (b.addEmpty path).1 := by
  unfold addMarks
  dsimp only
  split <;> rfl

/-- A graph in which a file has been filled, and regions whose scopes lie in it. -/
structure IsFilledWith (g : ScopeGraph) (f : Nat) (regions : List Region) (h : ScopeGraph) : Prop
    extends g.IsFilled f h where
  regions_le : ∀ r ∈ regions, g.size ≤ r.scope
  regions_lt : ∀ r ∈ regions, r.scope < h.size

theorem isFilledWith_addScopes (hf : f < g.size) (marks : List ScopeMark) :
    IsFilledWith g f (addScopes g f marks).2 (addScopes g f marks).1 := by
  have hall : ∀ ms : List ScopeMark, g.IsFilled f (ms.foldl (nest f) ⟨g, [], []⟩).graph := by
    intro ms
    induction ms using List.reverseRecOn with
    | nil => exact .refl g f
    | append_singleton ms m ih =>
      have hplaced := hasPlaced_foldl hf ms
      have hsub := hplaced.holders_subset m
      rw [List.foldl_append, List.foldl_cons, List.foldl_nil, nest_eq hplaced hf m]
      refine ih.addScope hf ?_ (hplaced.topScope_lt hf hsub) m.kind
      exact (hplaced.topScope_cases f hsub).imp id And.left
  have hsize := (hasPlaced_foldl hf (ScopeMark.arrange marks)).size
  rw [regions_addScopes hf]
  refine ⟨hall _, fun r hr => (scope_regionsFrom hr).1, fun r hr => ?_⟩
  change _ < ((ScopeMark.arrange marks).foldl (nest f) ⟨g, [], []⟩).graph.size
  rw [hsize]
  exact (scope_regionsFrom hr).2

namespace IsFilledWith

theorem placeIn_own (hh : IsFilledWith g f regions h) (q : Span) (b : Bool) :
    placeIn regions f q b = f ∨ g.size ≤ placeIn regions f q b := by
  refine (placeIn_cases regions f q b).imp id ?_
  rintro ⟨r, hr, hplace⟩
  rw [hplace]
  exact hh.regions_le r hr

theorem placeIn_lt (hh : IsFilledWith g f regions h) (hf : f < g.size) (q : Span) (b : Bool) :
    placeIn regions f q b < h.size := by
  rcases placeIn_cases regions f q b with hplace | ⟨r, hr, hplace⟩
  · rw [hplace]
    exact Nat.lt_of_lt_of_le hf hh.size
  · rw [hplace]
    exact hh.regions_lt r hr

theorem modify (hh : IsFilledWith g f regions h) (q : Span) (b : Bool) {t : Scope → Scope}
    (hparent : ∀ s, (t s).parent = s.parent) (hkind : ∀ s, (t s).kind = s.kind)
    (hfile : ∀ s, (t s).file = s.file) :
    IsFilledWith g f regions (h.modify (placeIn regions f q b) t) where
  toIsFilled := hh.toIsFilled.modify (hh.placeIn_own q b) hparent hkind hfile
  regions_le := hh.regions_le
  regions_lt r hr := by
    rw [size_modify]
    exact hh.regions_lt r hr

theorem addUse (hh : IsFilledWith g f regions h) (u : UseMark) :
    IsFilledWith g f regions (ScopeBuilder.addUse f regions h u) :=
  hh.modify _ _ (fun _ => rfl) (fun _ => rfl) fun _ => rfl

theorem bind (hb : IsFilledWith g f regions b.graph) (language : Language) (path : Path)
    (m : BindingMark) :
    IsFilledWith g f regions (ScopeBuilder.bind language path f regions b m).graph := by
  have hdefine : ∀ d, IsFilledWith g f regions
      (b.graph.define (placeIn regions f m.span true) d).1 := fun d =>
    hb.modify _ _ (fun _ => rfl) (fun _ => rfl) fun _ => rfl
  unfold ScopeBuilder.bind
  dsimp only
  split
  · exact hb
  · split
    · split
      · exact hdefine _
      · exact hdefine _
    · exact hdefine _

theorem foldl_bind (hb : IsFilledWith g f regions b.graph) (language : Language) (path : Path)
    (ms : List BindingMark) : IsFilledWith g f regions
      (ms.foldl (ScopeBuilder.bind language path f regions) b).graph := by
  induction ms generalizing b with
  | nil => exact hb
  | cons m ms ih => exact ih (hb.bind language path m)

end IsFilledWith

/-- Filling a file adds scopes for its regions, and what lies in them. -/
theorem isFilledWith_fill (hf : f < b.graph.size) (path : Path) (language : Language)
    (marks : Marks) : IsFilledWith b.graph f (addScopes b.graph f marks.scopes).2
      (b.fill path language marks f).graph := by
  have hbound := IsFilledWith.foldl_bind (b := ⟨(addScopes b.graph f marks.scopes).1, b.imports⟩)
    (isFilledWith_addScopes hf marks.scopes) language path (BindingMark.arrange marks.bindings)
  exact List.foldlRecOn (UseMark.arrange marks.realUses)
    (addUse f (addScopes b.graph f marks.scopes).2)
    (motive := IsFilledWith b.graph f (addScopes b.graph f marks.scopes).2) hbound
    fun h hh u _ => hh.addUse u

/-- **Filling a file changes nothing outside of it.** -/
theorem isFilled_fill (hf : f < b.graph.size) (path : Path) (language : Language) (marks : Marks) :
    b.graph.IsFilled f (b.fill path language marks f).graph :=
  (isFilledWith_fill hf path language marks).toIsFilled

/-! ## Packages -/

/-- A file lies below its package, which has its shared definitions after all others. -/
theorem joinPackage_eq (g : ScopeGraph) (path : Path) (f : Nat) : joinPackage g path f =
    (((g.addPackage path.packageKey).1.setParent f (g.addPackage path.packageKey).2).modify
      (g.addPackage path.packageKey).2
      fun s => { s with definitions := s.definitions ++ (g.definitionsOf f).filter isShared }) := by
  unfold joinPackage
  dsimp only
  rw [foldl_define]
  have hshared : ((((g.addPackage path.packageKey).1.setParent f
      (g.addPackage path.packageKey).2).scope? f).map
        (·.definitions.filter isShared)).getD [] = (g.definitionsOf f).filter isShared := by
    have h : (((g.addPackage path.packageKey).1.setParent f
        (g.addPackage path.packageKey).2).definitionsOf f) = g.definitionsOf f := by
      rw [definitionsOf_setParent, definitionsOf_addPackage]
    rw [← h, definitionsOf]
    cases ((g.addPackage path.packageKey).1.setParent f (g.addPackage path.packageKey).2).scope? f
      <;> rfl
  rw [hshared]

end ScopeBuilder

/-! ## Additions -/

namespace Addition

/-- The path of an added file. -/
def path : Addition → Path
  | .empty path | .source path _ _ | .marks path _ _ => path

/-- The language of an added file. A file about whose inside nothing is known is like one of a
language whose scopes cannot be told. -/
def language : Addition → Language
  | .empty _ => .csharp
  | .source _ language _ | .marks _ language _ => language

/-- The marks of an added file. -/
def contents : Addition → Marks
  | .empty _ => ⟨[], [], []⟩
  | .source path language content => .ofTree language path content (language.parse content)
  | .marks _ _ found => found

end Addition

namespace ScopeBuilder

open ScopeGraph

theorem add_eq (b : ScopeBuilder) (a : Addition) :
    b.add a = (b.addMarks a.path a.language a.contents).1 := by
  cases a with
  | empty path => rfl
  | marks path language marks => rfl
  | source path language content =>
    change (b.addSource path language content).1 = _
    unfold addSource
    split_ifs with hbindings
    · rfl
    · rw [addMarks_eq, Addition.language, if_neg hbindings]
      rfl

theorem sharesPackage_imp {language : Language} (h : language.sharesPackage = true) :
    language.hasBindings = true := by
  cases language <;> simp_all [Language.sharesPackage, Language.hasBindings]

theorem addFile_snd_lt (g : ScopeGraph) (hg : g.IsTabled) (path : Path) :
    (g.addFile path).2 < (g.addFile path).1.size := by
  unfold ScopeGraph.addFile
  cases hfile : g.file? path with
  | none =>
    change g.size < (g.push _ _ _).size
    rw [size_push]
    exact Nat.lt_succ_self _
  | some n =>
    obtain ⟨q, hq, -⟩ := hg.file?_eq_some_iff.mp hfile
    exact hg.file_lt hq

/-- **Adding a file fills its scope and may move it below its package.** -/
theorem graph_add (b : ScopeBuilder) (hb : b.graph.IsTabled) (a : Addition) :
    ∃ h, (b.graph.addFile a.path).1.IsFilled (b.graph.addFile a.path).2 h ∧
      (b.add a).graph = if a.language.sharesPackage then
        joinPackage h a.path (b.graph.addFile a.path).2 else h := by
  have hf := addFile_snd_lt b.graph hb a.path
  rw [add_eq, addMarks_eq]
  split_ifs with hbindings hshares hshares
  · exact ⟨_, isFilled_fill (b := (b.addEmpty a.path).1) hf a.path a.language a.contents, rfl⟩
  · exact ⟨_, isFilled_fill (b := (b.addEmpty a.path).1) hf a.path a.language a.contents, rfl⟩
  · exact absurd (sharesPackage_imp hshares) hbindings
  · exact ⟨_, .refl _ _, rfl⟩

theorem isTabled_joinPackage {g : ScopeGraph} (hg : g.IsTabled) (path : Path) (f : Nat) :
    (joinPackage g path f).IsTabled := by
  rw [joinPackage_eq]
  exact ((hg.addPackage _).setParent _ _).modify (fun _ => rfl) fun _ => rfl

theorem isTabled_add {b : ScopeBuilder} (hb : b.graph.IsTabled) (a : Addition) :
    (b.add a).graph.IsTabled := by
  obtain ⟨h, hfilled, hgraph⟩ := graph_add b hb a
  have hh := hfilled.isTabled (hb.addFile a.path)
  rw [hgraph]
  split_ifs
  · exact isTabled_joinPackage hh _ _
  · exact hh

theorem isTabled_run (additions : List Addition) : (run additions).graph.IsTabled :=
  List.foldlRecOn additions add (b := ∅) (motive := fun b => b.graph.IsTabled) isTabled_empty
    fun _ hb a _ => isTabled_add hb a

theorem run_append_singleton (additions : List Addition) (a : Addition) :
    run (additions ++ [a]) = (run additions).add a := by
  rw [run, List.foldl_append]
  rfl

theorem files_addPackage (g : ScopeGraph) (key : String) :
    (g.addPackage key).1.files = g.files := by
  unfold ScopeGraph.addPackage
  split <;> rfl

theorem packages_addFile (g : ScopeGraph) (path : Path) :
    (g.addFile path).1.packages = g.packages := by
  unfold ScopeGraph.addFile
  split <;> rfl

theorem files_joinPackage (g : ScopeGraph) (path : Path) (f : Nat) :
    (joinPackage g path f).files = g.files := by
  rw [joinPackage_eq]
  exact (tables_setParent _ _).1.trans (files_addPackage g _)

theorem packages_joinPackage (g : ScopeGraph) (path : Path) (f : Nat) :
    (joinPackage g path f).packages = (g.addPackage path.packageKey).1.packages := by
  rw [joinPackage_eq]
  exact (tables_setParent _ _).2

theorem files_add {b : ScopeBuilder} (hb : b.graph.IsTabled) (a : Addition) :
    (b.add a).graph.files = (b.graph.addFile a.path).1.files := by
  obtain ⟨h, hfilled, hgraph⟩ := graph_add b hb a
  rw [hgraph]
  split_ifs
  · rw [files_joinPackage, hfilled.files]
  · exact hfilled.files

theorem file?_eq_none {g : ScopeGraph} {additions : List Addition} {a : Addition}
    (hfiles : g.files.map (·.1) = additions.map (·.path))
    (hdistinct : (additions ++ [a]).Pairwise fun a b => a.path.same b.path = false) :
    g.file? a.path = none := by
  rw [List.pairwise_append] at hdistinct
  obtain ⟨-, -, hlast⟩ := hdistinct
  rw [ScopeGraph.file?, Option.map_eq_none_iff, List.find?_eq_none]
  intro x hx
  have hmem : x.1 ∈ additions.map (·.path) := hfiles ▸ List.mem_map_of_mem hx
  obtain ⟨c, hc, hpath⟩ := List.mem_map.mp hmem
  simp [← hpath, hlast c hc a (List.mem_singleton_self a)]

theorem files_run {additions : List Addition}
    (hdistinct : additions.Pairwise fun a b => a.path.same b.path = false) :
    (run additions).graph.files.map (·.1) = additions.map (·.path) := by
  induction additions using List.reverseRecOn with
  | nil => rfl
  | append_singleton additions a ih =>
    have hfiles := ih (List.pairwise_append.mp hdistinct).1
    rw [run_append_singleton, files_add (isTabled_run additions),
      addFile_of_new (file?_eq_none hfiles hdistinct), List.map_append, List.map_append, hfiles]
    rfl

theorem isSome_package?_run (additions : List Addition) (key : String) :
    ((run additions).graph.package? key).isSome = true ↔
      ∃ a ∈ additions, a.language.sharesPackage = true ∧ a.path.packageKey = key := by
  induction additions using List.reverseRecOn with
  | nil =>
    rw [Operation.isSome_package?_iff]
    constructor
    · rintro ⟨x, hx, -⟩
      exact absurd hx List.not_mem_nil
    · rintro ⟨a, ha, -⟩
      exact absurd ha List.not_mem_nil
  | append_singleton additions a ih =>
    obtain ⟨h, hfilled, hgraph⟩ := graph_add (run additions) (isTabled_run additions) a
    have hpackages : h.packages = (run additions).graph.packages :=
      hfilled.packages.trans (packages_addFile _ _)
    have hkept : h.package? key = (run additions).graph.package? key := by
      rw [package?, package?, hpackages]
    rw [run_append_singleton, hgraph]
    by_cases hshares : a.language.sharesPackage = true
    · have hjoined : (joinPackage h a.path ((run additions).graph.addFile a.path).2).package? key =
          (h.addPackage a.path.packageKey).1.package? key := by
        rw [package?, package?, packages_joinPackage]
      rw [if_pos hshares, hjoined, Operation.isSome_package?_addPackage, hkept, ih]
      simp [or_and_right, exists_or, hshares]
    · rw [if_neg hshares, hkept, ih]
      simp [or_and_right, exists_or, hshares]

end ScopeBuilder

end SourceAtlas
