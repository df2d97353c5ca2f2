import SourceAtlas.Proofs.Scope.Ledger

/-!
# Linking imports

When all files are added, the imports that wait are linked one after the other. Each of them changes
what one definition opens and nothing else, and as no import waits twice, none sees what the others
did.

* `Definition.shut`, `ScopeGraph.Reopens`: a graph in which only other scopes are opened;
* **`ScopeBuilder.reopens_finish`**: a finished graph is such a graph;
* `ScopeBuilder.opening?`, **`ScopeBuilder.definition?_finish`**: what the definitions of a finished
  graph open;
* **`ScopeBuilder.filter_isShared_finish`**: what the files of a package share stays the same.
-/

namespace SourceAtlas

/-- A definition without what it opens. -/
def Definition.shut (d : Definition) : Definition := { d with opens := none }

namespace ScopeGraph

variable {g h k : ScopeGraph} {i j : Nat} {a c : Handle}

/-! ## What is kept -/

/-- The graph `h` is `g` with other scopes opened by definitions and other meanings of uses. -/
structure Reopens (g h : ScopeGraph) : Prop where
  files : h.files = g.files
  packages : h.packages = g.packages
  label : ∀ i, h.labelOf i = g.labelOf i
  parent : ∀ i, h.parentOf i = g.parentOf i
  children : ∀ i, h.childrenOf i = g.childrenOf i
  definitions : ∀ i, (h.definitionsOf i).map (·.shut) = (g.definitionsOf i).map (·.shut)

namespace Reopens

theorem refl (g : ScopeGraph) : g.Reopens g :=
  ⟨rfl, rfl, fun _ => rfl, fun _ => rfl, fun _ => rfl, fun _ => rfl⟩

theorem trans (hgh : g.Reopens h) (hhk : h.Reopens k) : g.Reopens k where
  files := hhk.files.trans hgh.files
  packages := hhk.packages.trans hgh.packages
  label i := (hhk.label i).trans (hgh.label i)
  parent i := (hhk.parent i).trans (hgh.parent i)
  children i := (hhk.children i).trans (hgh.children i)
  definitions i := (hhk.definitions i).trans (hgh.definitions i)

theorem fileOf (hgh : g.Reopens h) (i : Nat) : h.fileOf i = g.fileOf i := by
  rw [fileOf_eq_labelOf, fileOf_eq_labelOf, hgh.label]

theorem isTabled (hgh : g.Reopens h) (hg : g.IsTabled) : h.IsTabled :=
  hg.keep hgh.files hgh.packages fun i _ => hgh.label i

theorem forall_kind (hgh : g.Reopens h) {P : DefinitionKind → Prop}
    (hg : ∀ d ∈ g.definitionsOf i, P d.kind) : ∀ d ∈ h.definitionsOf i, P d.kind := by
  intro d hd
  have hmem : d.shut ∈ (g.definitionsOf i).map (·.shut) := by
    rw [← hgh.definitions]
    exact List.mem_map_of_mem hd
  obtain ⟨e, he, heq⟩ := List.mem_map.mp hmem
  have hkind : e.shut.kind = d.shut.kind := by rw [heq]
  exact (show e.kind = d.kind from hkind) ▸ hg e he

end Reopens

theorem shut_modify_opens (ds : List Definition) (n i : Nat) :
    (ds.modify n fun d => { d with opens := some i }).map (·.shut) = ds.map (·.shut) := by
  refine List.ext_getElem? fun m => ?_
  rw [List.getElem?_map, List.getElem?_map, List.getElem?_modify]
  split_ifs
  · cases ds[m]? <;> rfl
  · cases ds[m]? <;> rfl

theorem reopens_setOpened (g : ScopeGraph) (a : Handle) (i : Nat) :
    g.Reopens (g.setOpened a i) where
  files := rfl
  packages := rfl
  label _ := labelOf_modify (fun _ => rfl) fun _ => rfl
  parent _ := parentOf_modify fun _ => rfl
  children _ := childrenOf_modify fun _ => rfl
  definitions j := by
    rw [definitionsOf, definitionsOf, setOpened, scope?_modify]
    split_ifs
    · cases g.scope? j with
      | none => rfl
      | some s => exact shut_modify_opens s.definitions a.index i
    · rfl

theorem reopens_resolve (g : ScopeGraph) : g.Reopens g.resolve := by
  refine ⟨rfl, rfl, fun i => ?_, fun i => ?_, fun i => ?_, fun i => ?_⟩
  · rw [labelOf, labelOf, scope?_resolve]
    cases g.scope? i <;> rfl
  · rw [parentOf, parentOf, scope?_resolve]
    cases g.scope? i <;> rfl
  · rw [childrenOf, childrenOf, scope?_resolve]
    cases g.scope? i <;> rfl
  · rw [definitionsOf, definitionsOf, scope?_resolve]
    cases g.scope? i <;> rfl

/-! ## What is opened -/

theorem definition?_setOpened (g : ScopeGraph) (a c : Handle) (i : Nat) :
    (g.setOpened a i).definition? c = (g.definition? c).map fun d =>
      if a = c then { d with opens := some i } else d := by
  obtain ⟨scope, index⟩ := a
  obtain ⟨scope', index'⟩ := c
  rw [setOpened, definition?, definition?, scope?_modify]
  dsimp only
  by_cases hscope : scope = scope'
  · subst hscope
    cases g.scope? scope with
    | none => simp
    | some s =>
      simp only [Option.map_some, Option.bind_some, if_true, List.getElem?_modify]
      by_cases hindex : index = index'
      · subst hindex
        cases s.definitions[index]? <;> simp
      · simp [hindex]
  · simp [hscope]

end ScopeGraph

namespace ScopeBuilder

open ScopeGraph

variable {g h : ScopeGraph} {b : ScopeBuilder} {entries : List ImportRecord} {a : Handle} {i : Nat}

theorem target?_congr (hfiles : h.files = g.files) (hpackages : h.packages = g.packages)
    (link : ImportLink) : target? h link = target? g link := by
  cases link with
  | package path => simp only [target?, packageFor?, sortedPackages, hpackages]
  | files candidates =>
    have hfile : h.file? = g.file? := by
      funext path
      rw [file?, file?, hfiles]
    simp only [target?, hfile]
  | unlinked => rfl

theorem reopens_linkImport (g : ScopeGraph) (p : PendingImport) : g.Reopens (linkImport g p) := by
  unfold linkImport
  split
  · exact reopens_setOpened g _ _
  · exact .refl g

theorem reopens_foldl_linkImport (ps : List PendingImport) (g : ScopeGraph) :
    g.Reopens (ps.foldl linkImport g) :=
  List.foldlRecOn ps linkImport (motive := g.Reopens) (.refl g) fun h hh p _ =>
    hh.trans (reopens_linkImport h p)

/-- **Finishing a graph changes only what definitions open and what uses mean.** -/
theorem reopens_finish (b : ScopeBuilder) : b.graph.Reopens b.finish :=
  (reopens_foldl_linkImport b.imports b.graph).trans (reopens_resolve _)

theorem definition?_linkImport (g : ScopeGraph) (p : PendingImport) (a : Handle) :
    (linkImport g p).definition? a = (g.definition? a).map fun d =>
      if p.definition = a then { d with opens := (target? g (p.site.link p.language)).or d.opens }
      else d := by
  unfold linkImport
  cases target? g (p.site.link p.language) with
  | some i => exact definition?_setOpened g p.definition a i
  | none => simp

/-- The scope that a definition opens when it waits in a list of imports. -/
def openingIn? (g : ScopeGraph) (ps : List PendingImport) (a : Handle) : Option Nat :=
  (ps.find? (·.definition = a)).bind fun p => target? g (p.site.link p.language)

/-- Imports that wait once each do not see each other. -/
theorem definition?_foldl_linkImport {ps : List PendingImport}
    (hps : (ps.map (·.definition)).Nodup) (g : ScopeGraph) (a : Handle) :
    (ps.foldl linkImport g).definition? a = (g.definition? a).map fun d =>
      { d with opens := (openingIn? g ps a).or d.opens } := by
  induction ps generalizing g with
  | nil => simp [openingIn?]
  | cons p ps ih =>
    rw [List.map_cons, List.nodup_cons] at hps
    have hkept := reopens_linkImport g p
    have hrest : openingIn? (linkImport g p) ps a = openingIn? g ps a := by
      simp only [openingIn?, target?_congr hkept.files hkept.packages]
    rw [List.foldl_cons, ih hps.2, definition?_linkImport, Option.map_map, hrest]
    congr 1
    funext d
    rw [openingIn?, openingIn?, List.find?_cons]
    by_cases hp : p.definition = a
    · -- no later import has the same definition
      have hnone : ps.find? (·.definition = a) = none := by
        rw [List.find?_eq_none]
        intro q hq heq
        exact hps.1 (List.mem_map.mpr ⟨q, hq, (of_decide_eq_true heq).trans hp.symm⟩)
      simp [hp, hnone]
    · simp [hp]

/-- The scope that a definition opens when all imports are linked. -/
def opening? (b : ScopeBuilder) (a : Handle) : Option Nat := openingIn? b.graph b.imports a

/-- **A definition of a finished graph opens what it leads to as an import, or else what it opened
before.** -/
theorem definition?_finish (hb : IsLedger b entries) (a : Handle) :
    b.finish.definition? a = (b.graph.definition? a).map fun d =>
      { d with opens := (b.opening? a).or d.opens } := by
  rw [finish, (bindsAlike_resolve _).definition?]
  exact definition?_foldl_linkImport hb.nodup b.graph a

theorem opening?_of_mem (hb : IsLedger b entries) {p : PendingImport} (hp : p ∈ b.imports) :
    b.opening? p.definition = target? b.graph (p.site.link p.language) := by
  obtain ⟨q, hq⟩ : ∃ q, b.imports.find? (·.definition = p.definition) = some q := by
    rw [← Option.isSome_iff_exists, List.find?_isSome]
    exact ⟨p, hp, decide_eq_true rfl⟩
  have heq : q.definition = p.definition := by simpa using List.find?_some hq
  have hqp := List.inj_on_of_nodup_map hb.nodup (List.mem_of_find?_eq_some hq) hp heq
  rw [opening?, openingIn?, hq, Option.bind_some, hqp]

theorem opening?_of_kind (hb : IsLedger b entries) {d : Definition}
    (ha : b.graph.definition? a = some d) (hd : d.kind ≠ .imported) : b.opening? a = none := by
  rw [opening?, openingIn?, Option.bind_eq_none_iff]
  intro p hp
  obtain ⟨e, -, hrecord⟩ := exists_of_mem_forall₂ hb.records (List.mem_of_find?_eq_some hp)
  obtain ⟨own, hown, -⟩ := hrecord.definition
  have heq : p.definition = a := by simpa using List.find?_some hp
  rw [heq, ha] at hown
  exact absurd ((congrArg Definition.kind (Option.some.inj hown)).trans hrecord.kind) hd

/-! ## What is shared -/

theorem filter_eq_filter {α : Type} {p : α → Bool} {l l' : List α}
    (h : List.Forall₂ (fun x y => y = x ∨ p x = false ∧ p y = false) l l') :
    l'.filter p = l.filter p := by
  induction h with
  | nil => rfl
  | cons hxy _ ih =>
    rcases hxy with rfl | ⟨hx, hy⟩
    · rw [List.filter_cons, List.filter_cons, ih]
    · rw [List.filter_cons_of_neg (by rw [hy]; exact Bool.false_ne_true),
        List.filter_cons_of_neg (by rw [hx]; exact Bool.false_ne_true), ih]

theorem isShared_of_imported {d : Definition} (hd : d.kind = .imported) : isShared d = false := by
  rw [isShared, hd]
  rfl

/-- **Linking changes nothing about what the files of a package share.** -/
theorem filter_isShared_finish (hb : IsLedger b entries) (i : Nat) :
    (b.finish.definitionsOf i).filter isShared = (b.graph.definitionsOf i).filter isShared := by
  have hlength : (b.graph.definitionsOf i).length = (b.finish.definitionsOf i).length := by
    have h := congrArg List.length ((reopens_finish b).definitions i)
    rw [List.length_map, List.length_map] at h
    exact h.symm
  refine filter_eq_filter (List.forall₂_iff_get.mpr ⟨hlength, fun n hn hn' => ?_⟩)
  have hbefore : b.graph.definition? ⟨i, n⟩ = some ((b.graph.definitionsOf i).get ⟨n, hn⟩) := by
    rw [definition?_eq]
    exact List.getElem?_eq_getElem hn
  have hafter : b.finish.definition? ⟨i, n⟩ = some ((b.finish.definitionsOf i).get ⟨n, hn'⟩) := by
    rw [definition?_eq]
    exact List.getElem?_eq_getElem hn'
  have hlinked := definition?_finish hb ⟨i, n⟩
  rw [hbefore, hafter, Option.map_some, Option.some.injEq] at hlinked
  rw [hlinked]
  by_cases hkind : ((b.graph.definitionsOf i).get ⟨n, hn⟩).kind = .imported
  · exact .inr ⟨isShared_of_imported hkind, isShared_of_imported hkind⟩
  · rw [opening?_of_kind hb hbefore hkind]
    exact .inl rfl

/-- All that is in a scope stays the same if all of it is shared. -/
theorem definitionsOf_finish (hb : IsLedger b entries)
    (hshared : ∀ d ∈ b.graph.definitionsOf i, isShared d = true) :
    b.finish.definitionsOf i = b.graph.definitionsOf i := by
  have hkinds : ∀ d ∈ b.finish.definitionsOf i, d.kind ≠ .imported ∧ d.kind ≠ .method :=
    (reopens_finish b).forall_kind (P := fun k => k ≠ .imported ∧ k ≠ .method) fun d hd =>
      isShared_iff.mp (hshared d hd)
  calc b.finish.definitionsOf i
      = (b.finish.definitionsOf i).filter isShared :=
        (List.filter_eq_self.mpr fun d hd => isShared_iff.mpr (hkinds d hd)).symm
    _ = (b.graph.definitionsOf i).filter isShared := filter_isShared_finish hb i
    _ = b.graph.definitionsOf i := List.filter_eq_self.mpr hshared

end ScopeBuilder

end SourceAtlas
