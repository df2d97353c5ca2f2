import SourceAtlas.Proofs.Scope.Linking
import SourceAtlas.Proofs.Scope.Lookup

/-!
# What packages share

A package makes known what its files share, which are neither imports nor methods. A plain name is
looked up in the package last, so a method is never found in another file. It is found in its own
file, whose scope holds it like any other definition.

* `ScopeGraph.SharesOnly`: outside of files there is only what files share;
* `ScopeBuilder.sharesOnly_run`, `ScopeBuilder.sharesOnly_finish`: this always holds;
* `ScopeGraph.IsPlaced.file_of_chain`: the scopes around a scope lie in its file or in none;
* **`ScopeBuilder.method_of_plainUse`**: where a plain use may reach a method.
-/

namespace SourceAtlas

namespace ScopeGraph

open ScopeBuilder (isShared)

variable {g h : ScopeGraph} {f i : Nat} {d : Definition} {s : Scope} {chain : List Scope}

/-- Outside of files there are only definitions that files share. -/
def SharesOnly (g : ScopeGraph) : Prop :=
  ∀ i, g.fileOf i = none → ∀ d ∈ g.definitionsOf i, isShared d = true

theorem lt_of_mem_definitionsOf (hd : d ∈ g.definitionsOf i) : i < g.size := by
  cases hs : g.scope? i with
  | none => simp [definitionsOf, hs] at hd
  | some s => exact lt_size hs

namespace SharesOnly

theorem gain (hg : g.SharesOnly) (hgh : g.Gains (fun d => isShared d = true) h) :
    h.SharesOnly := by
  intro i hfile d hd
  obtain ⟨ds, hds, hshared⟩ := hgh.definitions i
  rw [hds] at hd
  rcases List.mem_append.mp hd with hd | hd
  · rw [hgh.fileOf (lt_of_mem_definitionsOf hd)] at hfile
    exact hg i hfile d hd
  · exact hshared d hd

theorem fill (hg : g.SharesOnly) (hh : g.IsFilled f h) (hf : (g.fileOf f).isSome = true) :
    h.SharesOnly := by
  intro i hfile d hd
  have hlt := lt_of_mem_definitionsOf hd
  by_cases hown : i = f ∨ g.size ≤ i
  · rw [hh.fileOf_own hown hlt] at hfile
    simp [hfile] at hf
  · obtain ⟨hne, hlt'⟩ : i ≠ f ∧ i < g.size := by omega
    have hsame := hh.other i hlt' hne
    rw [fileOf, hsame] at hfile
    rw [definitionsOf, hsame] at hd
    exact hg i hfile d hd

end SharesOnly

theorem IsTabled.isSome_fileOf_addFile (hg : g.IsTabled) (path : Path) :
    ((g.addFile path).1.fileOf (g.addFile path).2).isSome = true := by
  have hfound : (g.addFile path).1.file? path = some (g.addFile path).2 := by
    rw [file?_addFile, if_pos (Path.same_iff.mpr rfl)]
  obtain ⟨q, hq, -⟩ := (hg.addFile path).file?_eq_some_iff.mp hfound
  rw [fileOf_eq_labelOf, (hg.addFile path).label_file _ hq]
  rfl

/-! ## The scopes around a scope -/

theorem Chain.scope?_id (hid : ∀ i s, g.scope? i = some s → s.id = i) (h : g.Chain i chain) :
    ∀ t ∈ chain, g.scope? t.id = some t := by
  induction h with
  | @root i s hs _ =>
    intro t ht
    rw [List.mem_singleton.mp ht, hid i s hs, hs]
  | @step i p s chain hs _ _ ih =>
    intro t ht
    rcases List.mem_cons.mp ht with rfl | ht
    · rw [hid i t hs, hs]
    · exact ih t ht

/-- The scopes around a scope lie in its file, or they are packages and lie in no file. -/
theorem IsPlaced.file_of_chain (hg : g.IsPlaced) (h : g.Chain i chain) (hs : g.scope? i = some s) :
    ∀ t ∈ chain, t.file = none ∨ t.file = s.file := by
  induction h generalizing s with
  | @root i r hr _ =>
    intro t ht
    rw [hs] at hr
    rw [List.mem_singleton.mp ht, ← Option.some.inj hr]
    exact .inr rfl
  | @step i p r chain hr hparent hchain ih =>
    rw [hs] at hr
    obtain rfl := Option.some.inj hr
    intro t ht
    rcases List.mem_cons.mp ht with rfl | ht
    · exact .inr rfl
    · cases hg.place i s hs with
      | package hpackage =>
        rw [hpackage.2.1] at hparent
        cases hparent
      | file _ _ hpackages =>
        -- a file lies in a package, around which there is nothing
        obtain ⟨u, hu, hpackage⟩ := hpackages p hparent
        rcases ih hu t ht with hnone | hsame
        · exact .inl hnone
        · exact .inl (hsame.trans hpackage.2.2)
      | @inner q u hparent' _ hu hsame _ =>
        obtain rfl : q = p := Option.some.inj (hparent'.symm.trans hparent)
        rcases ih hu t ht with hnone | hfile
        · exact .inl hnone
        · exact .inr (hfile.trans hsame.symm)

end ScopeGraph

/-! ## Any number of files -/

namespace ScopeBuilder

open ScopeGraph

theorem sharesOnly_run (additions : List Addition) : (run additions).graph.SharesOnly := by
  induction additions using List.reverseRecOn with
  | nil => exact fun i _ d hd => absurd (lt_of_mem_definitionsOf hd) (Nat.not_lt_zero i)
  | append_singleton additions a ih =>
    have htabled := isTabled_run additions
    obtain ⟨h, hfilled, hgraph⟩ := graph_add (run additions) htabled a
    have hh : h.SharesOnly :=
      (ih.gain (gains_addFile a.path)).fill hfilled (htabled.isSome_fileOf_addFile a.path)
    rw [run_append_singleton, hgraph]
    split_ifs
    · exact hh.gain (gains_joinPackage a.path)
    · exact hh

theorem sharesOnly_finish (additions : List Addition) : (run additions).finish.SharesOnly := by
  have hkept := reopens_finish (run additions)
  intro i hfile d hd
  rw [hkept.fileOf] at hfile
  refine isShared_iff.mpr (hkept.forall_kind (P := fun k => k ≠ .imported ∧ k ≠ .method) ?_ d hd)
  exact fun e he => isShared_iff.mp (sharesOnly_run additions i hfile e he)

theorem isPlaced_finish (additions : List Addition) : (run additions).finish.IsPlaced :=
  isPlaced_resolve (isPlaced_linked (isPlaced_run additions))

/-- A plain use means what the nearest scope around it that binds the name says. -/
theorem target_of_plainUse {additions : List Addition} {i : Nat} {s : Scope} {chain : List Scope}
    (hs : (run additions).finish.scope? i = some s) (hchain : (run additions).finish.Chain i chain)
    {u : Use} (hu : u ∈ s.uses) (hplain : u.member = none) :
    u.target = chain.findSome? (·.handle? u.name) := by
  have htarget : u.target = (run additions).finish.meaning i u :=
    target_resolve (isPlaced_linked (isPlaced_run additions)) hs u hu
  rw [htarget, meaning, hplain]
  exact resolveName_eq (isPlaced_finish additions).id_eq hchain u.name

/-- **A plain use reaches a method only in the file that holds both.** Scopes outside of files,
which are those of packages, bind neither methods nor imports. A plain use means a method exactly if
the method is the first definition of the name in a scope around the use, no scope in between binds
the name, and both scopes lie in the same file. -/
theorem method_of_plainUse (additions : List Addition) (i : Nat) (s : Scope)
    (hs : (run additions).finish.scope? i = some s) :
    (s.file = none → ∀ d ∈ s.definitions, d.kind ≠ .method ∧ d.kind ≠ .imported) ∧
    ∀ u ∈ s.uses, u.member = none →
      ∀ a d, (run additions).finish.definition? a = some d → d.kind = .method →
      (u.target = some a ↔
        ∃ inner t outer, (run additions).finish.Chain i (inner ++ t :: outer) ∧
          (run additions).finish.scope? a.scope = some t ∧ t.file = s.file ∧ s.file ≠ none ∧
          (∀ r ∈ inner, r.find? u.name = none) ∧ t.find? u.name = some a.index) := by
  have hplaced := isPlaced_finish additions
  have hshares := sharesOnly_finish additions
  refine ⟨fun hfile d hd => ?_, fun u hu hplain a d hd hmethod => ⟨fun ha => ?_, ?_⟩⟩
  · have hshared := hshares i ((fileOf_eq hs).trans hfile) d (definitionsOf_eq hs ▸ hd)
    exact (isShared_iff.mp hshared).symm
  · obtain ⟨chain, hchain, -⟩ := hplaced.exists_chain hs
    have htarget := target_of_plainUse hs hchain hu hplain
    rw [ha, eq_comm, List.findSome?_eq_some_iff] at htarget
    obtain ⟨inner, t, outer, rfl, ht, hinner⟩ := htarget
    obtain ⟨n, hn, rfl⟩ := Option.map_eq_some_iff.mp ht
    have hscope := hchain.scope?_id hplaced.id_eq t (by simp)
    -- in a scope outside of files there would be no method
    have hfile : t.file ≠ none := by
      intro hnone
      have hmem : d ∈ (run additions).finish.definitionsOf t.id := by
        rw [definition?_eq] at hd
        exact List.mem_of_getElem? hd
      have hshared := hshares t.id ((fileOf_eq hscope).trans hnone) d hmem
      exact (isShared_iff.mp hshared).2 hmethod
    have hsame := (hplaced.file_of_chain hchain hs t (by simp)).resolve_left hfile
    refine ⟨inner, t, outer, hchain, hscope, hsame, hsame ▸ hfile, fun r hr => ?_, hn⟩
    simpa [Scope.handle?] using hinner r hr
  · rintro ⟨inner, t, outer, hchain, ht, -, -, hinner, hfind⟩
    have hid : t.id = a.scope := hplaced.id_eq _ t ht
    rw [target_of_plainUse hs hchain hu hplain, findSome?_handle? hinner, List.findSome?_cons,
      Scope.handle?, hfind, Option.map_some, hid]

/-- The file `func(T)M(){M()}`: a method that calls itself by its name alone. -/
def bareCall : Addition :=
  let place (column : UInt32) : Location := ⟨⟨"p.go"⟩, 1, column, 1, column + 1⟩
  .marks ⟨"p.go"⟩ .go {
    scopes := [⟨⟨0, 15⟩, .function⟩, ⟨⟨10, 15⟩, .block⟩]
    bindings := [⟨⟨0, 15⟩, .method, some ⟨5, ⟨7, 8⟩, "M", place 8⟩, none, none,
      "method_declaration", place 8⟩]
    uses := [⟨⟨4, ⟨5, 6⟩, "T", place 6⟩, none⟩, ⟨⟨10, ⟨11, 12⟩, "M", place 12⟩, none⟩] }

/-- The method, which the scope of the file binds. -/
def bareMethod : Definition := ⟨"M", .method, none, none, ⟨⟨"p.go"⟩, 1, 8, 1, 9⟩, some 1⟩

/-- The body of the method, with the call. -/
def bareBody : Scope where
  id := 2
  kind := .block
  parent := some 1
  children := []
  definitions := []
  uses := [⟨"M", none, ⟨⟨"p.go"⟩, 1, 12, 1, 13⟩, some ⟨0, 0⟩⟩]
  file := some ⟨"p.go"⟩

theorem finish_bareCall :
    (run [bareCall]).finish.scope? 2 = some bareBody ∧
      (run [bareCall]).finish.definition? ⟨0, 0⟩ = some bareMethod := by
  rw [scope?_finish, finish, (bindsAlike_resolve _).definition?]
  simp only [run, List.foldl, add, bareCall, addMarks, addScopes]
  rw [ScopeMark.arrange, List.mergeSort_of_pairwise (by decide), UseMark.arrange,
    List.mergeSort_of_pairwise (by decide +kernel)]
  decide +kernel

theorem method_of_plainUse_bareCall :
    (run [bareCall]).finish.scope? 2 = some bareBody ∧
    (run [bareCall]).finish.definition? ⟨0, 0⟩ = some bareMethod ∧
    ∃ inner t outer, (run [bareCall]).finish.Chain 2 (inner ++ t :: outer) ∧
      (run [bareCall]).finish.scope? 0 = some t ∧ t.file = some ⟨"p.go"⟩ ∧
      t.find? "M" = some 0 := by
  obtain ⟨hbody, hmethod⟩ := finish_bareCall
  obtain ⟨inner, t, outer, hchain, hscope, hfile, -, -, hfind⟩ :=
    ((method_of_plainUse [bareCall] 2 bareBody hbody).2 _ (List.mem_singleton_self _) rfl ⟨0, 0⟩
      bareMethod hmethod rfl).mp rfl
  exact ⟨hbody, hmethod, inner, t, outer, hchain, hscope, hfile, hfind⟩

/-- The call of a method by its name alone reaches it. -/
theorem bareCall_reaches_method :
    ∃ s u a d, (run [bareCall]).finish.scope? 2 = some s ∧ u ∈ s.uses ∧ u.member = none ∧
      u.target = some a ∧ (run [bareCall]).finish.definition? a = some d ∧ d.kind = .method := by
  obtain ⟨hbody, hmethod⟩ := finish_bareCall
  exact ⟨bareBody, _, ⟨0, 0⟩, bareMethod, hbody, List.mem_singleton_self _, rfl, rfl, hmethod, rfl⟩

end ScopeBuilder

end SourceAtlas
