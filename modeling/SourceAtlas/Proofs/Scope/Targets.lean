import Mathlib.Data.List.Infix
import SourceAtlas.Proofs.Scope.Links

/-!
# Targets stay right

The target of a use is a position in a list of definitions, and such lists grow after it was taken.
Definitions are only ever added at the end and never get another name, so whatever happens to a
graph, a target tells a definition of the name that its use looks for.

* `Use.sought`, `ScopeGraph.Binds`, `ScopeGraph.IsSettled`: what is said about targets;
* `ScopeGraph.binds_meaning`: what a use means has the right name;
* `ScopeGraph.Retains`, `Operation.retains_apply`: what operations leave alone;
* `Operation.isSettled_apply`, `Operation.added?`, `Operation.length_uses_apply`: one operation;
* **`Operation.targets_of_runAll?`**: after every run all targets are right, and uses are counted
  as they were added.
-/

namespace SourceAtlas

/-- The name that a use looks for in the end: its member, or its own name if it has none. -/
def Use.sought (u : Use) : String := u.member.getD u.name

namespace ScopeGraph

variable {g h k : ScopeGraph} {i j : Nat} {name : String} {a : Handle} {u : Use}

/-! ## Names at handles -/

/-- The names that are bound in the scope with a number. -/
def namesOf (g : ScopeGraph) (i : Nat) : List String :=
  ((g.scope? i).map fun s => s.definitions.map (·.name)).getD []

/-- A handle tells a definition of a name. -/
def Binds (g : ScopeGraph) (a : Handle) (name : String) : Prop :=
  ∃ d, g.definition? a = some d ∧ d.name = name

/-- Every target tells a definition of the name that its use looks for. -/
def IsSettled (g : ScopeGraph) : Prop :=
  ∀ u ∈ g.uses, ∀ a, u.target = some a → g.Binds a u.sought

theorem binds_iff : g.Binds a name ↔ (g.namesOf a.scope)[a.index]? = some name := by
  rw [Binds, definition?, namesOf]
  cases g.scope? a.scope with
  | none => simp
  | some s => simp [List.getElem?_map]

theorem namesOf_eq {s : Scope} (hs : g.scope? i = some s) :
    g.namesOf i = s.definitions.map (·.name) := by
  rw [namesOf, hs]
  rfl

theorem binds_find? {s : Scope} (hs : g.scope? i = some s) {n : Nat} (hn : s.find? name = some n) :
    g.Binds ⟨i, n⟩ name := by
  rw [Scope.find?, List.findIdx?_eq_some_iff_getElem] at hn
  obtain ⟨hlt, hname, -⟩ := hn
  rw [binds_iff, namesOf_eq hs, List.getElem?_map, List.getElem?_eq_getElem hlt, Option.map_some,
    beq_iff_eq.mp hname]

theorem binds_resolveUpward {n : Nat} (hfound : g.resolveUpward name n i = some a) :
    g.Binds a name := by
  induction n generalizing i with
  | zero => cases hfound
  | succ n ih =>
    rw [resolveUpward] at hfound
    split at hfound
    · cases hfound
    · rename_i s hs
      split at hfound
      · rename_i m hm
        cases hfound
        exact binds_find? hs hm
      · split at hfound
        · exact ih hfound
        · cases hfound

theorem binds_resolveDotted {member : String}
    (hfound : g.resolveDotted i name member = some a) : g.Binds a member := by
  simp only [resolveDotted, Option.bind_eq_bind, Option.bind_eq_some_iff] at hfound
  obtain ⟨-, -, d, -, opened, -, s, hs, n, hn, ha⟩ := hfound
  cases ha
  exact binds_find? hs hn

/-- **What a use means has the name that the use looks for.** -/
theorem binds_meaning (hfound : g.meaning i u = some a) : g.Binds a u.sought := by
  unfold meaning at hfound
  unfold Use.sought
  cases hm : u.member with
  | none =>
    rw [hm] at hfound
    exact binds_resolveUpward hfound
  | some m =>
    rw [hm] at hfound
    exact binds_resolveDotted hfound

/-! ## What operations leave alone -/

/-- Names stay where they are bound, and uses stay as they are. -/
structure Retains (g h : ScopeGraph) : Prop where
  names : ∀ i, g.namesOf i <+: h.namesOf i
  uses : h.uses = g.uses

theorem Binds.mono (hnames : ∀ i, g.namesOf i <+: h.namesOf i) (ha : g.Binds a name) :
    h.Binds a name := by
  rw [binds_iff] at ha ⊢
  obtain ⟨hlt, rfl⟩ := List.getElem?_eq_some_iff.mp ha
  exact List.prefix_iff_getElem?.mp (hnames a.scope) a.index hlt

namespace Retains

theorem refl (g : ScopeGraph) : g.Retains g := ⟨fun _ => List.prefix_rfl, rfl⟩

theorem trans (hgh : g.Retains h) (hhk : h.Retains k) : g.Retains k :=
  ⟨fun i => (hgh.names i).trans (hhk.names i), hhk.uses.trans hgh.uses⟩

theorem isSettled (hgh : g.Retains h) (hg : g.IsSettled) : h.IsSettled := by
  intro u hu a ha
  rw [hgh.uses] at hu
  exact (hg u hu a ha).mono hgh.names

end Retains

theorem namesOf_modify {f : Scope → Scope}
    (hf : ∀ s, s.definitions.map (·.name) <+: (f s).definitions.map (·.name)) (i : Nat) :
    g.namesOf i <+: (g.modify j f).namesOf i := by
  rw [namesOf, namesOf, scope?_modify]
  split_ifs
  · cases g.scope? i with
    | none => exact List.prefix_rfl
    | some s => exact hf s
  · exact List.prefix_rfl

theorem uses_modify {f : Scope → Scope} (hf : ∀ s, (f s).uses = s.uses) :
    (g.modify j f).uses = g.uses := by
  have hmap : (g.modify j f).scopes.toList.map (·.uses) = g.scopes.toList.map (·.uses) := by
    refine List.ext_getElem? fun i => ?_
    rw [List.getElem?_map, List.getElem?_map, Array.getElem?_toList, Array.getElem?_toList]
    change ((g.modify j f).scope? i).map _ = (g.scope? i).map _
    rw [scope?_modify]
    split_ifs
    · rw [Option.map_map]
      exact congrArg (Option.map · _) (funext hf)
    · rfl
  rw [uses, uses, List.flatMap, List.flatMap, hmap]

theorem retains_modify {f : Scope → Scope}
    (hnames : ∀ s, s.definitions.map (·.name) <+: (f s).definitions.map (·.name))
    (huses : ∀ s, (f s).uses = s.uses) : g.Retains (g.modify j f) :=
  ⟨namesOf_modify hnames, uses_modify huses⟩

theorem retains_push (kind : ScopeKind) (parent : Option Nat) (file : Option Path) :
    g.Retains (g.push kind parent file) where
  names i := by
    rw [namesOf, namesOf, scope?_push]
    split_ifs with hi
    · rw [hi, scope?_size]
      exact List.prefix_rfl
    · exact List.prefix_rfl
  uses := by simp [uses, push]

theorem retains_link {f : Scope → Scope} (hdefinitions : ∀ s, (f s).definitions = s.definitions)
    (huses : ∀ s, (f s).uses = s.uses) : g.Retains (g.modify j f) :=
  retains_modify (fun s => by rw [hdefinitions]) huses

theorem retains_setParent (c p : Nat) : g.Retains (g.setParent c p) := by
  unfold setParent
  split_ifs
  · exact .refl g
  · have hdetach : g.Retains (g.detach c) := by
      unfold detach
      split
      · exact retains_link (fun _ => rfl) fun _ => rfl
      · exact .refl g
    have hmoved : (g.detach c).Retains
        ((g.detach c).modify c fun s => { s with parent := some p }) :=
      retains_link (fun _ => rfl) fun _ => rfl
    exact (hdetach.trans hmoved).trans (retains_link (fun _ => rfl) fun _ => rfl)

theorem names_modify_opens (ds : List Definition) (n opened : Nat) :
    (ds.modify n fun d => { d with opens := some opened }).map (·.name) = ds.map (·.name) := by
  refine List.ext_getElem? fun m => ?_
  rw [List.getElem?_map, List.getElem?_map, List.getElem?_modify]
  cases ds[m]? with
  | none => rfl
  | some d => by_cases hm : n = m <;> simp [hm]

theorem uses_addUse (hj : j < g.size) (u : Use) : (g.addUse j u).uses.Perm (u :: g.uses) := by
  obtain ⟨l₁, s, l₂, hl, -, hmodify⟩ := List.exists_of_modify
    (fun s : Scope => { s with uses := s.uses ++ [u] }) (l := g.scopes.toList) (i := j) hj
  have hold : g.uses = l₁.flatMap (·.uses) ++ (s.uses ++ l₂.flatMap (·.uses)) := by
    rw [uses, hl, List.flatMap_append, List.flatMap_cons]
  have hnew : (g.addUse j u).uses =
      (l₁.flatMap (·.uses) ++ s.uses) ++ u :: l₂.flatMap (·.uses) := by
    rw [uses, addUse, modify, Array.toList_modify, hmodify]
    simp
  rw [hnew, hold, ← List.append_assoc]
  exact List.perm_middle

/-! ## Resolution -/

theorem uses_resolve (g : ScopeGraph) : g.resolve.uses = g.scopes.toList.flatMap g.resolvedIn := by
  rw [uses, resolve, Array.toList_map, List.flatMap_map]
  congr 1
  funext s
  unfold resolvedIn
  split_ifs <;> rfl

theorem length_resolvedIn (g : ScopeGraph) (s : Scope) :
    (g.resolvedIn s).length = s.uses.length := by
  unfold resolvedIn
  split_ifs
  · exact List.length_map _
  · rfl

theorem length_uses_resolve (g : ScopeGraph) : g.resolve.uses.length = g.uses.length := by
  rw [uses_resolve, uses, List.length_flatMap, List.length_flatMap]
  simp only [length_resolvedIn]

theorem namesOf_resolve (i : Nat) : g.resolve.namesOf i = g.namesOf i := by
  rw [namesOf, namesOf, scope?_resolve, Option.map_map]
  rfl

/-- Resolution gives right targets and keeps the others. -/
theorem IsSettled.resolve (hg : g.IsSettled) : g.resolve.IsSettled := by
  have hnames : ∀ i, g.namesOf i <+: g.resolve.namesOf i := fun i => by rw [namesOf_resolve]
  intro u hu a ha
  rw [uses_resolve, List.mem_flatMap] at hu
  obtain ⟨s, hs, hu⟩ := hu
  unfold resolvedIn at hu
  split_ifs at hu
  · obtain ⟨v, -, rfl⟩ := List.mem_map.mp hu
    exact Binds.mono hnames (binds_meaning (u := v) ha)
  · exact Binds.mono hnames (hg u (List.mem_flatMap.mpr ⟨s, hs, hu⟩) a ha)

theorem isSettled_empty : IsSettled ∅ := fun _ hu => absurd hu List.not_mem_nil

/-! ## Counts -/

theorem IsSettled.map_resolvedUses (hg : g.IsSettled) :
    g.resolvedUses.map (·.1) = g.uses.filter (·.target.isSome) := by
  rw [resolvedUses, List.map_filterMap, ← List.filterMap_eq_filter]
  refine List.filterMap_congr fun u hu => ?_
  cases ha : u.target with
  | none => simp [Option.guard, ha]
  | some a =>
    obtain ⟨d, hd, -⟩ := hg u hu a ha
    simp [Option.guard, ha, hd]

theorem length_openUses (g : ScopeGraph) : g.openUses.length = g.tally.unresolved := by
  have hsplit := List.length_eq_length_filter_add (l := g.uses) fun u => u.target.isSome
  simp only [Option.not_isSome] at hsplit
  change (g.uses.filter fun u => u.target.isNone).length =
    g.uses.length - (g.uses.filter fun u => u.target.isSome).length
  omega

end ScopeGraph

/-! ## Runs of operations -/

namespace Operation

open ScopeGraph

variable {g : ScopeGraph}

/-- The use that an operation adds. -/
def added? : Operation → Option Use
  | addUse _ u => some u
  | _ => none

theorem retains_apply {o : Operation} (hadded : o.added? = none) (hresolve : o ≠ .resolve) :
    g.Retains (o.apply g).1 := by
  cases o with
  | addFile path =>
    change g.Retains (g.addFile path).1
    unfold ScopeGraph.addFile
    split
    · exact .refl g
    · have hpush := retains_push (g := g) .file none (some path)
      exact ⟨hpush.names, hpush.uses⟩
  | addPackage key =>
    change g.Retains (g.addPackage key).1
    unfold ScopeGraph.addPackage
    split
    · exact .refl g
    · have hpush := retains_push (g := g) .package none none
      exact ⟨hpush.names, hpush.uses⟩
  | addScope kind parent =>
    change g.Retains (g.addScope kind parent).1
    unfold ScopeGraph.addScope
    split
    · exact (retains_push kind (some parent) _).trans (retains_link (fun _ => rfl) fun _ => rfl)
    · exact .refl g
  | setParent child parent => exact retains_setParent child parent
  | define scope d =>
    refine retains_modify (fun s => ?_) fun _ => rfl
    rw [List.map_append]
    exact List.prefix_append _ _
  | setOpened handle opened =>
    refine retains_modify (fun s => ?_) fun _ => rfl
    rw [names_modify_opens]
  | addUse scope u => cases hadded
  | resolve => exact absurd rfl hresolve

/-- An operation keeps targets right if a use that it adds has none. -/
theorem isSettled_apply (hg : g.IsSettled) (o : Operation) (hfits : o.fits g = true)
    (hopen : ∀ u ∈ o.added?, u.target = none) : (o.apply g).1.IsSettled := by
  by_cases hresolve : o = .resolve
  · subst hresolve
    exact hg.resolve
  · cases hadded : o.added? with
    | none => exact (retains_apply hadded hresolve).isSettled hg
    | some u =>
      cases o with
      | addUse scope v =>
        cases hadded
        have hscope : scope < g.size := by simpa [fits] using hfits
        intro w hw a ha
        rcases List.mem_cons.mp ((uses_addUse hscope u).mem_iff.mp hw) with rfl | hw
        · rw [hopen w rfl] at ha
          cases ha
        · exact (hg w hw a ha).mono (namesOf_modify fun _ => List.prefix_rfl)
      | _ => cases hadded

theorem length_uses_apply (o : Operation) (hfits : o.fits g = true) :
    (o.apply g).1.uses.length = g.uses.length + o.added?.toList.length := by
  by_cases hresolve : o = .resolve
  · subst hresolve
    exact length_uses_resolve g
  · cases hadded : o.added? with
    | none =>
      rw [(retains_apply hadded hresolve).uses]
      rfl
    | some u =>
      cases o with
      | addUse scope v =>
        cases hadded
        have hscope : scope < g.size := by simpa [fits] using hfits
        exact (uses_addUse hscope u).length_eq
      | _ => cases hadded

theorem isSettled_of_runAll? {ops : List Operation} (hrun : runAll? ops = some g)
    (hopen : ∀ u ∈ ops.filterMap added?, u.target = none) : g.IsSettled := by
  refine run_induction (P := fun ops g => (∀ u ∈ ops.filterMap added?, u.target = none) →
    g.IsSettled) (fun _ => isSettled_empty) ?_ hrun hopen
  intro ops o g ih hfits hopen
  rw [List.filterMap_append] at hopen
  refine isSettled_apply (ih fun u hu => hopen u (List.mem_append_left _ hu)) o hfits fun u hu => ?_
  exact hopen u (List.mem_append_right _ (by simp [Option.mem_def.mp hu]))

theorem length_uses_of_runAll? {ops : List Operation} (hrun : runAll? ops = some g) :
    g.uses.length = (ops.filterMap added?).length := by
  refine run_induction (P := fun ops g => g.uses.length = (ops.filterMap added?).length) rfl ?_ hrun
  intro ops o g ih hfits
  rw [length_uses_apply o hfits, ih, List.filterMap_append, List.length_append]
  cases h : o.added? <;> simp [h]

/-- **After every run all targets are right, and uses are counted as they were added.** A use that
was given a target has a definition there with the name that the use looks for, so that none is lost
when the uses with targets are listed: these and the others are as many as the tally says, and all
together are those that were added. -/
theorem targets_of_runAll? (ops : List Operation) (g : ScopeGraph)
    (hopen : ∀ u ∈ ops.filterMap added?, u.target = none) (hrun : runAll? ops = some g) :
    (∀ u ∈ g.uses, ∀ a, u.target = some a →
      ∃ d, g.definition? a = some d ∧ d.name = match u.member with
        | some m => m
        | none => u.name) ∧
    g.resolvedUses.map (·.1) = g.uses.filter (·.target.isSome) ∧
    g.resolvedUses.length = g.tally.resolved ∧
    g.openUses.length = g.tally.unresolved ∧
    g.tally.resolved ≤ g.tally.total ∧
    g.tally.total = (ops.filterMap added?).length := by
  have hsettled := isSettled_of_runAll? hrun hopen
  have hmap := hsettled.map_resolvedUses
  refine ⟨fun u hu a ha => ?_, hmap, ?_, length_openUses g, List.length_filter_le _ _,
    length_uses_of_runAll? hrun⟩
  · obtain ⟨d, hd, hname⟩ := hsettled u hu a ha
    refine ⟨d, hd, hname.trans ?_⟩
    rw [Use.sought]
    cases u.member <;> rfl
  · have hlength := congrArg List.length hmap
    rwa [List.length_map] at hlength

/-- A file that imports a package and uses a member of it and an unknown name. After both were
looked up, the member is defined once more, the unknown name is defined, and the file is moved. -/
def latecomers : List Operation :=
  [.addFile ⟨"a.go"⟩, .addPackage "p",
    .define 0 ⟨"p", .imported, none, some "p", somewhere, none⟩, .setOpened ⟨0, 0⟩ 1,
    .define 1 ⟨"F", .function, none, none, somewhere, none⟩,
    .addUse 0 ⟨"p", some "F", somewhere, none⟩, .addUse 0 ⟨"q", none, somewhere, none⟩, .resolve,
    .define 1 ⟨"F", .function, none, none, somewhere, none⟩,
    .define 0 ⟨"q", .value, none, none, somewhere, none⟩, .setParent 0 1]

/-- The graph of the file and the package before anything is looked up. -/
def earlyGraph : ScopeGraph where
  scopes := #[⟨0, .file, none, [], [⟨"p", .imported, none, some "p", somewhere, some 1⟩],
      [⟨"p", some "F", somewhere, none⟩, ⟨"q", none, somewhere, none⟩], some ⟨"a.go"⟩⟩,
    ⟨1, .package, none, [], [⟨"F", .function, none, none, somewhere, none⟩], [], none⟩]
  files := [(⟨"a.go"⟩, 0)]
  packages := [("p", 1)]

theorem visited_earlyGraph : earlyGraph.visited = [1, 0] := by
  have hroots : earlyGraph.roots = [0, 1] := by decide +kernel
  have hsize : earlyGraph.size = 2 := rfl
  have hchildren : ∀ i, ((earlyGraph.scope? i).map (·.children)).getD [] = [] := by
    rintro (_ | _ | i)
    · rfl
    · rfl
    · rfl
  simp [visited, visit, hroots, hsize, hchildren]

/-- The graph of the file and the package. -/
def latecomersGraph : ScopeGraph where
  scopes := #[⟨0, .file, some 1, [],
      [⟨"p", .imported, none, some "p", somewhere, some 1⟩,
        ⟨"q", .value, none, none, somewhere, none⟩],
      [⟨"p", some "F", somewhere, some ⟨1, 0⟩⟩, ⟨"q", none, somewhere, none⟩], some ⟨"a.go"⟩⟩,
    ⟨1, .package, none, [0],
      [⟨"F", .function, none, none, somewhere, none⟩,
        ⟨"F", .function, none, none, somewhere, none⟩], [], none⟩]
  files := [(⟨"a.go"⟩, 0)]
  packages := [("p", 1)]

theorem targets_of_latecomers :
    runAll? latecomers = some latecomersGraph ∧
    (∃ d, latecomersGraph.definition? ⟨1, 0⟩ = some d ∧ d.name = "F") ∧
    latecomersGraph.resolvedUses.length = 1 ∧ latecomersGraph.openUses.length = 1 ∧
    latecomersGraph.tally.total = 2 := by
  have hearly : runAll? (latecomers.take 7) = some earlyGraph := by decide +kernel
  have hrun : runAll? latecomers = some latecomersGraph := by
    have hsplit : latecomers = latecomers.take 7 ++ latecomers.drop 7 := rfl
    rw [runAll?] at hearly ⊢
    rw [hsplit, List.foldlM_append, hearly]
    change (latecomers.drop 8).foldlM (m := Option) (fun g o => (o.run? g).map (·.1))
      earlyGraph.resolve = _
    rw [ScopeGraph.resolve, visited_earlyGraph]
    decide +kernel
  have hopen : ∀ u ∈ latecomers.filterMap added?, u.target = none := by decide
  obtain ⟨htargets, -, hresolved, hleft, -, htotal⟩ :=
    targets_of_runAll? latecomers latecomersGraph hopen hrun
  have hmember := htargets ⟨"p", some "F", somewhere, some ⟨1, 0⟩⟩ (by decide) ⟨1, 0⟩ rfl
  exact ⟨hrun, hmember, hresolved, hleft, htotal⟩

end Operation

end SourceAtlas
