import Mathlib.Tactic.Common
import SourceAtlas.Proofs.Scope.Placement

/-!
# Resolution reaches every use

When all scopes have places, each of them is visited, and resolving the uses of a graph changes
nothing that says what a use means.

* `ScopeGraph.visit_spec`: a visit is closed under going down;
* `ScopeGraph.mem_visited`: every scope is visited;
* `ScopeGraph.BindsAlike`, `ScopeGraph.BindsAlike.meaning`: what the meaning of a use depends on;
* `ScopeGraph.meaning_resolve`: resolved uses mean what they meant;
* **`ScopeBuilder.finish_resolves`**: a finished graph has no use left behind.
-/

namespace SourceAtlas

namespace ScopeGraph

variable {g : ScopeGraph} {i p : Nat} {s t : Scope}

/-! ## Visits -/

/-- The scopes that one with a number holds. -/
def childrenOf (g : ScopeGraph) (i : Nat) : List Nat := ((g.scope? i).map (·.children)).getD []

/-- A visit keeps what was seen and adds what is on the stack. If the scopes held by those seen are
seen or on the stack, then those held by visited ones are visited. -/
theorem visit_spec (g : ScopeGraph) (stack seen : List Nat)
    (hclosed : ∀ x ∈ seen, ∀ c ∈ g.childrenOf x, c < g.size → c ∈ seen ∨ c ∈ stack) :
    (∀ x ∈ seen, x ∈ g.visit stack seen) ∧
    (∀ x ∈ stack, x < g.size → x ∈ g.visit stack seen) ∧
    ∀ x ∈ g.visit stack seen, ∀ c ∈ g.childrenOf x, c < g.size → c ∈ g.visit stack seen := by
  fun_induction visit g stack seen with
  | case1 seen =>
    refine ⟨fun _ hx => hx, by simp, fun x hx c hc hlt => ?_⟩
    exact (hclosed x hx c hc hlt).resolve_right List.not_mem_nil
  | case2 seen id rest hskip ih =>
    -- the top of the stack is seen already, or it is no scope
    have htop : id < g.size → id ∈ seen := by
      intro hid
      rcases hskip with h | h
      · simpa using h
      · exact absurd hid h
    obtain ⟨hseen, hstack, hdown⟩ := ih fun x hx c hc hlt => by
      rcases hclosed x hx c hc hlt with h | h
      · exact .inl h
      · rcases List.mem_cons.mp h with rfl | h
        · exact .inl (htop hlt)
        · exact .inr h
    refine ⟨hseen, fun x hx hlt => ?_, hdown⟩
    rcases List.mem_cons.mp hx with rfl | hx
    · exact hseen x (htop hlt)
    · exact hstack x hx hlt
  | case3 seen id rest hnew hless ih =>
    obtain ⟨hseen, hstack, hdown⟩ := ih fun x hx c hc hlt => by
      rcases List.mem_cons.mp hx with rfl | hx
      · exact .inr (List.mem_append_left _ hc)
      · rcases hclosed x hx c hc hlt with h | h
        · exact .inl (List.mem_cons_of_mem _ h)
        · rcases List.mem_cons.mp h with rfl | h
          · exact .inl List.mem_cons_self
          · exact .inr (List.mem_append_right _ h)
    refine ⟨fun x hx => hseen x (List.mem_cons_of_mem _ hx), fun x hx hlt => ?_, hdown⟩
    rcases List.mem_cons.mp hx with rfl | hx
    · exact hseen x List.mem_cons_self
    · exact hstack x (List.mem_append_right _ hx) hlt

/-- A visit that starts with the roots reaches every scope whose parents lead to one of them, if
scopes know their numbers and are held by their parents. -/
theorem mem_visit_of_chain (hid : ∀ i s, g.scope? i = some s → s.id = i)
    (hheld : ∀ i s p, g.scope? i = some s → s.parent = some p → i ∈ g.childrenOf p)
    {stack : List Nat} (hstack : g.roots ⊆ stack) {chain : List Scope} (h : g.Chain i chain) :
    i ∈ g.visit stack [] := by
  obtain ⟨-, hroots, hdown⟩ := visit_spec g stack [] (by simp)
  induction h with
  | @root i s hs hroot =>
    refine hroots i (hstack ?_) (lt_size hs)
    rw [roots, List.mem_map]
    have hmem : s ∈ g.scopes.toList := Array.mem_toList_iff.mpr (Array.mem_of_getElem? hs)
    exact ⟨s, List.mem_filter.mpr ⟨hmem, by simp [hroot]⟩, hid i s hs⟩
  | @step i p s chain hs hparent _ ih =>
    exact hdown p ih i (hheld i s p hs hparent) (lt_size hs)

theorem mem_visited (hg : g.IsPlaced) (hs : g.scope? i = some s) : i ∈ g.visited := by
  obtain ⟨chain, hchain, -⟩ := hg.exists_chain hs
  refine mem_visit_of_chain hg.id_eq (fun j t p ht hp => ?_) (List.Subset.refl _) hchain
  obtain ⟨u, hu, hmem⟩ := hg.held j t p ht hp
  simpa [childrenOf, hu] using hmem

/-! ## Meanings -/

/-- Two graphs whose scopes have the same definitions and the same parents. -/
structure BindsAlike (g h : ScopeGraph) : Prop where
  size : h.size = g.size
  scope : ∀ i s, g.scope? i = some s →
    ∃ t, h.scope? i = some t ∧ t.definitions = s.definitions ∧ t.parent = s.parent

namespace BindsAlike

variable {h : ScopeGraph}

theorem scope?_eq_none (hgh : g.BindsAlike h) (hi : g.scope? i = none) : h.scope? i = none := by
  have hle : g.size ≤ i := Array.getElem?_eq_none_iff.mp hi
  have hsize := hgh.size
  exact Array.getElem?_eq_none_iff.mpr (show h.size ≤ i by omega)

theorem resolveUpward (hgh : g.BindsAlike h) (name : String) (n i : Nat) :
    h.resolveUpward name n i = g.resolveUpward name n i := by
  induction n generalizing i with
  | zero => rfl
  | succ n ih =>
    unfold ScopeGraph.resolveUpward
    cases hs : g.scope? i with
    | none => rw [hgh.scope?_eq_none hs]
    | some s =>
      obtain ⟨t, ht, hdefinitions, hparent⟩ := hgh.scope i s hs
      have hfind : t.find? name = s.find? name := by rw [Scope.find?, hdefinitions]; rfl
      simp only [ht, hfind, hparent, ih]

theorem resolveName (hgh : g.BindsAlike h) (i : Nat) (name : String) :
    h.resolveName i name = g.resolveName i name := by
  rw [ScopeGraph.resolveName, ScopeGraph.resolveName, hgh.size, hgh.resolveUpward]

theorem definition? (hgh : g.BindsAlike h) (d : Handle) : h.definition? d = g.definition? d := by
  rw [ScopeGraph.definition?, ScopeGraph.definition?]
  cases hs : g.scope? d.scope with
  | none => rw [hgh.scope?_eq_none hs]
  | some s =>
    obtain ⟨t, ht, hdefinitions, -⟩ := hgh.scope d.scope s hs
    rw [ht, Option.bind_some, Option.bind_some, hdefinitions]

theorem find? (hgh : g.BindsAlike h) (i : Nat) (name : String) :
    ((h.scope? i).bind fun s => s.find? name) = (g.scope? i).bind fun s => s.find? name := by
  cases hs : g.scope? i with
  | none => rw [hgh.scope?_eq_none hs]
  | some s =>
    obtain ⟨t, ht, hdefinitions, -⟩ := hgh.scope i s hs
    rw [ht, Option.bind_some, Option.bind_some, Scope.find?, hdefinitions]
    rfl

theorem resolveDotted (hgh : g.BindsAlike h) (i : Nat) (name member : String) :
    h.resolveDotted i name member = g.resolveDotted i name member := by
  have hmember : ∀ opened : Nat,
      ((h.scope? opened).bind fun s => (s.find? member).bind fun k => some (⟨opened, k⟩ : Handle)) =
        (g.scope? opened).bind fun s => (s.find? member).bind fun k => some ⟨opened, k⟩ := by
    intro opened
    rw [← Option.bind_assoc, ← Option.bind_assoc, hgh.find?]
  simp only [ScopeGraph.resolveDotted, Option.bind_eq_bind, hgh.resolveName, hgh.definition?,
    hmember]

/-- What a use means depends on definitions and parents only. -/
theorem meaning (hgh : g.BindsAlike h) (i : Nat) (u : Use) : h.meaning i u = g.meaning i u := by
  unfold ScopeGraph.meaning
  cases u.member with
  | none => exact hgh.resolveName i u.name
  | some m => exact hgh.resolveDotted i u.name m

end BindsAlike

/-! ## Resolved uses -/

/-- The uses of a scope after resolution. -/
def resolvedIn (g : ScopeGraph) (s : Scope) : List Use :=
  if g.visited.contains s.id then s.uses.map fun u => { u with target := g.meaning s.id u }
  else s.uses

@[simp] theorem size_resolve (g : ScopeGraph) : g.resolve.size = g.size := Array.size_map

theorem scope?_resolve (g : ScopeGraph) (i : Nat) :
    g.resolve.scope? i = (g.scope? i).map fun s => { s with uses := g.resolvedIn s } := by
  unfold resolve scope?
  rw [Array.getElem?_map]
  congr 1
  funext s
  unfold resolvedIn
  split_ifs <;> rfl

theorem bindsAlike_resolve (g : ScopeGraph) : g.BindsAlike g.resolve where
  size := size_resolve g
  scope i s hs := ⟨{ s with uses := g.resolvedIn s }, by rw [scope?_resolve, hs]; rfl, rfl, rfl⟩

theorem meaning_resolve (g : ScopeGraph) (i : Nat) (u : Use) :
    g.resolve.meaning i u = g.meaning i u :=
  (bindsAlike_resolve g).meaning i u

theorem isPlaced_resolve (hg : g.IsPlaced) : g.resolve.IsPlaced := by
  refine hg.keep (fun i s hs => ?_) (size_resolve g) rfl rfl
  rw [scope?_resolve, hs]
  exact ⟨_, rfl, rfl, rfl, rfl, rfl, List.Subset.refl _⟩

theorem resolvedIn_eq (hg : g.IsPlaced) (hs : g.scope? i = some s) :
    g.resolvedIn s = s.uses.map fun u => { u with target := g.meaning i u } := by
  have hid := hg.id_eq i s hs
  rw [resolvedIn, if_pos (List.contains_iff_mem.mpr (hid ▸ mem_visited hg hs)), hid]

/-- Every use of a resolved graph says what it means there. -/
theorem target_resolve (hg : g.IsPlaced) (hs : g.resolve.scope? i = some s) :
    ∀ u ∈ s.uses, u.target = g.resolve.meaning i u := by
  rw [scope?_resolve, Option.map_eq_some_iff] at hs
  obtain ⟨s₀, hs₀, rfl⟩ := hs
  intro u hu
  rw [resolvedIn_eq hg hs₀, List.mem_map] at hu
  obtain ⟨u₀, -, rfl⟩ := hu
  rw [meaning_resolve]
  rfl

end ScopeGraph

/-! ## Finished graphs -/

namespace ScopeBuilder

open ScopeGraph

theorem isPlaced_linkImport {g : ScopeGraph} (hg : g.IsPlaced) (p : PendingImport) :
    (linkImport g p).IsPlaced := by
  unfold linkImport
  split
  · exact isPlaced_modify hg fun _ => ⟨rfl, rfl, rfl, rfl, List.Subset.refl _⟩
  · exact hg

theorem isPlaced_linked {b : ScopeBuilder} (hb : b.graph.IsPlaced) :
    (b.imports.foldl linkImport b.graph).IsPlaced :=
  List.foldlRecOn _ _ (motive := IsPlaced) hb fun _ hg p _ => isPlaced_linkImport hg p

theorem scope?_finish (additions : List Addition) (i : Nat) :
    let g := (run additions).imports.foldl linkImport (run additions).graph
    (run additions).finish.scope? i = (g.scope? i).map fun s =>
      { s with uses := s.uses.map fun u => { u with target := g.meaning i u } } := by
  intro g
  rw [finish, scope?_resolve]
  refine Option.map_congr fun s hs => ?_
  rw [resolvedIn_eq (isPlaced_linked (isPlaced_run additions)) hs]

/-- **A finished graph has no use left behind.** Whatever files were added, the scopes around a
scope are finite in number and end with a file or package that has no parent. A scope that is no
package lies in the file among the scopes around it. Every use says what it means in the finished
graph, in the scope that holds it. -/
theorem finish_resolves (additions : List Addition) (i : Nat) (s : Scope)
    (hs : (run additions).finish.scope? i = some s) :
    (∃ chain, (run additions).finish.Chain i chain ∧
      (∃ r, chain.getLast? = some r ∧ r.parent = none ∧ (r.kind = .file ∨ r.kind = .package)) ∧
      (s.kind ≠ .package → ∃ path, s.file = some path ∧ (∃ t ∈ chain, t.kind = .file) ∧
        ∀ t ∈ chain, t.kind = .file → t.file = some path)) ∧
    ∀ u ∈ s.uses, u.target = (match u.member with
      | some m => (run additions).finish.resolveDotted i u.name m
      | none => (run additions).finish.resolveName i u.name) := by
  have hlinked := isPlaced_linked (isPlaced_run additions)
  have hplaced : (run additions).finish.IsPlaced := isPlaced_resolve hlinked
  refine ⟨?_, target_resolve hlinked hs⟩
  obtain ⟨chain, hchain, hlast, hfiles⟩ := hplaced.exists_chain hs
  refine ⟨chain, hchain, hlast, fun hkind => ?_⟩
  obtain ⟨path, hpath⟩ := hplaced.exists_file hs hkind
  exact ⟨path, hpath, hfiles path hpath⟩

/-- A file with a function that calls itself in a block. -/
def selfCall : Addition :=
  let place : Location := ⟨⟨"x.go"⟩, 1, 1, 1, 2⟩
  .marks ⟨"x.go"⟩ .go {
    scopes := [⟨⟨0, 20⟩, .function⟩, ⟨⟨8, 20⟩, .block⟩]
    bindings := [⟨⟨0, 20⟩, .function, some ⟨1, ⟨5, 6⟩, "f", place⟩, none, none, "", place⟩]
    uses := [⟨⟨2, ⟨12, 13⟩, "f", place⟩, none⟩] }

/-- The block, with the call of the function that the file defines. -/
def callingBlock : Scope where
  id := 2
  kind := .block
  parent := some 1
  children := []
  definitions := []
  uses := [⟨"f", none, ⟨⟨"x.go"⟩, 1, 1, 1, 2⟩, some ⟨0, 0⟩⟩]
  file := some ⟨"x.go"⟩

theorem finish_resolves_selfCall :
    (run [selfCall]).finish.scope? 2 = some callingBlock ∧
    (∃ chain r, (run [selfCall]).finish.Chain 2 chain ∧ chain.getLast? = some r ∧
      r.parent = none) ∧
    (run [selfCall]).finish.resolveName 2 "f" = some ⟨0, 0⟩ := by
  have hblock : (run [selfCall]).finish.scope? 2 = some callingBlock := by
    rw [scope?_finish]
    simp only [run, List.foldl, add, selfCall, addMarks, addScopes]
    rw [ScopeMark.arrange, List.mergeSort_of_pairwise (by decide)]
    decide +kernel
  obtain ⟨⟨chain, hchain, ⟨r, hlast, hroot, -⟩, -⟩, huses⟩ :=
    finish_resolves [selfCall] 2 callingBlock hblock
  exact ⟨hblock, ⟨chain, r, hchain, hlast, hroot⟩, (huses _ (List.mem_singleton_self _)).symm⟩

end ScopeBuilder

end SourceAtlas
