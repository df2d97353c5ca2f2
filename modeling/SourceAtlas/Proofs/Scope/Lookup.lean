import SourceAtlas.Proofs.Scope.Nearest

/-!
# Looking up names

Where the parents of a scope come to an end, a name is looked up in the scopes around it, one after
the other.

* `Scope.handle?`: the first definition of a name in a scope;
* `ScopeGraph.resolveUpward_eq`: a search that looks at all scopes around a scope;
* **`ScopeGraph.resolveName_eq`**: a name means what the nearest scope that binds it says.
-/

namespace SourceAtlas

/-- The first definition of a name in a scope. -/
def Scope.handle? (s : Scope) (name : String) : Option Handle :=
  (s.find? name).map fun n => ⟨s.id, n⟩

theorem findSome?_handle? {inner outer : List Scope} {name : String}
    (hinner : ∀ t ∈ inner, t.find? name = none) :
    (inner ++ outer).findSome? (·.handle? name) = outer.findSome? (·.handle? name) := by
  have hnone : inner.findSome? (·.handle? name) = none := by
    rw [List.findSome?_eq_none_iff]
    intro t ht
    rw [Scope.handle?, hinner t ht]
    rfl
  rw [List.findSome?_append, hnone, Option.none_or]

namespace ScopeGraph

variable {g : ScopeGraph} {i : Nat} {name : String} {chain : List Scope}

theorem resolveUpward_eq (hid : ∀ i s, g.scope? i = some s → s.id = i) (h : g.Chain i chain)
    {n : Nat} (hn : chain.length ≤ n) :
    g.resolveUpward name n i = chain.findSome? (·.handle? name) := by
  induction h generalizing n with
  | @root i s hs hroot =>
    obtain ⟨n, rfl⟩ : ∃ m, n = m + 1 := ⟨n - 1, by rw [List.length_singleton] at hn; omega⟩
    rw [resolveUpward, hs, List.findSome?_singleton, Scope.handle?, hid i s hs]
    cases hfind : s.find? name with
    | none => simp [hfind, hroot]
    | some m => simp [hfind]
  | @step i p s chain hs hparent hchain ih =>
    rw [List.length_cons] at hn
    obtain ⟨n, rfl⟩ : ∃ m, n = m + 1 := ⟨n - 1, by omega⟩
    rw [resolveUpward, hs, List.findSome?_cons, Scope.handle?, hid i s hs]
    have hrest := ih (n := n) (by omega)
    cases hfind : s.find? name with
    | none => simp [hfind, hparent, hrest]
    | some m => simp [hfind]

/-- **A name means what the nearest scope that binds it says.** -/
theorem resolveName_eq (hid : ∀ i s, g.scope? i = some s → s.id = i) (h : g.Chain i chain)
    (name : String) : g.resolveName i name = chain.findSome? (·.handle? name) := by
  have hlong : g.size ≤ max g.size chain.length := Nat.le_max_left _ _
  rw [← resolveUpward_of_le hlong]
  exact resolveUpward_eq hid h (Nat.le_max_right _ _)

end ScopeGraph

end SourceAtlas
