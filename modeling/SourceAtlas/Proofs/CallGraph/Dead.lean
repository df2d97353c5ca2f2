import Mathlib.Tactic.Common
import SourceAtlas.CallGraph.Query
import SourceAtlas.Proofs.CallGraph.Count

/-!
# Definitions that nothing seems to call

A definition is taken for dead if no definition calls its name. A call outside of all definitions
does not keep a definition alive, since a graph counts such a call and forgets its name.

* `isOutside`, `isNone_enclosing?`: calls outside of all definitions;
* `CallGraph.isUncalled`, `CallGraph.Accounts.isEmpty_incomingEdges`: definitions without callers;
* `CallGraph.Accounts.countP_name_le`: their calls are among those outside of all definitions;
* **`CallGraph.deadCandidates_build`**: the definitions that are taken for dead;
* `CallGraph.deadCandidates_startup`: one of them is called.
-/

namespace SourceAtlas

/-- Does a reference stand outside of all definitions? -/
def isOutside (definitions : List CallDefinition) (r : Reference) : Bool :=
  !definitions.any (·.isAround r)

theorem isNone_enclosing? (definitions : List CallDefinition) (r : Reference) :
    (enclosing? definitions r).isNone = isOutside definitions r := by
  rw [Bool.eq_iff_iff, Option.isNone_iff_eq_none, isOutside, Bool.not_eq_true', List.any_eq_false]
  constructor
  · intro hnone d hd haround
    obtain ⟨a, ha⟩ := List.mem_iff_getElem?.mp hd
    have hne : around definitions r ≠ [] := List.ne_nil_of_mem (mem_around.mpr ⟨ha, haround⟩)
    obtain ⟨x, hx⟩ := foldl_best_isSome isBetter_isInner hne
    rw [enclosing?, Option.map_eq_none_iff] at hnone
    cases hnone.symm.trans hx
  · intro houtside
    rw [Option.eq_none_iff_forall_ne_some]
    intro a ha
    obtain ⟨d, hd, haround, -⟩ := enclosing?_eq_some_iff.mp ha
    exact houtside d (List.mem_of_getElem? hd) haround

namespace CallGraph

variable {g : CallGraph} {rs : List Reference} {b : Nat} {d : CallDefinition}

/-! ## Definitions without callers -/

/-- Do all calls of the name of a definition stand outside of all definitions? -/
def isUncalled (definitions : List CallDefinition) (calls : List Reference) (d : CallDefinition) :
    Bool :=
  calls.all fun r => r.name != d.name || isOutside definitions r

theorem isUncalled_iff {definitions : List CallDefinition} :
    isUncalled definitions rs d = true ↔
      ∀ r ∈ rs, r.name = d.name → isOutside definitions r = true := by
  simp [isUncalled, or_iff_not_imp_left]

/-- **A definition has no callers if and only if all calls of its name stand outside.** -/
theorem Accounts.isEmpty_incomingEdges (h : g.Accounts rs) (hd : g.definitions[b]? = some d) :
    (g.incomingEdges b).isEmpty = isUncalled g.definitions rs d := by
  rw [Bool.eq_iff_iff, isUncalled_iff, List.isEmpty_iff, incomingEdges, List.filter_eq_nil_iff]
  constructor
  · intro hnone r hr hname
    rw [← isNone_enclosing?, Option.isNone_iff_eq_none, Option.eq_none_iff_forall_ne_some]
    intro a ha
    have hreaches : reaches g.definitions a b r = true := by simp [reaches, ha, hd, hname]
    obtain ⟨e, he, -, hcallee⟩ := h.exists_edge_iff.mpr ⟨r, hr, hreaches⟩
    exact hnone e he (beq_iff_eq.mpr hcallee)
  · intro houtside e he hcallee
    obtain ⟨r, hr, hreaches⟩ := h.exists_edge_iff.mp ⟨e, he, rfl, beq_iff_eq.mp hcallee⟩
    simp only [reaches, hd, Bool.and_eq_true, beq_iff_eq, Option.any_some] at hreaches
    have hnone := houtside r hr hreaches.2.symm
    rw [← isNone_enclosing?, hreaches.1] at hnone
    cases hnone

/-- The calls of a definition without callers are counted as calls outside of all definitions. -/
theorem Accounts.countP_name_le (h : g.Accounts rs) (hd : d ∈ g.definitions)
    (huncalled : isUncalled g.definitions rs d = true) :
    rs.countP (·.name == d.name) ≤ g.topLevelCalls := by
  rw [h.topLevelCalls]
  refine List.countP_mono_left fun r hr hname => ?_
  have hname : r.name = d.name := beq_iff_eq.mp hname
  have hknown : isKnown g.definitions r = true :=
    List.any_eq_true.mpr ⟨d, hd, beq_iff_eq.mpr hname.symm⟩
  rw [hknown, isNone_enclosing?, isUncalled_iff.mp huncalled r hr hname]
  rfl

/-! ## What is taken for dead -/

/-- Can a definition be called, and is it neither a test nor one by which programs are entered? -/
def isSuspect (extra : List String) (d : CallDefinition) : Bool :=
  d.kind.isCallable && !entryPoints.contains d.name && !extra.contains d.name && !isTest d

theorem Accounts.deadCandidates_eq (h : g.Accounts rs) (extra : List String) :
    g.deadCandidates extra =
      g.definitions.filter fun d => isSuspect extra d && isUncalled g.definitions rs d := by
  have hcongr : ∀ x ∈ g.definitions.zipIdx,
      ((g.incomingEdges x.2).isEmpty && x.1.kind.isCallable && !entryPoints.contains x.1.name &&
        !extra.contains x.1.name && !isTest x.1) =
      (isSuspect extra x.1 && isUncalled g.definitions rs x.1) := by
    intro x hx
    rw [h.isEmpty_incomingEdges (List.mem_zipIdx_iff_getElem?.mp hx), isSuspect]
    ac_rfl
  -- the test no longer looks at positions, so that they can be dropped before it
  let p := fun d => isSuspect extra d && isUncalled g.definitions rs d
  calc g.deadCandidates extra
    _ = (g.definitions.zipIdx.filter (p ∘ Prod.fst)).map Prod.fst :=
      congrArg (List.map Prod.fst) (List.filter_congr hcongr)
    _ = (g.definitions.zipIdx.map Prod.fst).filter p := List.filter_map.symm
    _ = g.definitions.filter p := by rw [List.zipIdx_map_fst]

/-- **What is taken for dead may be called, but only from outside of all definitions.** Such calls
are among those that the graph counts as outside, so that nothing with a called name is taken for
dead if there are none. -/
theorem deadCandidates_build (i : Index) (extra : List String) :
    let definitions := CallDefinition.arrange i.symbols
    let calls := i.references.filter (·.isCall)
    let dead := (build i).deadCandidates extra
    dead = definitions.filter (fun d => isSuspect extra d &&
      calls.all fun r => r.name != d.name || isOutside definitions r) ∧
    (∀ d ∈ dead, calls.countP (·.name == d.name) ≤ (build i).topLevelCalls) ∧
    ((build i).topLevelCalls = 0 → ∀ d ∈ dead, ∀ r ∈ i.references, r.isCall = true →
      r.name ≠ d.name) := by
  intro definitions calls dead
  have h : (build i).Accounts calls := accounts_build i
  have hdead : dead = _ := h.deadCandidates_eq extra
  have hcount : ∀ d ∈ dead, calls.countP (·.name == d.name) ≤ (build i).topLevelCalls := by
    intro d hd
    rw [hdead, List.mem_filter, Bool.and_eq_true] at hd
    exact h.countP_name_le hd.1 hd.2.2
  refine ⟨?_, hcount, fun hzero d hd r hr hcall hname => ?_⟩
  · rw [definitions_build] at hdead
    exact hdead
  · have hnone := hcount d hd
    rw [hzero, Nat.le_zero, List.countP_eq_zero] at hnone
    exact hnone r (List.mem_filter.mpr ⟨hr, hcall⟩) (beq_iff_eq.mpr hname)

/-- A function and, behind it, a call of it. -/
def startup : Index :=
  let boot : Symbol := ⟨⟨"a"⟩, .function, "boot", "", none, 1, 2⟩
  let call : Reference := ⟨⟨"a"⟩, "reference.call", "boot", 5, 1, 5, 5⟩
  ⟨1, ⟨"/"⟩, .epoch, [⟨⟨"a"⟩, .python, 31, 0, [], [boot], [call]⟩], []⟩

/-- A function that is called is taken for dead. -/
theorem deadCandidates_startup : ∃ d ∈ (build startup).deadCandidates [],
    ∃ r ∈ startup.references, r.isCall = true ∧ r.name = d.name := by
  let boot : CallDefinition := .ofSymbol ⟨⟨"a"⟩, .function, "boot", "", none, 1, 2⟩
  have hsplit : (boot.file.text.splitOn "/tests/").length = 1 := by
    rw [String.splitOn, if_neg (by decide), String.splitOnAux, if_neg (by decide),
      if_neg (by decide), String.splitOnAux, if_pos (by decide)]
    rfl
  have htest : isTest boot = false := by
    have hname : (boot.name.startsWith "Test" || boot.name.startsWith "test_" ||
      boot.name.startsWith "Benchmark") = false := by decide +kernel
    have hfile : boot.file.fileName.getD "" = "a" := by decide +kernel
    have hends : ("a".endsWith "_test.go" || "a".endsWith "_test.py" ||
      ("a".startsWith "test_" && "a".endsWith ".py") ||
        boot.file.text.startsWith "tests/") = false := by decide +kernel
    rw [isTest, hname, hfile, Bool.false_or, hends, hsplit]
    rfl
  have hboot : CallDefinition.arrange startup.symbols = [boot] := by decide +kernel
  refine ⟨boot, ?_, _, List.mem_singleton_self _, by decide, rfl⟩
  rw [(accounts_build startup).deadCandidates_eq, List.mem_filter, definitions_build, isSuspect,
    htest, hboot]
  exact ⟨List.mem_singleton_self _, by decide +kernel⟩

end CallGraph

end SourceAtlas
