import SourceAtlas.CallGraph.Graph
import SourceAtlas.Proofs.List.Best

/-!
# Counting calls

A call graph loses no call, counts none twice and makes none up.

* `Innermost`, **`enclosing?_eq_some_iff`**: the definition around a call;
* `CallGraph.tallyOf`, `CallGraph.IsOrdered`: edges as a table of counts;
* `CallGraph.Accounts`, `CallGraph.accounts_addCall`: what a graph says about the calls so far;
* **`CallGraph.build_accounts`**: a graph accounts for all calls of its index.
-/

namespace SourceAtlas

/-! ## The definition around a call -/

/-- Does a definition of the file of a reference hold the line of the reference? -/
def CallDefinition.isAround (d : CallDefinition) (r : Reference) : Bool :=
  d.containsLine r.startLine && d.file.same r.file

/-- The definition at a position is the innermost one around a reference: none starts later, none
that starts with it ends earlier, and none of the same extent stands behind it. -/
def Innermost (definitions : List CallDefinition) (r : Reference) (a : Nat) : Prop :=
  ∃ d, definitions[a]? = some d ∧ d.isAround r = true ∧
    ∀ b e, definitions[b]? = some e → e.isAround r = true →
      e.startLine.toNat < d.startLine.toNat ∨ (e.startLine = d.startLine ∧
        (d.endLine.toNat < e.endLine.toNat ∨ (e.endLine = d.endLine ∧ b ≤ a)))

theorem isInner_iff {a b : CallDefinition} : isInner a b = true ↔
    a.startLine.toNat < b.startLine.toNat ∨
      (a.startLine.toNat = b.startLine.toNat ∧ b.endLine.toNat ≤ a.endLine.toNat) := by
  simp [isInner, ← UInt32.toNat_inj]

/-- The definitions around a reference with their positions. -/
def around (definitions : List CallDefinition) (r : Reference) : List (CallDefinition × Nat) :=
  definitions.zipIdx.filter fun x => x.1.isAround r

theorem mem_around {definitions : List CallDefinition} {r : Reference} {d : CallDefinition}
    {a : Nat} : (d, a) ∈ around definitions r ↔ definitions[a]? = some d ∧ d.isAround r = true := by
  rw [around, List.mem_filter, List.mk_mem_zipIdx_iff_getElem?]

theorem around_pairwise (definitions : List CallDefinition) (r : Reference) :
    (around definitions r).Pairwise fun x y => x.2 < y.2 := by
  apply List.Pairwise.filter
  rw [← List.pairwise_map (f := Prod.snd), List.zipIdx_map_snd]
  exact List.pairwise_lt_range'

theorem isBetter_isInner : IsBetter (fun x y : CallDefinition × Nat => isInner x.1 y.1)
    fun best x => match best with
      | none => some x
      | some b => if isInner b.1 x.1 then some x else best where
  first _ := rfl
  later _ _ := rfl
  trans a b c := by
    simp only [isInner_iff]
    omega
  total a b := by
    simp only [Bool.or_eq_true, isInner_iff]
    omega

theorem isLastBest_iff_innermost {definitions : List CallDefinition} {r : Reference}
    {d : CallDefinition} {a : Nat} (hd : definitions[a]? = some d) :
    IsLastBest (fun x y => isInner x.1 y.1) (around definitions r) (d, a) ↔
      Innermost definitions r a := by
  have hpair := around_pairwise definitions r
  simp only [Innermost, IsLastBest, ← Bool.not_eq_true, isInner_iff, ← UInt32.toNat_inj]
  constructor
  · rintro ⟨l₁, l₂, hl, h₁, h₂⟩
    have hmem : (d, a) ∈ around definitions r := by simp [hl]
    refine ⟨d, hd, (mem_around.mp hmem).2, fun b e hb he => ?_⟩
    have hbe : (e, b) ∈ l₁ ++ (d, a) :: l₂ := hl ▸ mem_around.mpr ⟨hb, he⟩
    rw [hl, List.pairwise_append, List.pairwise_cons] at hpair
    rcases List.mem_append.mp hbe with hx | hx
    · have hba := hpair.2.2 _ hx (d, a) (by simp)
      have hle := h₁ _ hx
      dsimp only at hba hle
      omega
    · rcases List.mem_cons.mp hx with hx | hx
      · cases hx
        omega
      · have hlt := h₂ _ hx
        dsimp only at hlt
        omega
  · rintro ⟨d', hd', hdr, hbest⟩
    obtain rfl : d = d' := by simpa [hd] using hd'
    obtain ⟨l₁, l₂, hl⟩ := List.append_of_mem (mem_around.mpr ⟨hd, hdr⟩)
    have haround : ∀ x ∈ l₁ ++ (d, a) :: l₂, _ ∧ _ := fun x hx => mem_around.mp (hl ▸ hx)
    rw [hl, List.pairwise_append, List.pairwise_cons] at hpair
    refine ⟨l₁, l₂, hl, fun x hx => ?_, fun x hx => ?_⟩
    · obtain ⟨hb, he⟩ := haround x (List.mem_append_left _ hx)
      have := hbest x.2 x.1 hb he
      omega
    · obtain ⟨hb, he⟩ := haround x (List.mem_append_right _ (List.mem_cons_of_mem _ hx))
      have hax := hpair.2.1.1 x hx
      have := hbest x.2 x.1 hb he
      omega

/-- **A call is made by the innermost definition around it.** -/
theorem enclosing?_eq_some_iff {definitions : List CallDefinition} {r : Reference} {a : Nat} :
    enclosing? definitions r = some a ↔ Innermost definitions r a := by
  have hfold : ∀ x, _ ↔ _ :=
    fun x => foldl_best_eq_some_iff (l := around definitions r) (m := x) isBetter_isInner
  rw [enclosing?, Option.map_eq_some_iff]
  constructor
  · rintro ⟨⟨d, b⟩, hx, rfl⟩
    have hbest := (hfold (d, b)).mp hx
    have hd : definitions[b]? = some d := by
      obtain ⟨l₁, l₂, hl, -⟩ := hbest
      have hmem : (d, b) ∈ around definitions r := by simp [hl]
      exact (mem_around.mp hmem).1
    exact (isLastBest_iff_innermost hd).mp hbest
  · intro h
    obtain ⟨d, hd, -⟩ := id h
    exact ⟨(d, a), (hfold (d, a)).mpr ((isLastBest_iff_innermost hd).mpr h), rfl⟩

/-! ## Edges as a table of counts -/

namespace CallGraph

variable {es : List CallEdge} {a b : Nat} {e : CallEdge}

/-- The number of calls of one definition by another that edges count. -/
def tallyOf : List CallEdge → Nat → Nat → Nat
  | [], _, _ => 0
  | e :: es, a, b => (if e.caller = a ∧ e.callee = b then e.count else 0) + tallyOf es a b

/-- Edges are ordered by caller and then by callee. -/
def Before (e f : CallEdge) : Prop :=
  e.caller < f.caller ∨ (e.caller = f.caller ∧ e.callee < f.callee)

/-- Edges in order, each of which counts a call. -/
structure IsOrdered (es : List CallEdge) : Prop where
  before : es.Pairwise Before
  pos : ∀ e ∈ es, 0 < e.count

@[simp] theorem tallyOf_nil : tallyOf [] a b = 0 := rfl

@[simp] theorem tallyOf_cons : tallyOf (e :: es) a b =
    (if e.caller = a ∧ e.callee = b then e.count else 0) + tallyOf es a b := rfl

theorem tallyOf_eq_zero (h : ∀ e ∈ es, ¬ (e.caller = a ∧ e.callee = b)) : tallyOf es a b = 0 := by
  induction es with
  | nil => rfl
  | cons e es ih =>
    rw [tallyOf_cons, if_neg (h e (by simp)), ih fun f hf => h f (by simp [hf])]

theorem tallyOf_of_mem (hes : es.Pairwise Before) (he : e ∈ es) :
    tallyOf es e.caller e.callee = e.count := by
  induction es with
  | nil => cases he
  | cons f es ih =>
    rw [List.pairwise_cons] at hes
    rw [tallyOf_cons]
    rcases List.mem_cons.mp he with rfl | he
    · have hrest : tallyOf es e.caller e.callee = 0 := by
        refine tallyOf_eq_zero fun g hg hsame => ?_
        rcases hes.1 g hg with h | h <;> omega
      rw [if_pos ⟨rfl, rfl⟩, hrest, Nat.add_zero]
    · have hne : ¬ (f.caller = e.caller ∧ f.callee = e.callee) := by
        rcases hes.1 e he with h | h <;> omega
      rw [if_neg hne, ih hes.2 he, Nat.zero_add]

/-- An edge stands in an ordered list if and only if it counts all calls of its ends. -/
theorem mem_iff_tallyOf (hes : IsOrdered es) {n : Nat} :
    ⟨a, b, n⟩ ∈ es ↔ 0 < n ∧ n = tallyOf es a b := by
  constructor
  · intro h
    exact ⟨hes.pos _ h, (tallyOf_of_mem hes.before h).symm⟩
  · rintro ⟨hpos, rfl⟩
    by_cases hex : ∃ e ∈ es, e.caller = a ∧ e.callee = b
    · obtain ⟨e, he, rfl, rfl⟩ := hex
      rwa [tallyOf_of_mem hes.before he]
    · have hzero : tallyOf es a b = 0 := tallyOf_eq_zero fun e he h => hex ⟨e, he, h⟩
      omega

theorem IsOrdered.nodup (hes : IsOrdered es) : (es.map fun e => (e.caller, e.callee)).Nodup := by
  rw [List.Nodup, List.pairwise_map]
  refine hes.before.imp fun {e f} h hsame => ?_
  rw [Prod.mk.injEq] at hsame
  rcases h with h | h <;> omega

/-! ## One more call -/

theorem tallyOf_addEdge (c d : Nat) : tallyOf (addEdge c d es) a b =
    tallyOf es a b + if c = a ∧ d = b then 1 else 0 := by
  induction es with
  | nil => simp [addEdge]
  | cons e es ih =>
    unfold addEdge
    split_ifs with hsame hless
    all_goals simp only [tallyOf_cons, ih]
    all_goals split_ifs <;> omega

theorem ends_of_mem_addEdge {c d : Nat} (h : e ∈ addEdge c d es) :
    (e.caller = c ∧ e.callee = d) ∨ ∃ f ∈ es, f.caller = e.caller ∧ f.callee = e.callee := by
  induction es with
  | nil =>
    rw [addEdge, List.mem_singleton] at h
    exact .inl (by simp [h])
  | cons f es ih =>
    unfold addEdge at h
    split_ifs at h with hsame hless
    · rcases List.mem_cons.mp h with rfl | h
      · exact .inl hsame
      · exact .inr ⟨e, by simp [h], rfl, rfl⟩
    · rcases List.mem_cons.mp h with rfl | h
      · exact .inl ⟨rfl, rfl⟩
      · exact .inr ⟨e, h, rfl, rfl⟩
    · rcases List.mem_cons.mp h with rfl | h
      · exact .inr ⟨e, by simp, rfl, rfl⟩
      · rcases ih h with h | ⟨g, hg, h⟩
        · exact .inl h
        · exact .inr ⟨g, by simp [hg], h⟩

theorem pos_addEdge (c d : Nat) (hpos : ∀ e ∈ es, 0 < e.count) :
    ∀ e ∈ addEdge c d es, 0 < e.count := by
  induction es with
  | nil => simp [addEdge]
  | cons e es ih =>
    rw [List.forall_mem_cons] at hpos
    unfold addEdge
    split_ifs
    · exact List.forall_mem_cons.mpr ⟨Nat.succ_pos _, hpos.2⟩
    · exact List.forall_mem_cons.mpr ⟨Nat.one_pos, List.forall_mem_cons.mpr hpos⟩
    · exact List.forall_mem_cons.mpr ⟨hpos.1, ih hpos.2⟩

theorem pairwise_addEdge (c d : Nat) (hes : es.Pairwise Before) :
    (addEdge c d es).Pairwise Before := by
  induction es with
  | nil => simp [addEdge]
  | cons e es ih =>
    have hcons := List.pairwise_cons.mp hes
    unfold addEdge
    split_ifs with hsame hless
    · exact List.pairwise_cons.mpr hcons
    · refine List.pairwise_cons.mpr ⟨List.forall_mem_cons.mpr ⟨hless, fun f hf => ?_⟩, hes⟩
      have hef := hcons.1 f hf
      unfold Before at hef ⊢
      dsimp only
      omega
    · refine List.pairwise_cons.mpr ⟨fun f hf => ?_, ih hcons.2⟩
      -- the edge that is new or grown has the ends `c` and `d`, which lie behind those of `e`
      rcases ends_of_mem_addEdge hf with hends | ⟨f', hf', hends⟩
      · unfold Before
        omega
      · have hef := hcons.1 f' hf'
        unfold Before at hef ⊢
        omega

theorem isOrdered_addEdge (c d : Nat) (hes : IsOrdered es) : IsOrdered (addEdge c d es) :=
  ⟨pairwise_addEdge c d hes.before, pos_addEdge c d hes.pos⟩

theorem isOrdered_addEdges (c : Nat) (ds : List Nat) (hes : IsOrdered es) :
    IsOrdered (ds.foldl (fun es d => addEdge c d es) es) := by
  induction ds generalizing es with
  | nil => exact hes
  | cons d ds ih => exact ih (isOrdered_addEdge c d hes)

theorem tallyOf_addEdges (c : Nat) (ds : List Nat) :
    tallyOf (ds.foldl (fun es d => addEdge c d es) es) a b =
      tallyOf es a b + if c = a then ds.count b else 0 := by
  induction ds generalizing es with
  | nil => simp
  | cons d ds ih =>
    rw [List.foldl_cons, ih, tallyOf_addEdge, List.count_cons]
    by_cases hc : c = a <;> by_cases hd : d = b <;> simp [hc, hd]
    omega

/-! ## What a graph says about calls -/

/-- Does a definition have the called name? -/
def isKnown (definitions : List CallDefinition) (r : Reference) : Bool :=
  definitions.any (·.name == r.name)

/-- Is a reference made by the definition at `a`, and has the definition at `b` its name? -/
def reaches (definitions : List CallDefinition) (a b : Nat) (r : Reference) : Bool :=
  enclosing? definitions r == some a && definitions[b]?.any (·.name == r.name)

/-- The record of a call of an unknown name. -/
def unresolvedCall (definitions : List CallDefinition) (r : Reference) : UnresolvedCall where
  caller := enclosing? definitions r
  file := r.file
  name := r.name
  line := r.startLine
  column := r.startColumn

/-- A graph accounts for a list of calls: it counts each of them once, as an unresolved one, as one
outside of all definitions, or as one of the definition around it. -/
structure Accounts (g : CallGraph) (rs : List Reference) : Prop where
  callSites : g.callSites = rs.length
  unresolved : g.unresolved =
    (rs.filter fun r => !isKnown g.definitions r).map (unresolvedCall g.definitions)
  topLevelCalls : g.topLevelCalls =
    rs.countP fun r => isKnown g.definitions r && (enclosing? g.definitions r).isNone
  ordered : IsOrdered g.edges
  tally : ∀ a b, tallyOf g.edges a b = rs.countP (reaches g.definitions a b)

theorem mem_positions {p : CallDefinition → Bool} {definitions : List CallDefinition} :
    b ∈ positions p definitions ↔ definitions[b]?.any p = true := by
  simp only [positions, List.mem_map, List.mem_filter, Prod.exists, List.mk_mem_zipIdx_iff_getElem?,
    Option.any_eq_true]
  constructor
  · rintro ⟨d, c, ⟨hd, hp⟩, rfl⟩
    exact ⟨d, hd, hp⟩
  · rintro ⟨d, hd, hp⟩
    exact ⟨d, b, ⟨hd, hp⟩, rfl⟩

theorem nodup_positions (p : CallDefinition → Bool) (definitions : List CallDefinition) :
    (positions p definitions).Nodup := by
  have hsub : (positions p definitions).Sublist (definitions.zipIdx.map Prod.snd) :=
    List.filter_sublist.map _
  rw [List.zipIdx_map_snd] at hsub
  exact hsub.nodup List.nodup_range'

theorem count_positions (p : CallDefinition → Bool) (definitions : List CallDefinition) (b : Nat) :
    (positions p definitions).count b = if definitions[b]?.any p then 1 else 0 := by
  rw [(nodup_positions p definitions).count]
  simp only [mem_positions]

theorem isEmpty_positions (r : Reference) (definitions : List CallDefinition) :
    (positions (·.name == r.name) definitions).isEmpty = !isKnown definitions r := by
  rw [Bool.eq_iff_iff, List.isEmpty_iff, List.eq_nil_iff_forall_not_mem]
  simp only [mem_positions, isKnown, Bool.not_eq_true', List.any_eq_false]
  constructor
  · intro h d hd
    obtain ⟨b, hb⟩ := List.mem_iff_getElem?.mp hd
    simpa [hb] using h b
  · intro h b hb
    obtain ⟨d, hd, hname⟩ := (Option.any_eq_true _ _).mp hb
    exact h d (List.mem_of_getElem? hd) hname

@[simp] theorem definitions_addCall (g : CallGraph) (r : Reference) :
    (g.addCall r).definitions = g.definitions := by
  unfold addCall
  dsimp only
  split
  · rfl
  · split <;> rfl

theorem reaches_of_unknown {definitions : List CallDefinition} {r : Reference}
    (h : isKnown definitions r = false) : reaches definitions a b r = false := by
  have hempty : (positions (·.name == r.name) definitions).isEmpty = true := by
    rw [isEmpty_positions, h]
    rfl
  have hb : b ∉ positions (·.name == r.name) definitions := by
    simp [List.isEmpty_iff.mp hempty]
  rw [mem_positions, Bool.not_eq_true] at hb
  rw [reaches, hb, Bool.and_false]

/-- A graph that accounts for calls accounts for one more after adding it. -/
theorem accounts_addCall {g : CallGraph} {rs : List Reference} (h : g.Accounts rs)
    (r : Reference) : (g.addCall r).Accounts (rs ++ [r]) := by
  have hempty := isEmpty_positions r g.definitions
  obtain ⟨hsites, hunres, htop, hord, htally⟩ := h
  unfold addCall
  dsimp only
  cases hknown : isKnown g.definitions r with
  | false =>
    -- the call joins the unresolved ones
    rw [hknown] at hempty
    rw [if_pos (by simpa using hempty)]
    refine ⟨?_, ?_, ?_, hord, fun a b => ?_⟩
    · simp [hsites]
    · simp [hunres, hknown, unresolvedCall]
    · simp [htop, hknown]
    · simp [htally, List.countP_append, reaches_of_unknown hknown]
  | true =>
    rw [hknown] at hempty
    rw [if_neg (by simpa using hempty)]
    cases hcaller : enclosing? g.definitions r with
    | none =>
      refine ⟨?_, ?_, ?_, hord, fun a b => ?_⟩
      · simp [hsites]
      · simp [hunres, hknown]
      · simp [htop, hknown, hcaller]
      · simp [htally, List.countP_append, reaches, hcaller]
    | some c =>
      refine ⟨?_, ?_, ?_, isOrdered_addEdges c _ hord, fun a b => ?_⟩
      · simp [hsites]
      · simp [hunres, hknown]
      · simp [htop, hknown, hcaller]
      · rw [tallyOf_addEdges, htally, count_positions, List.countP_append]
        by_cases hc : c = a <;> simp [reaches, hcaller, hc, List.countP_cons]

theorem accounts_addCalls {g : CallGraph} {rs : List Reference} (h : g.Accounts rs)
    (more : List Reference) : (more.foldl addCall g).Accounts (rs ++ more) := by
  induction more generalizing g rs with
  | nil => simpa using h
  | cons r more ih => simpa using ih (accounts_addCall h r)

@[simp] theorem definitions_addCalls (g : CallGraph) (rs : List Reference) :
    (rs.foldl addCall g).definitions = g.definitions := by
  induction rs generalizing g with
  | nil => rfl
  | cons r rs ih => rw [List.foldl_cons, ih, definitions_addCall]

@[simp] theorem definitions_build (i : Index) :
    (build i).definitions = CallDefinition.arrange i.symbols :=
  definitions_addCalls _ _

theorem accounts_build (i : Index) : (build i).Accounts (i.references.filter (·.isCall)) := by
  have hstart : Accounts ⟨CallDefinition.arrange i.symbols, [], [], 0, 0⟩ [] :=
    ⟨rfl, rfl, rfl, ⟨.nil, by simp⟩, fun _ _ => rfl⟩
  exact accounts_addCalls hstart _

theorem countP_reaches_le (definitions : List CallDefinition) (rs : List Reference) (a b : Nat) :
    (rs.filter (·.isCall)).countP (reaches definitions a b) ≤ rs.length :=
  Nat.le_trans List.countP_le_length (List.length_filter_le _ rs)

/-- Calls are unresolved, outside of all definitions, or made by one. -/
theorem Accounts.length_eq {g : CallGraph} {rs : List Reference} (h : g.Accounts rs) :
    rs.length = g.unresolved.length + g.topLevelCalls +
      rs.countP fun r => isKnown g.definitions r && (enclosing? g.definitions r).isSome := by
  rw [h.unresolved, h.topLevelCalls, List.length_map]
  clear h
  induction rs with
  | nil => rfl
  | cons r rs ih =>
    rw [List.length_cons, ih, List.filter_cons, List.countP_cons, List.countP_cons]
    cases isKnown g.definitions r <;> cases enclosing? g.definitions r <;> simp <;> omega

/-- An edge joins two definitions if and only if one of them makes a call of the other's name. -/
theorem Accounts.exists_edge_iff {g : CallGraph} {rs : List Reference} (h : g.Accounts rs) :
    (∃ e ∈ g.edges, e.caller = a ∧ e.callee = b) ↔
      ∃ r ∈ rs, reaches g.definitions a b r = true := by
  rw [← List.countP_pos_iff, ← h.tally]
  constructor
  · rintro ⟨e, he, rfl, rfl⟩
    rw [tallyOf_of_mem h.ordered.before he]
    exact h.ordered.pos e he
  · intro hpos
    exact ⟨_, (mem_iff_tallyOf h.ordered).mpr ⟨hpos, rfl⟩, rfl, rfl⟩

theorem ends_lt_of_mem_build {i : Index} (he : e ∈ (build i).edges) :
    e.caller < (build i).definitions.length ∧ e.callee < (build i).definitions.length := by
  obtain ⟨r, -, hr⟩ := (accounts_build i).exists_edge_iff.mp ⟨e, he, rfl, rfl⟩
  rw [reaches, Bool.and_eq_true, beq_iff_eq, Option.any_eq_true] at hr
  obtain ⟨d, hd, -⟩ := enclosing?_eq_some_iff.mp hr.1
  obtain ⟨f, hf, -⟩ := hr.2
  exact ⟨(List.getElem?_eq_some_iff.mp hd).1, (List.getElem?_eq_some_iff.mp hf).1⟩

/-- **A graph loses no call, counts none twice and makes none up.** An edge counts the calls that
the definition at one end makes of the name of the other, where a call is made by the innermost
definition around it. The calls of unknown names are kept in order, and each call is an unresolved
one, one outside of all definitions, or one made by a definition. -/
theorem build_accounts (i : Index) :
    let g := build i
    let calls := i.references.filter (·.isCall)
    g.definitions = CallDefinition.arrange i.symbols ∧
    (∀ r a, enclosing? g.definitions r = some a ↔ Innermost g.definitions r a) ∧
    (∀ a b n, ⟨a, b, n⟩ ∈ g.edges ↔ 0 < n ∧ n = calls.countP (reaches g.definitions a b)) ∧
    (g.edges.map fun e => (e.caller, e.callee)).Nodup ∧
    (∀ e ∈ g.edges, e.count ≤ i.references.length) ∧
    g.unresolved =
      (calls.filter fun r => !isKnown g.definitions r).map (unresolvedCall g.definitions) ∧
    g.callSites = calls.length ∧
    g.topLevelCalls =
      (calls.countP fun r => isKnown g.definitions r && (enclosing? g.definitions r).isNone) ∧
    g.callSites = g.unresolved.length + g.topLevelCalls +
      calls.countP fun r => isKnown g.definitions r && (enclosing? g.definitions r).isSome := by
  intro g calls
  have h : g.Accounts calls := accounts_build i
  refine ⟨definitions_build i, fun _ _ => enclosing?_eq_some_iff, fun a b n => ?_,
    h.ordered.nodup, fun e he => ?_, h.unresolved, h.callSites, h.topLevelCalls, ?_⟩
  · rw [← h.tally, mem_iff_tallyOf h.ordered]
  · rw [← tallyOf_of_mem h.ordered.before he, h.tally]
    exact countP_reaches_le _ _ _ _
  · rw [h.callSites, h.length_eq]

end CallGraph

end SourceAtlas
