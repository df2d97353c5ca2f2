import SourceAtlas.CallGraph.Query
import SourceAtlas.Proofs.CallGraph.Count
import SourceAtlas.Proofs.DefinitionId.Encoding
import SourceAtlas.Proofs.List.Sort
import SourceAtlas.Proofs.Summary.Normal

/-!
# The definitions of a call graph

The definitions of an index are sorted, and those that follow one with the same id are left out.
If ids tell symbols apart, that leaves the first symbol for each id.

* `CallDefinition.find?_dropRepeats`, `CallDefinition.pairwise_dropRepeats`,
  `CallDefinition.dropRepeats_append`: leaving out repeats;
* `Symbol.IsPlain`, `CallDefinition.find?_arrange`, `CallDefinition.any_name_arrange`,
  `CallDefinition.arrange_append`: the definitions of symbols;
* `CallGraph.position?_eq_some_iff`, `CallGraph.definition?_eq_find?`: definitions by id;
* **`CallGraph.definitions_canonical`**: the definitions of an index.
-/

namespace SourceAtlas

open Std

namespace CallDefinition

variable {l m : List CallDefinition} {a b d : CallDefinition} {id last : DefinitionId}

/-! ## The order of definitions -/

instance : TransCmp CallDefinition.compare :=
  inferInstanceAs <| TransCmp <|
    compareLex (compareOn fun a : CallDefinition => a.file.components) <|
    compareLex (compareOn fun a => a.startLine.toNat) <|
    compareLex (compareOn fun a => a.name) (compareOn fun a => a.kind.rank)

/-- The order tells everything apart but spellings of one path. -/
theorem compare_eq_iff : a.compare b = .eq ↔
    a.file.same b.file = true ∧ a.startLine = b.startLine ∧ a.name = b.name ∧ a.kind = b.kind := by
  have hkind : a.kind.rank = b.kind.rank ↔ a.kind = b.kind :=
    ⟨SymbolKind.rank_inj, congrArg _⟩
  simp only [compare, Path.compare, Ordering.then_eq_eq, Std.compare_eq_iff_eq, Path.same_iff,
    UInt32.toNat_inj, hkind]

theorem compare_of_file (h : a.file.compare b.file = .lt) : a.compare b = .lt := by
  simp [compare, h]

/-! ## Leaving out repeats -/

theorem sublist_after (last : DefinitionId) (l : List CallDefinition) :
    (dropRepeats.after last l).Sublist l := by
  induction l generalizing last with
  | nil => exact .slnil
  | cons d l ih =>
    rw [dropRepeats.after]
    split_ifs
    · exact (ih last).cons d
    · exact (ih d.id).cons_cons d

theorem dropRepeats_sublist (l : List CallDefinition) : (dropRepeats l).Sublist l := by
  cases l with
  | nil => exact .slnil
  | cons d l => exact (sublist_after d.id l).cons_cons d

theorem find?_after (h : last ≠ id) :
    (dropRepeats.after last l).find? (·.id == id) = l.find? (·.id == id) := by
  induction l generalizing last with
  | nil => rfl
  | cons d l ih =>
    rw [dropRepeats.after]
    by_cases hd : d.id = id
    · rw [if_neg (hd ▸ h.symm)]
      simp [hd]
    · split_ifs
      · simp [hd, ih h]
      · simp [hd, ih hd]

theorem find?_dropRepeats (l : List CallDefinition) (id : DefinitionId) :
    (dropRepeats l).find? (·.id == id) = l.find? (·.id == id) := by
  cases l with
  | nil => rfl
  | cons d l =>
    rw [dropRepeats]
    by_cases hd : d.id = id
    · simp [hd]
    · simp [hd, find?_after hd]

theorem lt_of_mem_after (hd : ∀ e ∈ l, (d.compare e != .gt) = true)
    (sorted : l.Pairwise fun a b => (a.compare b != .gt) = true)
    (apart : ∀ e ∈ l, d.compare e = .eq → e.id = d.id) :
    ∀ e ∈ dropRepeats.after d.id l, d.compare e = .lt := by
  induction l with
  | nil => simp [dropRepeats.after]
  | cons a l ih =>
    rw [List.forall_mem_cons] at hd apart
    rw [List.pairwise_cons] at sorted
    rw [dropRepeats.after]
    split_ifs with ha
    · exact ih hd.2 sorted.2 apart.2
    · -- `a` comes strictly after `d`, and everything behind `a` does not come before it
      have hlt : d.compare a = .lt := by
        cases h : d.compare a with
        | lt => rfl
        | eq => exact absurd (apart.1 h) ha
        | gt => simp [h] at hd
      refine List.forall_mem_cons.mpr ⟨hlt, fun e he => ?_⟩
      have hle := sorted.1 e ((sublist_after _ _).subset he)
      exact TransCmp.lt_of_lt_of_isLE hlt (isLE_iff_ne_gt.mpr hle)

theorem pairwise_after (last : DefinitionId)
    (sorted : l.Pairwise fun a b => (a.compare b != .gt) = true)
    (apart : ∀ a ∈ l, ∀ b ∈ l, a.compare b = .eq → b.id = a.id) :
    (dropRepeats.after last l).Pairwise fun a b => a.compare b = .lt := by
  induction l generalizing last with
  | nil => exact .nil
  | cons d l ih =>
    have hrest : ∀ a ∈ l, ∀ b ∈ l, a.compare b = .eq → b.id = a.id := fun a ha b hb =>
      apart a (List.mem_cons_of_mem d ha) b (List.mem_cons_of_mem d hb)
    have hd : ∀ e ∈ l, d.compare e = .eq → e.id = d.id := fun e he =>
      apart d List.mem_cons_self e (List.mem_cons_of_mem d he)
    rw [List.pairwise_cons] at sorted
    rw [dropRepeats.after]
    split_ifs
    · exact ih last sorted.2 hrest
    · exact .cons (lt_of_mem_after sorted.1 sorted.2 hd) (ih d.id sorted.2 hrest)

/-- What is left of sorted definitions increases, if the order tells different ids apart. -/
theorem pairwise_dropRepeats (sorted : l.Pairwise fun a b => (a.compare b != .gt) = true)
    (apart : ∀ a ∈ l, ∀ b ∈ l, a.compare b = .eq → b.id = a.id) :
    (dropRepeats l).Pairwise fun a b => a.compare b = .lt := by
  cases l with
  | nil => exact .nil
  | cons d l =>
    have hd : ∀ e ∈ l, d.compare e = .eq → e.id = d.id := fun e he =>
      apart d List.mem_cons_self e (List.mem_cons_of_mem d he)
    rw [List.pairwise_cons] at sorted
    refine .cons (lt_of_mem_after sorted.1 sorted.2 hd) (pairwise_after d.id sorted.2 ?_)
    exact fun a ha b hb => apart a (List.mem_cons_of_mem d ha) b (List.mem_cons_of_mem d hb)

theorem after_append (hlast : ∀ b ∈ m, b.id ≠ last) (h : ∀ a ∈ l, ∀ b ∈ m, b.id ≠ a.id) :
    dropRepeats.after last (l ++ m) = dropRepeats.after last l ++ dropRepeats m := by
  induction l generalizing last with
  | nil =>
    cases m with
    | nil => rfl
    | cons b m => exact if_neg (hlast b List.mem_cons_self)
  | cons d l ih =>
    rw [List.forall_mem_cons] at h
    rw [List.cons_append, dropRepeats.after, dropRepeats.after, ih hlast h.2, ih h.1 h.2]
    split_ifs <;> rfl

theorem dropRepeats_append (h : ∀ a ∈ l, ∀ b ∈ m, b.id ≠ a.id) :
    dropRepeats (l ++ m) = dropRepeats l ++ dropRepeats m := by
  cases l with
  | nil => rfl
  | cons d l =>
    rw [List.forall_mem_cons] at h
    rw [List.cons_append, dropRepeats, dropRepeats, after_append h.1 h.2, List.cons_append]

end CallDefinition

/-! ## The definitions of symbols -/

/-- A symbol whose file and name can be told from its id. -/
structure Symbol.IsPlain (s : Symbol) : Prop where
  file : SourceAtlas.IsPlain s.file.text
  name : SourceAtlas.IsPlain s.name

instance (s : Symbol) : Decidable s.IsPlain :=
  decidable_of_iff (IsPlain s.file.text ∧ IsPlain s.name)
    ⟨fun h => ⟨h.1, h.2⟩, fun h => ⟨h.file, h.name⟩⟩

namespace CallDefinition

variable {symbols more : List Symbol} {s t : Symbol} {d : CallDefinition} {id : DefinitionId}

theorem id_inj (hs : s.IsPlain) (ht : t.IsPlain) (h : (ofSymbol s).id = (ofSymbol t).id) :
    s.file = t.file ∧ s.kind = t.kind ∧ s.name = t.name ∧ s.startLine = t.startLine :=
  DefinitionId.make_inj hs.file hs.name ht.file ht.name h

theorem compare_of_id (hs : s.IsPlain) (ht : t.IsPlain) (h : (ofSymbol s).id = (ofSymbol t).id) :
    (ofSymbol s).compare (ofSymbol t) = .eq := by
  obtain ⟨hfile, hkind, hname, hline⟩ := id_inj hs ht h
  exact compare_eq_iff.mpr ⟨by rw [Path.same_iff]; exact congrArg _ hfile, hline, hname, hkind⟩

theorem exists_of_mem_arrange (hd : d ∈ arrange symbols) : ∃ s ∈ symbols, ofSymbol s = d := by
  have hsorted := (dropRepeats_sublist _).subset hd
  exact List.mem_map.mp (List.mem_mergeSort.mp hsorted)

/-- The definition of an id is that of the first symbol with the id. -/
theorem find?_arrange (hplain : ∀ s ∈ symbols, s.IsPlain) (id : DefinitionId) :
    (arrange symbols).find? (·.id == id) = (symbols.map ofSymbol).find? (·.id == id) := by
  have hsame : ((symbols.map ofSymbol).filter (·.id == id)).Pairwise
      fun a b => (a.compare b != .gt) = true := by
    refine List.pairwise_of_forall_mem_list fun a ha b hb => ?_
    obtain ⟨hmema, hida⟩ := List.mem_filter.mp ha
    obtain ⟨hmemb, hidb⟩ := List.mem_filter.mp hb
    obtain ⟨s, hs, rfl⟩ := List.mem_map.mp hmema
    obtain ⟨t, ht, rfl⟩ := List.mem_map.mp hmemb
    have hid := (beq_iff_eq.mp hida).trans (beq_iff_eq.mp hidb).symm
    rw [compare_of_id (hplain s hs) (hplain t ht) hid]
    rfl
  -- sorting keeps the order of the definitions with one id
  rw [arrange, find?_dropRepeats, ← List.head?_filter, filter_mergeSort ne_gt_trans ne_gt_total,
    List.mergeSort_of_pairwise hsame, List.head?_filter]

theorem any_name_arrange (hplain : ∀ s ∈ symbols, s.IsPlain) (n : String) :
    (arrange symbols).any (·.name == n) = symbols.any (·.name == n) := by
  rw [Bool.eq_iff_iff, List.any_eq_true, List.any_eq_true]
  constructor
  · rintro ⟨d, hd, hname⟩
    obtain ⟨s, hs, rfl⟩ := exists_of_mem_arrange hd
    exact ⟨s, hs, hname⟩
  · rintro ⟨s, hs, hname⟩
    have hfound : ((arrange symbols).find? (·.id == (ofSymbol s).id)).isSome = true := by
      rw [find?_arrange hplain]
      exact List.find?_isSome.mpr ⟨_, List.mem_map_of_mem hs, beq_self_eq_true _⟩
    obtain ⟨d, hd⟩ := Option.isSome_iff_exists.mp hfound
    have hmem := List.mem_of_find?_eq_some hd
    have hid : d.id = (ofSymbol s).id := by simpa using List.find?_some hd
    obtain ⟨t, ht, rfl⟩ := exists_of_mem_arrange hmem
    obtain ⟨-, -, hsame, -⟩ := id_inj (hplain t ht) (hplain s hs) hid
    exact ⟨_, hmem, by simpa [ofSymbol, hsame] using hname⟩

theorem pairwise_arrange
    (hspelled : ∀ s ∈ symbols, ∀ t ∈ symbols, s.file.same t.file = true → s.file = t.file) :
    (arrange symbols).Pairwise fun a b => a.compare b = .lt := by
  refine pairwise_dropRepeats (List.pairwise_mergeSort ne_gt_trans ne_gt_total _) ?_
  intro a ha b hb hab
  obtain ⟨s, hs, rfl⟩ := List.mem_map.mp (List.mem_mergeSort.mp ha)
  obtain ⟨t, ht, rfl⟩ := List.mem_map.mp (List.mem_mergeSort.mp hb)
  obtain ⟨hfile, hline, hname, hkind⟩ := compare_eq_iff.mp hab
  have hfile : s.file = t.file := hspelled s hs t ht hfile
  simp only [ofSymbol] at hline hname hkind ⊢
  rw [hfile, hline, hname, hkind]

theorem nodup_arrange (hplain : ∀ s ∈ symbols, s.IsPlain)
    (h : (arrange symbols).Pairwise fun a b => a.compare b = .lt) :
    ((arrange symbols).map (·.id)).Nodup := by
  rw [List.Nodup, List.pairwise_map]
  refine h.imp_of_mem fun {a b} ha hb hlt hid => ?_
  obtain ⟨s, hs, rfl⟩ := exists_of_mem_arrange ha
  obtain ⟨t, ht, rfl⟩ := exists_of_mem_arrange hb
  rw [compare_of_id (hplain s hs) (hplain t ht) hid] at hlt
  cases hlt

theorem arrange_of_pairwise
    (h : (symbols.map ofSymbol).Pairwise fun a b => (a.compare b != .gt) = true) :
    arrange symbols = dropRepeats (symbols.map ofSymbol) := by
  rw [arrange, List.mergeSort_of_pairwise h]

theorem arrange_append (hsymbols : ∀ s ∈ symbols, s.IsPlain) (hmore : ∀ t ∈ more, t.IsPlain)
    (h : ∀ s ∈ symbols, ∀ t ∈ more, s.file.compare t.file = .lt) :
    arrange (symbols ++ more) = arrange symbols ++ arrange more := by
  have hlt : ∀ a ∈ symbols.map ofSymbol, ∀ b ∈ more.map ofSymbol, a.compare b = .lt := by
    intro a ha b hb
    obtain ⟨s, hs, rfl⟩ := List.mem_map.mp ha
    obtain ⟨t, ht, rfl⟩ := List.mem_map.mp hb
    exact compare_of_file (h s hs t ht)
  rw [arrange, List.map_append, mergeSort_append ne_gt_trans ne_gt_total fun a ha b hb => by
    rw [hlt a ha b hb]; rfl]
  refine dropRepeats_append fun a ha b hb hid => ?_
  rw [List.mem_mergeSort] at ha hb
  obtain ⟨s, hs, rfl⟩ := List.mem_map.mp ha
  obtain ⟨t, ht, rfl⟩ := List.mem_map.mp hb
  have hcmp := hlt _ ha _ hb
  rw [compare_of_id (hsymbols s hs) (hmore t ht) hid.symm] at hcmp
  cases hcmp

end CallDefinition

/-! ## Definitions by id -/

namespace CallGraph

variable {g : CallGraph} {id : DefinitionId} {d : CallDefinition}

theorem position?_eq_some_iff (hids : (g.definitions.map (·.id)).Nodup) {id : DefinitionId}
    {j : Nat} : g.position? id = some j ↔ ∃ d, g.definitions[j]? = some d ∧ d.id = id := by
  have hmem : ∀ i, i ∈ positions (·.id == id) g.definitions ↔
      ∃ d, g.definitions[i]? = some d ∧ d.id = id := by
    intro i
    simp only [mem_positions, Option.any_eq_true, beq_iff_eq]
  rw [position?, ← hmem]
  refine ⟨List.mem_of_getLast?, fun hj => ?_⟩
  have hne := List.ne_nil_of_mem hj
  obtain ⟨d, hd, hdid⟩ := (hmem j).mp hj
  obtain ⟨e, he, heid⟩ := (hmem _).mp (List.getLast_mem hne)
  have hlt : j < (g.definitions.map (·.id)).length := by
    rw [List.length_map]
    exact (List.getElem?_eq_some_iff.mp hd).1
  have hsame : (g.definitions.map (·.id))[j]? =
      (g.definitions.map (·.id))[(positions (·.id == id) g.definitions).getLast hne]? := by
    rw [List.getElem?_map, List.getElem?_map, hd, he, Option.map_some, Option.map_some, hdid, heid]
  rw [List.getLast?_eq_some_getLast hne]
  exact congrArg some ((List.getElem?_inj hlt hids).mp hsame).symm

theorem find?_id_eq_some_iff {l : List CallDefinition} (hids : (l.map (·.id)).Nodup) :
    l.find? (·.id == id) = some d ↔ d ∈ l ∧ d.id = id := by
  constructor
  · intro h
    exact ⟨List.mem_of_find?_eq_some h, by simpa using List.find?_some h⟩
  · rintro ⟨hd, rfl⟩
    obtain ⟨e, he⟩ := Option.isSome_iff_exists.mp
      (List.find?_isSome.mpr ⟨d, hd, beq_self_eq_true d.id⟩ : (l.find? (·.id == d.id)).isSome)
    have hid : e.id = d.id := by simpa using List.find?_some he
    rw [he, List.inj_on_of_nodup_map hids (List.mem_of_find?_eq_some he) hd hid]

theorem definition?_eq_find? (hids : (g.definitions.map (·.id)).Nodup) (id : DefinitionId) :
    g.definition? id = g.definitions.find? (·.id == id) := by
  ext d
  rw [find?_id_eq_some_iff hids, definition?, Option.bind_eq_some_iff]
  simp only [position?_eq_some_iff hids, at?]
  constructor
  · rintro ⟨j, ⟨e, he, rfl⟩, hd⟩
    obtain rfl : e = d := by simpa [he] using hd
    exact ⟨List.mem_of_getElem? hd, rfl⟩
  · rintro ⟨hd, rfl⟩
    obtain ⟨j, hj⟩ := List.mem_iff_getElem?.mp hd
    exact ⟨j, ⟨d, hj, rfl⟩, hj⟩

/-- Where ids tell symbols apart and no path is spelled in two ways, ids are distinct. -/
theorem nodup_ids_build {i : Index} (hplain : ∀ s ∈ i.symbols, s.IsPlain)
    (hspelled : ∀ s ∈ i.symbols, ∀ t ∈ i.symbols, s.file.same t.file = true → s.file = t.file) :
    ((build i).definitions.map (·.id)).Nodup := by
  rw [definitions_build]
  exact CallDefinition.nodup_arrange hplain (CallDefinition.pairwise_arrange hspelled)

/-- The definition of the first symbol with an id. -/
def firstDefinition? (i : Index) (id : DefinitionId) : Option CallDefinition :=
  (i.symbols.find? fun s => DefinitionId.make s.file s.kind s.name s.startLine == id).map .ofSymbol

/-- **The definitions of a graph are canonical.** They increase by file, first line, name and kind.
There is one definition for each id that a symbol has, that of the first symbol with the id, and the
id leads to it. The definitions with a name are found in their order. -/
theorem definitions_canonical (i : Index) (hplain : ∀ s ∈ i.symbols, s.IsPlain)
    (hspelled : ∀ s ∈ i.symbols, ∀ t ∈ i.symbols, s.file.same t.file = true → s.file = t.file) :
    let g := build i
    g.definitions.Pairwise (fun a b => a.compare b = .lt) ∧
    (g.definitions.map (·.id)).Nodup ∧
    (∀ d, d ∈ g.definitions ↔ firstDefinition? i d.id = some d) ∧
    (∀ id, g.definition? id = firstDefinition? i id) ∧
    ∀ n, ∃ ds, g.find n false = .ok ds ∧ ds.Sublist g.definitions ∧
      ∀ d, d ∈ ds ↔ d ∈ g.definitions ∧ d.name = n := by
  intro g
  have hdefs : g.definitions = CallDefinition.arrange i.symbols := definitions_build i
  have hlt : g.definitions.Pairwise fun a b => a.compare b = .lt := by
    rw [hdefs]
    exact CallDefinition.pairwise_arrange hspelled
  have hids : (g.definitions.map (·.id)).Nodup := nodup_ids_build hplain hspelled
  have hfirst : ∀ id, g.definitions.find? (·.id == id) = firstDefinition? i id := by
    intro id
    rw [hdefs, CallDefinition.find?_arrange hplain, List.find?_map]
    rfl
  refine ⟨hlt, hids, fun d => ?_, fun id => ?_, fun n => ?_⟩
  · rw [← hfirst, find?_id_eq_some_iff hids]
    simp
  · rw [definition?_eq_find? hids, hfirst]
  · refine ⟨g.definitions.filter (·.name == n), rfl, List.filter_sublist, fun d => ?_⟩
    rw [List.mem_filter, beq_iff_eq]

/-- Two files in the wrong order, with two symbols that have one id. -/
def overloads : Index :=
  let symbol (file name signature : String) (line : UInt32) : Symbol :=
    ⟨⟨file⟩, .function, name, signature, none, line, line⟩
  let summary (file : String) (symbols : List Symbol) : Summary :=
    ⟨⟨file⟩, .python, 50, 0, [], symbols, []⟩
  ⟨1, ⟨"/"⟩, .epoch, [summary "b" [symbol "b" "g" "g()" 1],
    summary "a" [symbol "a" "f" "f(x)" 7, symbol "a" "f" "f(y)" 7, symbol "a" "e" "e()" 1]], []⟩

/-- The first of the two symbols is the one that the id leads to. -/
theorem definitions_canonical_overloads :
    (∀ s ∈ overloads.symbols, s.IsPlain) ∧
    (∀ s ∈ overloads.symbols, ∀ t ∈ overloads.symbols,
      s.file.same t.file = true → s.file = t.file) ∧
    (build overloads).definition? (.make ⟨"a"⟩ .function "f" 7) =
      some (.ofSymbol ⟨⟨"a"⟩, .function, "f", "f(x)", none, 7, 7⟩) := by
  have hplain : ∀ s ∈ overloads.symbols, s.IsPlain := by decide
  have hspelled : ∀ s ∈ overloads.symbols, ∀ t ∈ overloads.symbols,
      s.file.same t.file = true → s.file = t.file := by decide
  obtain ⟨-, -, -, hfirst, -⟩ := definitions_canonical overloads hplain hspelled
  exact ⟨hplain, hspelled, (hfirst _).trans rfl⟩

end CallGraph

end SourceAtlas
