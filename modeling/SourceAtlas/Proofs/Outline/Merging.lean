import Mathlib.Data.List.Induction
import Mathlib.Data.List.Perm.Basic
import SourceAtlas.Outline
import SourceAtlas.Proofs.Syntax.Numbering

/-!
# Tags of one node merge

Several patterns may find one definition, and their matches come in any order among those of other
definitions. There is one symbol for each node that is marked with a name, and its kind is the most
specific one of all marks.

* `Tag.found?`, `Tag.definitions_eq`: the marks that count;
* `Tag.IsMostSpecific`, `Tag.IsMerged`: one definition for each node, with the best kind;
* `Tag.IsMerged.merge`, `Tag.isMerged_definitions`: one mark more, and all marks;
* `Tag.IsMerged.perm`: the order of the marks;
* `Tag.IsBuilt`, `Tag.IsMerged.isBuilt`: the symbols of merged definitions;
* `Outline.areAlike_found`: marks of one node of a numbered tree;
* **`Outline.symbols_merge`**: the symbols of a file.
-/

namespace SourceAtlas

theorem SymbolKind.specificity_inj {k l : SymbolKind} (h : k.specificity = l.specificity) :
    k = l := by
  cases k <;> cases l <;> first | rfl | cases h

namespace Tag

/-- The number of the marked node. -/
def Found.id (f : Found) : Nat := f.node.spot.id

/-- The same definition with another kind. -/
def Found.withKind (f : Found) (k : SymbolKind) : Found :=
  { f with node := { f.node with kind := k } }

/-- The node that a tag marks as a definition, if the tag has a name for it. -/
def found? (t : Tag) : Option Found :=
  match t.name, t.definition with
  | some name, some node => some ⟨node, name⟩
  | _, _ => none

/-- The same definition with a kind, if that is more specific. -/
def Found.raise (f : Found) (k : SymbolKind) : Found :=
  if f.node.kind.specificity < k.specificity then f.withKind k else f

@[simp] theorem Found.id_raise (f : Found) (k : SymbolKind) : (f.raise k).id = f.id := by
  unfold raise
  split_ifs <;> rfl

theorem Found.raise_eq_withKind (f : Found) (k : SymbolKind) :
    f.raise k = f.withKind (f.raise k).node.kind := by
  unfold raise
  split_ifs <;> rfl

/-! ## One mark more -/

variable {fs gs ds es : List Found} {d e f g : Found} {k : SymbolKind} {n : Nat}

/-- Merges a mark with those before. -/
def mergeFound (ds : List Found) (f : Found) : List Found := merge f.node f.name ds

theorem mergeFound_cons (e : Found) (ds : List Found) (f : Found) : mergeFound (e :: ds) f =
    if e.id = f.id then e.raise f.node.kind :: ds else e :: mergeFound ds f := rfl

theorem definitions_eq (tags : List Tag) :
    definitions tags = (tags.filterMap found?).foldl mergeFound [] := by
  rw [definitions, List.foldl_filterMap]
  congr 1
  funext ds t
  rw [addTo, found?]
  cases t.name <;> cases t.definition <;> rfl

theorem ids_mergeFound (ds : List Found) (f : Found) : (mergeFound ds f).map Found.id =
    if f.id ∈ ds.map Found.id then ds.map Found.id else ds.map Found.id ++ [f.id] := by
  induction ds with
  | nil => rfl
  | cons e ds ih =>
    rw [mergeFound_cons]
    by_cases hid : e.id = f.id
    · simp [hid]
    · rw [if_neg hid, List.map_cons, ih]
      by_cases hmem : f.id ∈ ds.map Found.id <;> simp [hmem, Ne.symm hid]

/-- What is there after a mark was merged: definitions of other nodes, the one of the same node with
the more specific kind, or the mark itself if its node is new. -/
theorem of_mem_mergeFound (hds : (ds.map Found.id).Nodup) (hd : d ∈ mergeFound ds f) :
    (d ∈ ds ∧ d.id ≠ f.id) ∨ (∃ e ∈ ds, e.id = f.id ∧ d = e.raise f.node.kind) ∨
      (d = f ∧ f.id ∉ ds.map Found.id) := by
  induction ds with
  | nil => exact .inr (.inr ⟨List.mem_singleton.mp hd, List.not_mem_nil⟩)
  | cons e ds ih =>
    rw [List.map_cons, List.nodup_cons] at hds
    rw [mergeFound_cons] at hd
    split_ifs at hd with hid
    · rcases List.mem_cons.mp hd with hd | hd
      · exact .inr (.inl ⟨e, List.mem_cons_self, hid, hd⟩)
      · refine .inl ⟨List.mem_cons_of_mem _ hd, fun h => hds.1 ?_⟩
        rw [hid, ← h]
        exact List.mem_map_of_mem hd
    · rcases List.mem_cons.mp hd with rfl | hd
      · exact .inl ⟨List.mem_cons_self, hid⟩
      · rcases ih hds.2 hd with ⟨hd, hne⟩ | ⟨c, hc, hcid, hd⟩ | ⟨hd, hnew⟩
        · exact .inl ⟨List.mem_cons_of_mem _ hd, hne⟩
        · exact .inr (.inl ⟨c, List.mem_cons_of_mem _ hc, hcid, hd⟩)
        · refine .inr (.inr ⟨hd, ?_⟩)
          rw [List.map_cons, List.mem_cons, not_or]
          exact ⟨Ne.symm hid, hnew⟩

/-! ## All marks -/

/-- The most specific kind with which a node is marked. -/
structure IsMostSpecific (fs : List Found) (n : Nat) (k : SymbolKind) : Prop where
  marked : ∃ f ∈ fs, f.id = n ∧ f.node.kind = k
  most : ∀ f ∈ fs, f.id = n → f.node.kind.specificity ≤ k.specificity

theorem IsMostSpecific.unique {l : SymbolKind} (hk : IsMostSpecific fs n k)
    (hl : IsMostSpecific fs n l) : k = l := by
  obtain ⟨f, hf, hfn, rfl⟩ := hk.marked
  obtain ⟨g, hg, hgn, rfl⟩ := hl.marked
  exact SymbolKind.specificity_inj (Nat.le_antisymm (hl.most f hf hfn) (hk.most g hg hgn))

theorem IsMostSpecific.perm (hk : IsMostSpecific fs n k) (h : fs.Perm gs) :
    IsMostSpecific gs n k := by
  obtain ⟨f, hf, hfn, hkind⟩ := hk.marked
  exact ⟨⟨f, h.mem_iff.mp hf, hfn, hkind⟩, fun g hg => hk.most g (h.mem_iff.mpr hg)⟩

theorem IsMostSpecific.append_of_ne (hk : IsMostSpecific fs n k) (hf : f.id ≠ n) :
    IsMostSpecific (fs ++ [f]) n k := by
  obtain ⟨g, hg, hgn, hkind⟩ := hk.marked
  refine ⟨⟨g, List.mem_append_left _ hg, hgn, hkind⟩, fun c hc hcn => ?_⟩
  rcases List.mem_append.mp hc with hc | hc
  · exact hk.most c hc hcn
  · rw [List.mem_singleton.mp hc] at hcn
    exact absurd hcn hf

/-- One more mark of a node raises the kind. -/
theorem IsMostSpecific.append_raise (he : IsMostSpecific fs e.id e.node.kind) (hf : f.id = e.id) :
    IsMostSpecific (fs ++ [f]) e.id (e.raise f.node.kind).node.kind := by
  unfold Found.raise
  split_ifs with hlt
  · refine ⟨⟨f, by simp, hf, rfl⟩, fun c hc hcn => ?_⟩
    rcases List.mem_append.mp hc with hc | hc
    · exact Nat.le_trans (he.most c hc hcn) (Nat.le_of_lt hlt)
    · obtain rfl := List.mem_singleton.mp hc
      exact Nat.le_refl _
  · obtain ⟨g, hg, hgn, hkind⟩ := he.marked
    refine ⟨⟨g, List.mem_append_left _ hg, hgn, hkind⟩, fun c hc hcn => ?_⟩
    rcases List.mem_append.mp hc with hc | hc
    · exact he.most c hc hcn
    · rw [List.mem_singleton.mp hc]
      exact Nat.le_of_not_lt hlt

theorem isMostSpecific_append_new (hf : f.id ∉ fs.map Found.id) :
    IsMostSpecific (fs ++ [f]) f.id f.node.kind := by
  refine ⟨⟨f, by simp, rfl, rfl⟩, fun c hc hcn => ?_⟩
  rcases List.mem_append.mp hc with hc | hc
  · exact absurd (hcn ▸ List.mem_map_of_mem hc) hf
  · obtain rfl := List.mem_singleton.mp hc
    exact Nat.le_refl _

/-- A definition that stands for the marks of its node: it is the first of them, with the most
specific kind. -/
structure Represents (fs : List Found) (d : Found) : Prop where
  first : ∃ f, fs.find? (·.id = d.id) = some f ∧ d = f.withKind d.node.kind
  kind : IsMostSpecific fs d.id d.node.kind

theorem Represents.append_of_ne (hd : Represents fs d) (hf : f.id ≠ d.id) :
    Represents (fs ++ [f]) d := by
  obtain ⟨c, hc, heq⟩ := hd.first
  refine ⟨⟨c, ?_, heq⟩, hd.kind.append_of_ne hf⟩
  rw [List.find?_append, hc]
  rfl

theorem Represents.append_raise (he : Represents fs e) (hf : f.id = e.id) :
    Represents (fs ++ [f]) (e.raise f.node.kind) := by
  obtain ⟨c, hc, heq⟩ := he.first
  rw [← Found.id_raise e f.node.kind] at hc
  refine ⟨⟨c, ?_, ?_⟩, ?_⟩
  · rw [List.find?_append, hc]
    rfl
  · rw [Found.raise_eq_withKind]
    nth_rewrite 1 [heq]
    rfl
  · rw [Found.id_raise]
    exact he.kind.append_raise hf

theorem represents_append_new (hf : f.id ∉ fs.map Found.id) : Represents (fs ++ [f]) f := by
  have hnone : fs.find? (·.id = f.id) = none :=
    List.find?_eq_none.mpr fun c hc hid => hf (of_decide_eq_true hid ▸ List.mem_map_of_mem hc)
  refine ⟨⟨f, ?_, rfl⟩, isMostSpecific_append_new hf⟩
  rw [List.find?_append, hnone]
  simp

/-- What is left of all marks: one definition for each node. -/
structure IsMerged (fs ds : List Found) : Prop where
  nodup : (ds.map Found.id).Nodup
  mem_ids : ∀ n, n ∈ ds.map Found.id ↔ n ∈ fs.map Found.id
  represents : ∀ d ∈ ds, Represents fs d

/-- **One mark more.** -/
theorem IsMerged.merge (h : IsMerged fs ds) (f : Found) :
    IsMerged (fs ++ [f]) (mergeFound ds f) := by
  have hids := ids_mergeFound ds f
  refine ⟨?_, fun n => ?_, fun d hd => ?_⟩
  · rw [hids]
    split_ifs with hmem
    · exact h.nodup
    · exact h.nodup.append (List.nodup_singleton _) (List.disjoint_singleton.mpr hmem)
  · rw [hids, List.map_append, List.mem_append, ← h.mem_ids, List.map_singleton,
      List.mem_singleton]
    split_ifs with hmem
    · exact ⟨.inl, fun hn => hn.elim id fun hn => hn ▸ hmem⟩
    · rw [List.mem_append, List.mem_singleton]
  · rcases of_mem_mergeFound h.nodup hd with ⟨hd, hne⟩ | ⟨e, he, hid, rfl⟩ | ⟨rfl, hnew⟩
    · exact (h.represents d hd).append_of_ne (Ne.symm hne)
    · exact (h.represents e he).append_raise hid.symm
    · rw [h.mem_ids] at hnew
      exact represents_append_new hnew

/-- **All marks are merged,** however those of one node lie among others. -/
theorem isMerged_definitions (tags : List Tag) :
    IsMerged (tags.filterMap found?) (definitions tags) := by
  rw [definitions_eq]
  induction tags.filterMap found? using List.reverseRecOn with
  | nil => exact ⟨List.nodup_nil, fun _ => Iff.rfl, by simp⟩
  | append_singleton fs f ih =>
    rw [List.foldl_append]
    exact ih.merge f

/-! ## The order of the marks -/

/-- Marks of one node differ in their kinds only. -/
def AreAlike (fs : List Found) : Prop :=
  ∀ f ∈ fs, ∀ g ∈ fs, f.id = g.id → ∀ k, f.withKind k = g.withKind k

theorem IsMerged.mem_of_perm (hds : IsMerged fs ds) (hes : IsMerged gs es) (h : fs.Perm gs)
    (halike : AreAlike gs) (hd : d ∈ ds) : d ∈ es := by
  have hid : d.id ∈ es.map Found.id := by
    rw [hes.mem_ids, ← (h.map Found.id).mem_iff, ← hds.mem_ids]
    exact List.mem_map_of_mem hd
  obtain ⟨e, he, hed⟩ := List.mem_map.mp hid
  obtain ⟨f, hf, hdf⟩ := (hds.represents d hd).first
  obtain ⟨g, hg, heg⟩ := (hes.represents e he).first
  have hkind : d.node.kind = e.node.kind := by
    refine ((hds.represents d hd).kind.perm h).unique ?_
    rw [← hed]
    exact (hes.represents e he).kind
  have hfd : f.id = d.id := by simpa using List.find?_some hf
  have hge : g.id = e.id := by simpa using List.find?_some hg
  have hsame := halike f (h.mem_iff.mp (List.mem_of_find?_eq_some hf)) g
    (List.mem_of_find?_eq_some hg) (hfd.trans (hed.symm.trans hge.symm)) e.node.kind
  rw [hdf, hkind, hsame, ← heg]
  exact he

/-- **The order of the marks decides at most the order of the definitions.** -/
theorem IsMerged.perm (hds : IsMerged fs ds) (hes : IsMerged gs es) (h : fs.Perm gs)
    (halike : AreAlike gs) : ds.Perm es := by
  have halike' : AreAlike fs := fun f hf g hg =>
    halike f (h.mem_iff.mp hf) g (h.mem_iff.mp hg)
  rw [List.perm_ext_iff_of_nodup hds.nodup.of_map hes.nodup.of_map]
  exact fun d => ⟨hds.mem_of_perm hes h halike, hes.mem_of_perm hds h.symm halike'⟩

theorem symbols_perm {tags others : List Tag} (language : Language) (path : Path)
    (h : others.Perm tags) (halike : AreAlike (tags.filterMap found?)) :
    (symbols language path others).Perm (symbols language path tags) :=
  ((isMerged_definitions others).perm (isMerged_definitions tags) (h.filterMap found?)
    halike).filterMap _

/-! ## The symbols of marks -/

/-- Can the text of a marked node and its name be read, and is the name not empty? -/
def Found.IsReadable (f : Found) : Prop :=
  f.node.spot.text.isSome = true ∧ ∃ name, f.name.text = some name ∧ name ≠ ""

/-- A symbol of a file tells of a marked node all but its kind, on which only the receiver
depends. -/
structure Found.IsToldBy (language : Language) (path : Path) (f : Found) (s : Symbol) : Prop where
  file : s.file = path
  name : f.name.text = some s.name
  signature : f.node.spot.text.map Signature.summarize = some s.signature
  receiver : s.receiver =
    if s.kind = .method then Tag.receiver language s.signature f.node.owner else none
  startLine : s.startLine = f.node.spot.startLine
  endLine : s.endLine = f.node.spot.endLine

section Symbols

variable {language : Language} {path : Path} {s : Symbol} {x : Nat × Symbol}

theorem isSome_symbol?_iff : (symbol? language path f).isSome = true ↔ f.IsReadable := by
  rw [symbol?, Found.IsReadable]
  cases f.name.text with
  | none => simp
  | some name => by_cases hname : name = "" <;> cases f.node.spot.text <;> simp [hname]

theorem of_symbol?_eq_some (h : symbol? language path f = some s) :
    f.IsToldBy language path s ∧ s.kind = f.node.kind := by
  obtain ⟨name, hname, h⟩ := Option.bind_eq_some_iff.mp h
  by_cases hempty : name = ""
  · rw [if_pos hempty] at h
    cases h
  · rw [if_neg hempty] at h
    obtain ⟨text, htext, h⟩ := Option.bind_eq_some_iff.mp h
    cases h
    exact ⟨⟨rfl, hname, by rw [htext]; rfl, rfl, rfl, rfl⟩, rfl⟩

/-- Symbols, each with the number of the node that it was made of. No node has two symbols. A node
has one exactly if its first mark can be read, and the kind of the symbol is the most specific one
of all marks of the node. -/
structure IsBuilt (language : Language) (path : Path) (fs : List Found)
    (built : List (Nat × Symbol)) : Prop where
  nodup : (built.map (·.1)).Nodup
  mem_nodes : ∀ n, n ∈ built.map (·.1) ↔ ∃ f, fs.find? (·.id = n) = some f ∧ f.IsReadable
  told : ∀ x ∈ built, ∃ f, fs.find? (·.id = x.1) = some f ∧ f.IsToldBy language path x.2
  kind : ∀ x ∈ built, IsMostSpecific fs x.1 x.2.kind

/-- The symbols of definitions, each with the number of its node. -/
def built (language : Language) (path : Path) (ds : List Found) : List (Nat × Symbol) :=
  ds.filterMap fun d => (symbol? language path d).map (d.id, ·)

theorem mem_built : x ∈ built language path ds ↔
    ∃ d ∈ ds, d.id = x.1 ∧ symbol? language path d = some x.2 := by
  rw [built, List.mem_filterMap]
  refine exists_congr fun d => and_congr_right fun _ => ?_
  rw [Option.map_eq_some_iff]
  constructor
  · rintro ⟨s, hs, rfl⟩
    exact ⟨rfl, hs⟩
  · rintro ⟨hid, hs⟩
    exact ⟨x.2, hs, by rw [hid]⟩

theorem map_snd_built (ds : List Found) :
    (built language path ds).map (·.2) = ds.filterMap (symbol? language path) := by
  rw [built, List.map_filterMap]
  congr 1
  funext d
  rw [Option.map_map]
  exact Option.map_id_apply

theorem IsMerged.nodup_built (h : IsMerged fs ds) :
    ((built language path ds).map (·.1)).Nodup := by
  rw [List.Nodup, List.pairwise_map, built, List.pairwise_filterMap]
  refine (List.pairwise_map.mp h.nodup).imp fun hne x hx y hy => ?_
  obtain ⟨s, -, rfl⟩ := Option.map_eq_some_iff.mp hx
  obtain ⟨t, -, rfl⟩ := Option.map_eq_some_iff.mp hy
  exact hne

/-- A node has a symbol exactly if its first mark can be read. -/
theorem IsMerged.mem_nodes_built (h : IsMerged fs ds) (n : Nat) :
    n ∈ (built language path ds).map (·.1) ↔
      ∃ f, fs.find? (·.id = n) = some f ∧ f.IsReadable := by
  constructor
  · intro hn
    obtain ⟨x, hx, rfl⟩ := List.mem_map.mp hn
    obtain ⟨d, hd, hid, hs⟩ := mem_built.mp hx
    obtain ⟨f, hf, heq⟩ := (h.represents d hd).first
    have hreadable : d.IsReadable := isSome_symbol?_iff.mp (Option.isSome_iff_exists.mpr ⟨_, hs⟩)
    rw [heq] at hreadable
    exact ⟨f, hid ▸ hf, hreadable⟩
  · rintro ⟨f, hf, hreadable⟩
    have hfn : f.id = n := by simpa using List.find?_some hf
    have hn : n ∈ ds.map Found.id := by
      rw [h.mem_ids, ← hfn]
      exact List.mem_map_of_mem (List.mem_of_find?_eq_some hf)
    obtain ⟨d, hd, rfl⟩ := List.mem_map.mp hn
    obtain ⟨g, hg, heq⟩ := (h.represents d hd).first
    obtain rfl : f = g := Option.some.inj (hf.symm.trans hg)
    have hsome : d.IsReadable := by
      rw [heq]
      exact hreadable
    obtain ⟨s, hs⟩ := Option.isSome_iff_exists.mp (isSome_symbol?_iff.mpr hsome)
    exact List.mem_map.mpr ⟨(d.id, s), mem_built.mpr ⟨d, hd, rfl, hs⟩, rfl⟩

/-- **The symbols of merged definitions are built from the marks.** -/
theorem IsMerged.isBuilt (h : IsMerged fs ds) :
    IsBuilt language path fs (built language path ds) := by
  refine ⟨h.nodup_built, h.mem_nodes_built, fun x hx => ?_, fun x hx => ?_⟩
  · obtain ⟨d, hd, hid, hs⟩ := mem_built.mp hx
    obtain ⟨f, hf, heq⟩ := (h.represents d hd).first
    have htold := (of_symbol?_eq_some hs).1
    rw [heq] at htold
    exact ⟨f, hid ▸ hf, htold.file, htold.name, htold.signature, htold.receiver, htold.startLine,
      htold.endLine⟩
  · obtain ⟨d, hd, hid, hs⟩ := mem_built.mp hx
    rw [(of_symbol?_eq_some hs).2, ← hid]
    exact (h.represents d hd).kind

end Symbols

end Tag

/-! ## The symbols of a file -/

theorem Match.of_get?_eq_some {m : Match} {name : String} {t : Tree} (h : m.get? name = some t) :
    ∃ c ∈ m.captures, c.2 = t := by
  obtain ⟨c, hc, hct⟩ := Option.map_eq_some_iff.mp h
  exact ⟨c, List.mem_reverse.mp (List.mem_of_find?_eq_some hc), hct⟩

namespace Outline

open Tag (Found found?)

/-- The mark of a node of a tree. -/
def mark (language : Language) (source : ByteArray) (lines : Lines) (tree node name : Tree)
    (kind : SymbolKind) : Found :=
  ⟨⟨Spot.ofTree source lines node, kind, owner language source lines tree node⟩,
    Spot.ofTree source lines name⟩

variable {language : Language} {source : ByteArray} {lines : Lines} {tree : Tree}

theorem exists_mark {m : Match} {f : Found} (hm : m.IsOver tree)
    (h : found? (tag language source lines tree m) = some f) :
    ∃ node ∈ tree.nodes, ∃ name ∈ tree.nodes, ∃ kind,
      f = mark language source lines tree node name kind := by
  unfold found? at h
  split at h
  · rename_i spot marked hname hnode
    obtain ⟨name, hget, rfl⟩ := Option.map_eq_some_iff.mp hname
    obtain ⟨c, hc, rfl⟩ := Match.of_get?_eq_some hget
    obtain ⟨⟨capture, node⟩, hd, hmarked⟩ := List.exists_of_findSome?_eq_some hnode
    obtain ⟨kind, -, rfl⟩ := Option.map_eq_some_iff.mp hmarked
    cases h
    exact ⟨node, hm _ (List.mem_reverse.mp hd), c.2, hm c hc, kind, rfl⟩
  · cases h

/-- In a tree whose nodes are told by their numbers, marks of one node with one name differ in their
kinds only. -/
theorem areAlike_found {ms : List Match} (htree : tree.IsNumbered) (hms : ∀ m ∈ ms, m.IsOver tree)
    (hnames : ∀ f ∈ (ms.map (tag language source lines tree)).filterMap found?,
      ∀ g ∈ (ms.map (tag language source lines tree)).filterMap found?,
        f.id = g.id → f.name.id = g.name.id) :
    Tag.AreAlike ((ms.map (tag language source lines tree)).filterMap found?) := by
  have hmark : ∀ f ∈ (ms.map (tag language source lines tree)).filterMap found?,
      ∃ node ∈ tree.nodes, ∃ name ∈ tree.nodes, ∃ kind,
        f = mark language source lines tree node name kind := by
    intro f hf
    obtain ⟨t, ht, htf⟩ := List.mem_filterMap.mp hf
    obtain ⟨m, hm, rfl⟩ := List.mem_map.mp ht
    exact exists_mark (hms m hm) htf
  intro f hf g hg hid k
  have hname := hnames f hf g hg hid
  obtain ⟨node, hnode, name, hnm, kind, rfl⟩ := hmark f hf
  obtain ⟨node', hnode', name', hnm', kind', rfl⟩ := hmark g hg
  obtain rfl : node = node' := htree.eq_of_id hnode hnode' hid
  obtain rfl : name = name' := htree.eq_of_id hnm hnm' hname
  rfl

/-- **Overlapping matches merge to the most specific kind.** Methods are more specific than
functions and functions than types. The nodes of a file that was read are told by their numbers, and
its matches lie over them. For any list of matches over such a tree the symbols are built from the
marks, and if all marks of a node have one name, the order of the matches decides at most the order
of the symbols. -/
theorem symbols_merge (language : Language) (path : Path) :
    SymbolKind.function.specificity < SymbolKind.method.specificity ∧
    SymbolKind.type.specificity < SymbolKind.function.specificity ∧
    (∀ source, (language.parse source).IsNumbered ∧
      ∀ m ∈ (language.parse source).search language.tags, m.IsOver (language.parse source)) ∧
    ∀ (source : ByteArray) (tree : Tree) (ms : List Match), tree.IsNumbered →
      (∀ m ∈ ms, m.IsOver tree) →
      let tag := Outline.tag language source (.ofBytes source) tree
      let found := (ms.map tag).filterMap found?
      (∃ built, Tag.symbols language path (ms.map tag) = built.map (·.2) ∧
        Tag.IsBuilt language path found built) ∧
      ((∀ f ∈ found, ∀ g ∈ found, f.id = g.id → f.name.id = g.name.id) →
        ∀ ns : List Match, ns.Perm ms →
          (Tag.symbols language path (ns.map tag)).Perm
            (Tag.symbols language path (ms.map tag))) := by
  refine ⟨by decide, by decide, fun source => ⟨language.isNumbered_parse source, fun m hm =>
    Tree.isOver_of_mem_search hm⟩, fun source tree ms htree hms => ⟨?_, ?_⟩⟩
  · exact ⟨Tag.built language path _, (Tag.map_snd_built _).symm,
      (Tag.isMerged_definitions _).isBuilt⟩
  · intro hnames ns hns
    exact Tag.symbols_perm language path (hns.map _) (areAlike_found htree hms hnames)

/-- The name of the method in `impl A{fn f(){}}`. -/
def methodName : Tree := .node "identifier" (some "name") 5 10 11 []

/-- The method in `impl A{fn f(){}}`. -/
def methodNode : Tree :=
  .node "function_item" none 4 7 15
    [methodName, .node "parameters" (some "parameters") 6 11 13 [],
      .node "block" (some "body") 7 13 15 []]

/-- The name of the type in `impl A{fn f(){}}`. -/
def ownerName : Tree := .node "type_identifier" (some "type") 2 5 6 []

/-- The block in `impl A{fn f(){}}`. -/
def ownerNode : Tree :=
  .node "impl_item" none 1 0 16
    [ownerName, .node "declaration_list" (some "body") 3 6 16 [methodNode]]

/-- The tree of `impl A{fn f(){}}`. -/
def methodTree : Tree := .node "source_file" none 0 0 16 [ownerNode]

/-- The method is marked before and after the block around it, first as a function. -/
def methodMatches : List Match :=
  [⟨[("definition.function", methodNode), ("name", methodName)], 5⟩,
    ⟨[("definition.type", ownerNode), ("name", ownerName)], 2⟩,
    ⟨[("definition.method", methodNode), ("name", methodName)], 5⟩]

/-- Three marks of two nodes give two symbols, in either order of the marks. -/
theorem symbols_merge_method :
    methodTree.IsNumbered ∧ (∀ m ∈ methodMatches, m.IsOver methodTree) ∧
    let source := "impl A\x7bfn f()\x7b\x7d\x7d".toUTF8
    let tag := Outline.tag .rust source (.ofBytes source) methodTree
    (Tag.symbols .rust ⟨"a.rs"⟩ (methodMatches.map tag)).map (fun s =>
      (s.name, s.kind, s.receiver)) = [("f", .method, some "A"), ("A", .type, none)] ∧
    (Tag.symbols .rust ⟨"a.rs"⟩ (methodMatches.reverse.map tag)).Perm
      (Tag.symbols .rust ⟨"a.rs"⟩ (methodMatches.map tag)) := by
  have hnumbered : methodTree.IsNumbered := by
    unfold Tree.IsNumbered
    decide
  have hmethod : methodNode ∈ methodTree.nodes ∧ methodName ∈ methodTree.nodes := by
    simp [methodTree, ownerNode, ownerName, methodNode, methodName, Tree.nodes_node]
  have howner : ownerNode ∈ methodTree.nodes ∧ ownerName ∈ methodTree.nodes := by
    simp [methodTree, ownerNode, ownerName, Tree.nodes_node]
  have hover : ∀ m ∈ methodMatches, m.IsOver methodTree := by
    simp only [methodMatches, Match.IsOver, List.forall_mem_cons]
    simp [hmethod, howner]
  refine ⟨hnumbered, hover, by decide +kernel, ?_⟩
  obtain ⟨-, -, -, hmerge⟩ := symbols_merge .rust ⟨"a.rs"⟩
  refine (hmerge _ methodTree methodMatches hnumbered hover).2 ?_ _ (List.reverse_perm _)
  decide +kernel

end Outline

end SourceAtlas
