import Mathlib.Data.List.MinMax
import SourceAtlas.Proofs.List.Best
import SourceAtlas.Proofs.Scope.Packages

/-!
# What imports open

Imports are linked when all files are known, so it does not matter in which order files were added.
A Go import opens the package whose key is the longest one at the end of the imported path. A Python
module is the first file that may hold it. Other imports open nothing.

* `longestKey?`, `longestKey?_eq_some_iff`: the longest key at the end of a path;
* `ScopeBuilder.packageFor?_eq`: the search for a package finds it;
* `Opened`, `ScopeGraph.openings`: what the imports of a graph open, told without numbers;
* `destination?`, `ImportRecord.opening`: what an import is to open;
* **`ScopeBuilder.openings_finish`**: what imports open in a finished graph, in any order of files.
-/

namespace SourceAtlas

/-! ## The longest key -/

/-- The key with the most steps among those whose steps are the last ones of an imported path. The
key of the files at the root does not count. -/
def longestKey? (keys : List String) (imported : String) : Option String :=
  (keys.filter fun k => k ≠ "." ∧ steps k <:+ steps imported).argmax fun k => (steps k).length

section LongestKey

variable {keys keys' : List String} {imported key : String}

/-- Keys at the end of one path with the same number of steps are one key. -/
theorem eq_of_length_steps {k : String} (hkey : steps key <:+ steps imported)
    (hk : steps k <:+ steps imported) (hlength : (steps key).length = (steps k).length) :
    key = k := by
  have hsuffix := List.suffix_of_suffix_length_le hkey hk (Nat.le_of_eq hlength)
  exact steps_inj (hsuffix.eq_of_length hlength)

theorem longestKey?_eq_some_iff : longestKey? keys imported = some key ↔
    key ∈ keys ∧ key ≠ "." ∧ steps key <:+ steps imported ∧
      ∀ k ∈ keys, k ≠ "." → steps k <:+ steps imported →
        (steps k).length ≤ (steps key).length := by
  rw [longestKey?, List.argmax_eq_some_iff]
  constructor
  · rintro ⟨hmem, hmax, -⟩
    obtain ⟨hkey, hlead⟩ := List.mem_filter.mp hmem
    obtain ⟨hdot, hsuffix⟩ := of_decide_eq_true hlead
    refine ⟨hkey, hdot, hsuffix, fun k hk hkdot hksuffix => hmax k ?_⟩
    exact List.mem_filter.mpr ⟨hk, decide_eq_true ⟨hkdot, hksuffix⟩⟩
  · rintro ⟨hkey, hdot, hsuffix, hmax⟩
    have hall : ∀ k ∈ keys.filter (fun k => k ≠ "." ∧ steps k <:+ steps imported),
        steps k <:+ steps imported ∧ (steps k).length ≤ (steps key).length := by
      intro k hk
      obtain ⟨hk, hlead⟩ := List.mem_filter.mp hk
      obtain ⟨hkdot, hksuffix⟩ := of_decide_eq_true hlead
      exact ⟨hksuffix, hmax k hk hkdot hksuffix⟩
    refine ⟨List.mem_filter.mpr ⟨hkey, decide_eq_true ⟨hdot, hsuffix⟩⟩, fun k hk => (hall k hk).2,
      fun k hk hle => ?_⟩
    -- a key with as many steps is the same one
    have hlength := Nat.le_antisymm hle (hall k hk).2
    rw [eq_of_length_steps hsuffix (hall k hk).1 hlength]

theorem longestKey?_congr (h : ∀ k, k ∈ keys ↔ k ∈ keys') :
    longestKey? keys imported = longestKey? keys' imported := by
  refine Option.ext fun key => ?_
  rw [longestKey?_eq_some_iff, longestKey?_eq_some_iff]
  simp only [h]

end LongestKey

namespace ScopeBuilder

open ScopeGraph

variable {g : ScopeGraph} {imported : String}

/-- The longest key in bytes is the one with the most steps. -/
theorem longestKey?_of_bytes {keys : List String} {key : String} (hkey : key ∈ keys)
    (hlead : leadsTo imported key = true)
    (hmax : ∀ k ∈ keys, leadsTo imported k = true → k.utf8ByteSize ≤ key.utf8ByteSize) :
    longestKey? keys imported = some key := by
  obtain ⟨hdot, hsuffix⟩ := leadsTo_iff.mp hlead
  refine longestKey?_eq_some_iff.mpr ⟨hkey, hdot, hsuffix, fun k hk hkdot hksuffix => ?_⟩
  by_contra hlonger
  -- a key with more steps ends with this one, and so it has more bytes
  have hends : steps key <:+ steps k :=
    List.suffix_of_suffix_length_le hsuffix hksuffix (by omega)
  have hbytes := hmax k hk (leadsTo_iff.mpr ⟨hkdot, hksuffix⟩)
  rw [(utf8ByteSize_le_of_isSuffix hends).2 hbytes] at hlonger
  exact hlonger (Nat.le_refl _)

theorem exists_packageFor?_eq (g : ScopeGraph) (imported : String) :
    ∃ step, IsBetter (fun a b : String × Nat => decide (a.1.utf8ByteSize ≤ b.1.utf8ByteSize)) step ∧
      packageFor? g imported =
        ((g.sortedPackages.filter fun p => leadsTo imported p.1).foldl step none).map (·.2) := by
  refine ⟨_, ⟨fun _ => rfl, fun b p => ?_, fun a b c hab hbc => ?_, fun a b => ?_⟩, rfl⟩
  · simp
  · simp only [decide_eq_true_iff] at *
    omega
  · simp only [Bool.or_eq_true, decide_eq_true_iff]
    omega

/-- **The search for a package finds the one with the longest key.** -/
theorem packageFor?_eq (hg : g.IsTabled) (imported : String) :
    packageFor? g imported = (longestKey? (g.packages.map (·.1)) imported).bind g.package? := by
  have hmem : ∀ p, p ∈ g.sortedPackages.filter (fun p => leadsTo imported p.1) ↔
      p ∈ g.packages ∧ leadsTo imported p.1 = true := by
    intro p
    rw [List.mem_filter, sortedPackages, List.mem_mergeSort]
  obtain ⟨step, hbetter, hsearch⟩ := exists_packageFor?_eq g imported
  rw [hsearch]
  generalize g.sortedPackages.filter (fun p => leadsTo imported p.1) = packages at hmem
  cases hbest : packages.foldl step none with
  | none =>
    have hnil : packages = [] := by
      by_contra hne
      obtain ⟨m, hm⟩ := foldl_best_isSome hbetter hne
      rw [hbest] at hm
      cases hm
    have hnone : longestKey? (g.packages.map (·.1)) imported = none := by
      rw [Option.eq_none_iff_forall_ne_some]
      intro key hkey
      obtain ⟨hkey, hdot, hsuffix, -⟩ := longestKey?_eq_some_iff.mp hkey
      obtain ⟨p, hp, rfl⟩ := List.mem_map.mp hkey
      have := (hmem p).mpr ⟨hp, leadsTo_iff.mpr ⟨hdot, hsuffix⟩⟩
      rw [hnil] at this
      exact absurd this List.not_mem_nil
    rw [hnone]
    rfl
  | some m =>
    have hlast := isLastBest_of_foldl hbetter hbest
    have hmax := IsLastBest.le_best hbetter hlast
    have hm : m ∈ packages := by
      obtain ⟨l₁, l₂, rfl, -⟩ := hlast
      simp
    obtain ⟨hfound, hlead⟩ := (hmem m).mp hm
    have hkey : longestKey? (g.packages.map (·.1)) imported = some m.1 := by
      refine longestKey?_of_bytes (List.mem_map_of_mem hfound) hlead fun k hk hklead => ?_
      obtain ⟨p, hp, rfl⟩ := List.mem_map.mp hk
      simpa using hmax p ((hmem p).mpr ⟨hp, hklead⟩)
    rw [hkey, Option.bind_some, hg.package?_eq_some_iff.mpr ⟨m.1, hfound, beq_self_eq_true m.1⟩]
    rfl

end ScopeBuilder

/-! ## What is opened -/

/-- What an import opens, told without the number of a scope. -/
inductive Opened where
  | nothing
  | file (path : Path)
  | package (key : String)
  /-- A scope inside of a file. -/
  | inner
deriving DecidableEq, Repr

/-- An import of a graph: the file that it lies in, its definition, and what this opens. -/
structure Opening where
  file : Option Path
  definition : Definition
  opened : Opened
deriving DecidableEq, Repr

namespace ScopeGraph

variable {g : ScopeGraph} {i k : Nat} {path : Path} {key : String}

/-- What the scope with a number is. -/
def opened (g : ScopeGraph) (i : Nat) : Opened :=
  match g.files.find? (·.2 = i), g.packages.find? (·.2 = i) with
  | some x, _ => .file x.1
  | none, some x => .package x.1
  | none, none => .inner

/-- An import in the scope with a number. -/
def opening? (g : ScopeGraph) (i : Nat) (d : Definition) : Option Opening :=
  if d.kind = .imported then
    some ⟨g.fileOf i, d.shut, (d.opens.map g.opened).getD .nothing⟩
  else none

/-- The imports of a graph, scope by scope. -/
def openings (g : ScopeGraph) : List Opening :=
  (List.range g.size).flatMap fun i => (g.definitionsOf i).filterMap (g.opening? i)

/-- The definitions of a graph, scope by scope. -/
def handles (g : ScopeGraph) : List Handle :=
  (List.range g.size).flatMap fun i => (List.range (g.definitionsOf i).length).map fun n => ⟨i, n⟩

theorem nodup_handles (g : ScopeGraph) : g.handles.Nodup := by
  rw [handles, List.nodup_flatMap]
  constructor
  · intro i _
    refine List.Nodup.map (fun m n h => ?_) List.nodup_range
    exact congrArg Handle.index h
  · refine List.nodup_range.imp fun {i j} hne a hi hj => hne ?_
    obtain ⟨m, -, rfl⟩ := List.mem_map.mp hi
    obtain ⟨n, -, heq⟩ := List.mem_map.mp hj
    exact (congrArg Handle.scope heq).symm

theorem mem_handles {a : Handle} : a ∈ g.handles ↔ ∃ d, g.definition? a = some d := by
  obtain ⟨i, n⟩ := a
  rw [handles, List.mem_flatMap]
  constructor
  · rintro ⟨j, -, hj⟩
    obtain ⟨m, hm, heq⟩ := List.mem_map.mp hj
    cases heq
    refine ⟨(g.definitionsOf i).get ⟨n, List.mem_range.mp hm⟩, ?_⟩
    rw [definition?_eq]
    exact List.getElem?_eq_getElem _
  · rintro ⟨d, hd⟩
    obtain ⟨hi, hn⟩ := ScopeBuilder.lt_of_definition? hd
    exact ⟨i, List.mem_range.mpr hi, List.mem_map.mpr ⟨n, List.mem_range.mpr hn, rfl⟩⟩

theorem filterMap_range {α β : Type} (f : α → Option β) (l : List α) :
    (List.range l.length).filterMap (fun n => l[n]?.bind f) = l.filterMap f := by
  induction l using List.reverseRecOn with
  | nil => rfl
  | append_singleton l x ih =>
    have hinit : (List.range l.length).filterMap (fun n => (l ++ [x])[n]?.bind f) =
        (List.range l.length).filterMap (fun n => l[n]?.bind f) := by
      refine List.filterMap_congr fun n hn => ?_
      rw [List.getElem?_append_left (List.mem_range.mp hn)]
    rw [List.length_append, List.length_singleton, List.range_succ, List.filterMap_append, hinit,
      ih, List.filterMap_append, List.filterMap_cons, List.getElem?_concat_length,
      Option.bind_some]
    rfl

theorem openings_eq (g : ScopeGraph) :
    g.openings = g.handles.filterMap fun a => (g.definition? a).bind (g.opening? a.scope) := by
  rw [openings, handles, List.filterMap_flatMap]
  refine List.flatMap_congr fun i _ => ?_
  rw [List.filterMap_map, ← filterMap_range]
  refine List.filterMap_congr fun n _ => ?_
  rw [Function.comp_apply, definition?_eq]

theorem find?_scope_eq_some {κ : Type} {table : List (κ × Nat)} (hnodup : (table.map (·.2)).Nodup)
    {x : κ} (hx : (x, i) ∈ table) : table.find? (·.2 = i) = some (x, i) := by
  obtain ⟨y, hy⟩ : ∃ y, table.find? (·.2 = i) = some y := by
    rw [← Option.isSome_iff_exists, List.find?_isSome]
    exact ⟨(x, i), hx, decide_eq_true rfl⟩
  have hyi : y.2 = i := by simpa using List.find?_some hy
  rw [hy, List.inj_on_of_nodup_map hnodup (List.mem_of_find?_eq_some hy) hx hyi]

theorem find?_scope_eq_none {κ : Type} {table : List (κ × Nat)} (hne : ∀ x ∈ table, x.2 ≠ i) :
    table.find? (·.2 = i) = none := by
  rw [List.find?_eq_none]
  intro x hx
  simpa using hne x hx

namespace IsTabled

theorem opened_file (hg : g.IsTabled) (hi : (path, i) ∈ g.files) : g.opened i = .file path := by
  rw [opened, find?_scope_eq_some hg.files.scopes hi]

theorem opened_package (hg : g.IsTabled) (hk : (key, k) ∈ g.packages) :
    g.opened k = .package key := by
  have hfiles : ∀ x ∈ g.files, x.2 ≠ k := by
    rintro x hx rfl
    have hlabel := (hg.label_file x hx).symm.trans (hg.label_package _ hk)
    cases hlabel
  rw [opened, find?_scope_eq_none hfiles, find?_scope_eq_some hg.packages.scopes hk]

end IsTabled

theorem IsInner.opened (hi : g.IsInner i) : g.opened i = .inner := by
  rw [ScopeGraph.opened, find?_scope_eq_none hi.2.1, find?_scope_eq_none hi.2.2]

end ScopeGraph

/-! ## Where imports lead -/

/-- The files that may hold what a Python import imports, the nearest first. -/
def Import.candidates (i : Import) : List Path :=
  Import.moduleFiles (if i.alias?.isSome then i.path else Import.firstModule i.path) i.fromFile

/-- What an import leads to if some files are added: a Go import to the package with the longest key
at the end of the imported path, the import of a Python module to the first file that may hold it,
and any other import to nothing. -/
def destination? (additions : List Addition) (language : Language) (site : Import) :
    Option Opened :=
  match language with
  | .go => (longestKey? ((packagedPaths additions).map (·.packageKey)) site.path).map .package
  | .python =>
    if site.statement = "import_from_statement" then none
    else (site.candidates.findSome? fun c => (additions.map (·.path)).find? (·.same c)).map .file
  | .rust | .csharp => none

/-- An import of a file as it is in a graph of some files. It opens what it leads to, or else the
scope that covers the same bytes, if there is one. -/
def ImportRecord.opening (additions : List Addition) (e : ImportRecord) : Opening :=
  ⟨some e.site.fromFile, e.definition,
    (destination? additions e.language e.site).getD (if e.opensOwn then .inner else .nothing)⟩

namespace ScopeBuilder

open ScopeGraph

open scoped List

variable {additions : List Addition}

theorem mem_keys_run {key : String} : key ∈ (run additions).graph.packages.map (·.1) ↔
    key ∈ (packagedPaths additions).map (·.packageKey) := by
  have hkeys : key ∈ (run additions).graph.packages.map (·.1) ↔
      ((run additions).graph.package? key).isSome = true := by
    rw [Operation.isSome_package?_iff, List.mem_map]
    simp
  rw [hkeys, isSome_package?_run]
  simp [packagedPaths, and_assoc]

theorem map_opened_packageFor? (additions : List Addition) (imported : String) :
    (packageFor? (run additions).graph imported).map (run additions).graph.opened =
      (longestKey? ((packagedPaths additions).map (·.packageKey)) imported).map .package := by
  have htabled := isTabled_run additions
  rw [packageFor?_eq htabled, longestKey?_congr fun _ => mem_keys_run]
  cases hkey : longestKey? ((packagedPaths additions).map (·.packageKey)) imported with
  | none => rfl
  | some key =>
    have hmem := mem_keys_run.mpr (longestKey?_eq_some_iff.mp hkey).1
    obtain ⟨⟨key', k⟩, hk, rfl⟩ := List.mem_map.mp hmem
    rw [Option.bind_some, htabled.package?_eq_some_iff.mpr ⟨_, hk, beq_self_eq_true _⟩,
      Option.map_some, Option.map_some, htabled.opened_package hk]

theorem map_opened_file? (hdistinct : additions.Pairwise fun a b => a.path.same b.path = false)
    (c : Path) : ((run additions).graph.file? c).map (run additions).graph.opened =
      ((additions.map (·.path)).find? (·.same c)).map .file := by
  have htabled := isTabled_run additions
  rw [← files_run hdistinct, List.find?_map, Function.comp_def, file?]
  cases hx : (run additions).graph.files.find? (fun x => x.1.same c) with
  | none => rfl
  | some x =>
    have hmem : (x.1, x.2) ∈ (run additions).graph.files := List.mem_of_find?_eq_some hx
    simp [htabled.opened_file hmem]

theorem map_opened_files? (hdistinct : additions.Pairwise fun a b => a.path.same b.path = false)
    (candidates : List Path) :
    (candidates.findSome? (run additions).graph.file?).map (run additions).graph.opened =
      (candidates.findSome? fun c => (additions.map (·.path)).find? (·.same c)).map .file := by
  induction candidates with
  | nil => rfl
  | cons c cs ih =>
    have hfirst := map_opened_file? hdistinct c
    rw [List.findSome?_cons, List.findSome?_cons]
    cases hi : (run additions).graph.file? c with
    | none =>
      rw [hi, Option.map_none, eq_comm, Option.map_eq_none_iff] at hfirst
      rw [hfirst]
      exact ih
    | some i =>
      rw [hi, Option.map_some, eq_comm, Option.map_eq_some_iff] at hfirst
      obtain ⟨q, hq, hopened⟩ := hfirst
      rw [hq]
      exact congrArg some hopened.symm

/-- **Imports are linked to where they lead.** -/
theorem map_opened_target?
    (hdistinct : additions.Pairwise fun a b => a.path.same b.path = false) (language : Language)
    (site : Import) :
    (target? (run additions).graph (site.link language)).map (run additions).graph.opened =
      destination? additions language site := by
  cases language with
  | go => exact map_opened_packageFor? additions site.path
  | python =>
    have hlink : site.link .python =
        if site.statement = "import_from_statement" then .unlinked else .files site.candidates :=
      rfl
    rw [hlink, destination?]
    by_cases hfrom : site.statement = "import_from_statement"
    · rw [if_pos hfrom, if_pos hfrom]
      rfl
    · rw [if_neg hfrom, if_neg hfrom]
      exact map_opened_files? hdistinct site.candidates
  | rust | csharp => rfl

theorem opened_congr {g h : ScopeGraph} (hgh : g.Reopens h) : h.opened = g.opened := by
  funext i
  rw [opened, opened, hgh.files, hgh.packages]

theorem opened_or {g : ScopeGraph} {target own : Option Nat} {destination : Option Opened}
    {opensOwn : Bool} (htarget : target.map g.opened = destination)
    (hsome : own.isSome = opensOwn) (hinner : ∀ i, own = some i → g.IsInner i) :
    ((target.or own).map g.opened).getD .nothing =
      destination.getD (if opensOwn then .inner else .nothing) := by
  subst htarget hsome
  cases target with
  | some i => rfl
  | none =>
    cases own with
    | none => rfl
    | some i => exact (hinner i rfl).opened

theorem filterMap_of_forall₂ {α β γ : Type} {f : α → Option γ} {k : β → γ} {l : List α}
    {l' : List β} (h : List.Forall₂ (fun a b => f a = some (k b)) l l') :
    l.filterMap f = l'.map k := by
  induction h with
  | nil => rfl
  | cons hab _ ih => rw [List.filterMap_cons, hab, List.map_cons, ih]

section Finish

variable (hdistinct : additions.Pairwise fun a b => a.path.same b.path = false)

include hdistinct

/-- An import that waits opens in the finished graph what it is to open. -/
theorem opening?_of_records {p : PendingImport} {e : ImportRecord}
    (hp : p ∈ (run additions).imports) (hrecord : Records (run additions).graph p e) :
    ((run additions).finish.definition? p.definition).bind
      ((run additions).finish.opening? p.definition.scope) = some (e.opening additions) := by
  have hledger := isLedger_run hdistinct
  have hkept := reopens_finish (run additions)
  obtain ⟨own, hown, hsome, hinner⟩ := hrecord.definition
  have htarget := map_opened_target? hdistinct p.language p.site
  rw [hrecord.language, hrecord.site] at htarget
  rw [definition?_finish hledger, hown, opening?_of_mem hledger hp, hrecord.language, hrecord.site,
    Option.map_some, Option.bind_some, ScopeGraph.opening?, if_pos hrecord.kind, hkept.fileOf,
    hrecord.file, opened_congr hkept, opened_or htarget hsome hinner, ImportRecord.opening]
  have hshut : ∀ o, Definition.shut { e.definition with opens := o } = e.definition := by
    intro o
    rw [Definition.shut, ← hrecord.closed]
  rw [hshut]

theorem mem_imports_iff (a : Handle) : a ∈ (run additions).imports.map (·.definition) ↔
    a ∈ (run additions).finish.handles ∧ (((run additions).finish.definition? a).bind
      ((run additions).finish.opening? a.scope)).isSome = true := by
  have hledger := isLedger_run hdistinct
  constructor
  · intro ha
    obtain ⟨p, hp, rfl⟩ := List.mem_map.mp ha
    obtain ⟨e, -, hrecord⟩ := exists_of_mem_forall₂ hledger.records hp
    have hopening := opening?_of_records hdistinct hp hrecord
    obtain ⟨d, hd, -⟩ := Option.bind_eq_some_iff.mp hopening
    exact ⟨mem_handles.mpr ⟨d, hd⟩, by rw [hopening]; rfl⟩
  · rintro ⟨-, hsome⟩
    obtain ⟨o, ho⟩ := Option.isSome_iff_exists.mp hsome
    obtain ⟨d, hd, hopening⟩ := Option.bind_eq_some_iff.mp ho
    rw [definition?_finish hledger, Option.map_eq_some_iff] at hd
    obtain ⟨c, hc, rfl⟩ := hd
    refine hledger.complete a c hc ?_
    rw [ScopeGraph.opening?] at hopening
    split_ifs at hopening with hkind
    exact hkind

theorem filterMap_imports : ((run additions).imports.map (·.definition)).filterMap
    (fun a => ((run additions).finish.definition? a).bind
      ((run additions).finish.opening? a.scope)) =
    (additions.flatMap (·.imports)).map (·.opening additions) := by
  rw [List.filterMap_map]
  obtain ⟨hlength, hrecords⟩ := List.forall₂_iff_get.mp (isLedger_run hdistinct).records
  refine filterMap_of_forall₂ (List.forall₂_iff_get.mpr ⟨hlength, fun n hn hn' => ?_⟩)
  exact opening?_of_records hdistinct (List.get_mem _ _) (hrecords n hn hn')

/-- The imports of a finished graph are those of the files, and open what they lead to. -/
theorem perm_openings : (run additions).finish.openings.Perm
    (additions.flatMap fun a => a.imports.map (·.opening additions)) := by
  rw [openings_eq, ← List.map_flatMap, ← filterMap_imports hdistinct]
  generalize hv : (fun a : Handle => ((run additions).finish.definition? a).bind
    ((run additions).finish.opening? a.scope)) = v
  have hwaiting : ((run additions).finish.handles.filter fun a => (v a).isSome).Perm
      ((run additions).imports.map (·.definition)) := by
    refine (List.perm_ext_iff_of_nodup ((nodup_handles _).filter _)
      (isLedger_run hdistinct).nodup).mpr fun a => ?_
    rw [List.mem_filter, mem_imports_iff hdistinct, ← hv]
  have hfilter : ((run additions).finish.handles.filter fun a => (v a).isSome).filterMap v =
      (run additions).finish.handles.filterMap v := by
    rw [List.filterMap_filter]
    refine List.filterMap_congr fun a _ => ?_
    cases v a <;> rfl
  rw [← hfilter]
  exact hwaiting.filterMap v

end Finish

/-! ## The order of files -/

theorem find?_same_eq_some_iff
    (hdistinct : additions.Pairwise fun a b => a.path.same b.path = false) {c q : Path} :
    (additions.map (·.path)).find? (·.same c) = some q ↔
      q ∈ additions.map (·.path) ∧ q.same c = true := by
  constructor
  · intro h
    exact ⟨List.mem_of_find?_eq_some h, by simpa using List.find?_some h⟩
  · rintro ⟨hq, hsame⟩
    obtain ⟨r, hr⟩ : ∃ r, (additions.map (·.path)).find? (·.same c) = some r := by
      rw [← Option.isSome_iff_exists, List.find?_isSome]
      exact ⟨q, hq, hsame⟩
    have hrsame : r.same c = true := by simpa using List.find?_some hr
    obtain ⟨a, ha, rfl⟩ := List.mem_map.mp hq
    obtain ⟨b, hb, rfl⟩ := List.mem_map.mp (List.mem_of_find?_eq_some hr)
    rw [Path.same_iff] at hsame hrsame
    rw [hr, eq_of_same hdistinct hb ha (Path.same_iff.mpr (hrsame.trans hsame.symm))]

theorem distinct_of_perm {additions' : List Addition} (h : additions.Perm additions')
    (hdistinct : additions.Pairwise fun a b => a.path.same b.path = false) :
    additions'.Pairwise fun a b => a.path.same b.path = false :=
  h.pairwise hdistinct fun {a b} hab => by rw [Path.same_comm, hab]

/-- Where an import leads does not depend on the order of the files. -/
theorem destination?_perm {additions' : List Addition} (h : additions.Perm additions')
    (hdistinct : additions.Pairwise fun a b => a.path.same b.path = false) (language : Language)
    (site : Import) :
    destination? additions' language site = destination? additions language site := by
  have hkeys : ∀ k, k ∈ (packagedPaths additions').map (·.packageKey) ↔
      k ∈ (packagedPaths additions).map (·.packageKey) := fun k =>
    (((h.filter _).map _).map _).symm.mem_iff
  have hfiles : ∀ c : Path, (additions'.map (·.path)).find? (·.same c) =
      (additions.map (·.path)).find? (·.same c) := by
    intro c
    refine Option.ext fun q => ?_
    rw [find?_same_eq_some_iff hdistinct, find?_same_eq_some_iff (distinct_of_perm h hdistinct),
      (h.map _).mem_iff]
  cases language with
  | go => rw [destination?, destination?, longestKey?_congr hkeys]
  | python => simp only [destination?, hfiles]
  | rust | csharp => rfl

/-- **What imports open does not depend on the order of files.** Let files with different paths be
added. The imports of the finished graph are those of the files. Each of them opens what it leads to
(`destination?`). If it leads to nothing, it opens nothing, unless its mark covers the same bytes as
that of a scope. If the files are added in another order, the imports open the same files and
packages. -/
theorem openings_finish (additions : List Addition)
    (hdistinct : additions.Pairwise fun a b => a.path.same b.path = false) :
    (run additions).finish.openings.Perm
      (additions.flatMap fun a => a.imports.map (·.opening additions)) ∧
    ∀ additions', additions.Perm additions' →
      (run additions').finish.openings.Perm (run additions).finish.openings := by
  refine ⟨perm_openings hdistinct, fun additions' hperm => ?_⟩
  have hopening : ∀ e : ImportRecord, e.opening additions' = e.opening additions := by
    intro e
    rw [ImportRecord.opening, ImportRecord.opening, destination?_perm hperm hdistinct]
  have hsame : (additions'.flatMap fun a => a.imports.map (·.opening additions')) =
      additions'.flatMap fun a => a.imports.map (·.opening additions) := by
    simp only [hopening]
  calc (run additions').finish.openings
      ~ additions'.flatMap fun a => a.imports.map (·.opening additions') :=
        perm_openings (distinct_of_perm hperm hdistinct)
    _ ~ additions.flatMap fun a => a.imports.map (·.opening additions) := by
        rw [hsame]
        exact hperm.symm.flatMap_right _
    _ ~ (run additions).finish.openings := (perm_openings hdistinct).symm

/-- A Go file that imports the package of another directory. -/
def goImporter : Addition :=
  .marks ⟨"a"⟩ .go ⟨[], [⟨⟨0, 9⟩, .imported, none, none, some "m/p", "import_spec",
    ⟨⟨"a"⟩, 1, 1, 1, 9⟩⟩], []⟩

/-- A Python file that imports a module. -/
def pythonImporter : Addition :=
  .marks ⟨"b"⟩ .python ⟨[], [⟨⟨0, 8⟩, .imported, none, none, some "c", "import_statement",
    ⟨⟨"b"⟩, 1, 1, 1, 9⟩⟩], []⟩

/-- The importing files, before what they import. -/
def importers : List Addition :=
  [goImporter, pythonImporter, .empty ⟨"c.py"⟩, .marks ⟨"p/x"⟩ .go ⟨[], [], []⟩]

/-- The import of the Go file. -/
def goImport : ImportRecord :=
  ⟨⟨"p", .imported, none, some "m/p", ⟨⟨"a"⟩, 1, 1, 1, 9⟩, none⟩, .go,
    ⟨"m/p", none, "import_spec", ⟨"a"⟩⟩, false⟩

/-- The import of the Python file. -/
def pythonImport : ImportRecord :=
  ⟨⟨"c", .imported, none, some "c", ⟨⟨"b"⟩, 1, 1, 1, 9⟩, none⟩, .python,
    ⟨"c", none, "import_statement", ⟨"b"⟩⟩, false⟩

theorem openings_finish_importers :
    (run importers).finish.openings.Perm
      [⟨some ⟨"a"⟩, goImport.definition, .package "p"⟩,
        ⟨some ⟨"b"⟩, pythonImport.definition, .file ⟨"c.py"⟩⟩] ∧
    (run importers.reverse).finish.openings.Perm (run importers).finish.openings := by
  have hdistinct : importers.Pairwise fun a b => a.path.same b.path = false := by decide +kernel
  have hgo : goImporter.imports = [goImport] := by decide +kernel
  have hpython : pythonImporter.imports = [pythonImport] := by decide +kernel
  have hpackage : destination? importers .go goImport.site = some (.package "p") := by
    decide +kernel
  have hfile : destination? importers .python pythonImport.site = some (.file ⟨"c.py"⟩) := by
    decide +kernel
  have hempty : (Addition.empty ⟨"c.py"⟩).imports = [] := by decide +kernel
  have himported : (Addition.marks ⟨"p/x"⟩ .go ⟨[], [], []⟩).imports = [] := by decide +kernel
  have hrecords : (importers.flatMap fun a => a.imports.map (·.opening importers)) =
      [goImport.opening importers, pythonImport.opening importers] := by
    simp only [importers, List.flatMap_cons, List.flatMap_nil, hgo, hpython, hempty, himported,
      List.map_cons, List.map_nil, List.nil_append, List.cons_append]
  obtain ⟨hopenings, horder⟩ := openings_finish importers hdistinct
  refine ⟨?_, horder _ importers.reverse_perm.symm⟩
  rw [hrecords, ImportRecord.opening, ImportRecord.opening] at hopenings
  rw [show goImport.language = .go from rfl, show pythonImport.language = .python from rfl,
    hpackage, hfile] at hopenings
  exact hopenings

end ScopeBuilder

end SourceAtlas
