import SourceAtlas.FileTree.Walk
import SourceAtlas.Index
import SourceAtlas.Outline

/-!
# Building indexes

An index is built from the files that a walk finds. A file whose language, size and time of change
are those recorded in an earlier index of the same root is not read: its summary is taken over. The
other files are dealt out to workers in blocks, and what the workers return is put together in the
order of the files.

A tree of files stays as it is while a build goes on, so a file that the walk found has a size and a
time of change, and it is there when it is read. Every language has a grammar, and every source has
a syntax tree. Left out are therefore the problems of files that vanish during a build, of grammars
that cannot be loaded and of sources without a tree: a file fails only if it cannot be read or is
not UTF-8. Workers can always be started.

* `Candidate.outline`: the summary of a file, or what is wrong with it;
* `Candidate.reuse?`: the summary that an earlier index has of it;
* `Workers.count`, `Workers.run`;
* `BuildOptions`, `BuildReport`, `Index.ofFindings`;
* **`FileTree.build`**: the index of a directory or of a single file.
-/

namespace SourceAtlas

/-! ## Files -/

namespace StoredFile

/-- The size as it is recorded. -/
def recordedSize (f : StoredFile) : UInt64 := f.content.size.toUInt64

/-- The time of change as it is recorded; times before 1970 are not told apart. -/
def recordedTime (f : StoredFile) : Int64 := if f.modified < 0 then 0 else f.modified.toInt64

end StoredFile

namespace Candidate

/-- The summary of a file, or what is wrong with it. -/
def outline (c : Candidate) : Except Problem Summary :=
  if !c.file.isReadable then .error ⟨c.path, .ioError, FileError.denied.message⟩
  else if !c.file.content.validateUTF8 then .error (.encoding c.path)
  else
    let outline := Outline.ofSource c.language c.path c.file.content
    .ok { outline.summary with
      size := c.file.recordedSize
      modTime := c.file.recordedTime }

/-- Does a summary stand for the file as it is? -/
def isCurrent (c : Candidate) (s : Summary) : Bool :=
  s.language == c.language && s.size == c.file.recordedSize && s.modTime == c.file.recordedTime

/-- The summary of the file in an earlier index, if it stands for the file as it is. -/
def reuse? (baseline : Option Index) (c : Candidate) : Option Summary :=
  match baseline.bind (·.file? c.path) with
  | some s => if c.isCurrent s then some (s.withPath c.path) else none
  | none => none

/-- The summaries among some outcomes. -/
def summaries (outcomes : List (Except Problem Summary)) : List Summary :=
  outcomes.filterMap fun o => match o with
    | .ok s => some s
    | .error _ => none

/-- The problems among some outcomes. -/
def problems (outcomes : List (Except Problem Summary)) : List Problem :=
  outcomes.filterMap fun o => match o with
    | .ok _ => none
    | .error p => some p

end Candidate

/-! ## Workers -/

namespace Workers

/-- How many workers there are for a number of jobs: as many as wanted, but no more than jobs, and
at least one. -/
def count (wanted : Option Nat) (jobs : Nat) : Nat := max 1 (min (wanted.getD 1) jobs)

/-- Cuts a list into blocks of a size, the last of which may be smaller. -/
def blocks {α : Type} (size : Nat) (jobs : List α) : List (List α) :=
  match jobs with
  | [] => []
  | j :: js => (j :: js.take (size - 1)) :: blocks size (js.drop (size - 1))
termination_by jobs.length
decreasing_by simp only [List.length_drop, List.length_cons]; omega

/-- What the workers return for a list of jobs, each of them working on a block. -/
def run {α β : Type} (workers : Nat) (work : α → β) (jobs : List α) : List β :=
  (blocks ((jobs.length + workers - 1) / workers) jobs).flatMap (·.map work)

end Workers

/-! ## Builds -/

/-- How an index is to be built. -/
structure BuildOptions where
  ignored : Ignore := fun _ _ => false
  workers : Option Nat := none
  /-- An index whose summaries may be taken over. -/
  previous : Option Index := none

/-- What happened in a build. -/
structure BuildReport where
  candidates : Nat
  parsed : Nat
  reused : Nat
  failed : Nat
  symbols : Nat
  references : Nat
  /-- The directories that could not be listed. -/
  skipped : List Path
deriving DecidableEq, Repr

/-- The index whose summaries may be taken over in a build of a root. -/
def BuildOptions.baseline (o : BuildOptions) (root : Path) : Option Index :=
  o.previous.filter fun i => i.root.same root

/-- The index of what was found below a root. -/
def Index.ofFindings (o : BuildOptions) (now : Timestamp) (root : Path) (found : List Finding) :
    Index × BuildReport :=
  let candidates := Finding.candidates found
  let baseline := o.baseline root
  let reused := candidates.filterMap (Candidate.reuse? baseline)
  let jobs := candidates.filter fun c => (c.reuse? baseline).isNone
  let outcomes := Workers.run (Workers.count o.workers jobs.length) Candidate.outline jobs
  let parsed := Candidate.summaries outcomes
  let index := Index.assemble root now (reused ++ parsed) (Candidate.problems outcomes)
  (index,
    { candidates := candidates.length
      parsed := parsed.length
      reused := reused.length
      failed := index.problems.length
      symbols := index.symbols.length
      references := index.references.length
      skipped := found.filterMap Finding.skipped? })

/-- Builds the index of a directory, or of a single file as if nothing else were in its
directory. -/
def FileTree.build (t : FileTree) (o : BuildOptions) (now : Timestamp) (p : Path) :
    Except Failure (Index × BuildReport) :=
  match t.locate p with
  | .error _ => .error (.io ("index root not found: " ++ p.text))
  | .ok names =>
    match t.get? names with
    | some (.file f) =>
      let path : Path := ⟨names.getLast?.getD ""⟩
      let found := (Language.ofPath? path).toList.map fun l => Finding.candidate ⟨path, l, f⟩
      .ok (Index.ofFindings o now (pathOf names.dropLast) found)
    | some (.directory entries) =>
      .ok (Index.ofFindings o now (pathOf names) (Finding.ofListing o.ignored ⟨""⟩ entries))
    | _ => .ok (Index.ofFindings o now (pathOf names) [.skipped (pathOf names)])

end SourceAtlas
