import SourceAtlas.Glob.Basic
import SourceAtlas.Problem
import SourceAtlas.Text.Quoted

/-!
# Reading globs

* `Glob.Flaw`: what can be wrong with the text of a glob;
* `Glob.Draft`: the parts read so far, with the groups that are still open;
* **`Glob.ofPattern`**;
* `IgnoreRules.ofPatterns`, `IgnoreRules.ignores`: the paths that are left out.
-/

namespace SourceAtlas

namespace Glob

/-- What is wrong with the text of a glob. -/
inductive Flaw where
  | unclosedClass
  | invalidRange (low high : Char)
  | unclosedGroup
  | unopenedGroup
  | danglingEscape
deriving DecidableEq, Repr

/-- The wording of a flaw. -/
def Flaw.message : Flaw → String
  | .unclosedClass => "unclosed character class; missing ']'"
  | .invalidRange low high => s!"invalid range; '{low}' > '{high}'"
  | .unclosedGroup =>
    "unclosed alternate group; missing '\x7d' (maybe escape '\x7b' with '[\x7b]'?)"
  | .unopenedGroup =>
    "unopened alternate group; missing '\x7b' (maybe escape '\x7d' with '[\x7d]'?)"
  | .danglingEscape => "dangling '\\'"

/-! ## Classes -/

/-- Reads the ranges of a class up to its closing bracket, which is an ordinary character if it
comes first. A range is open if its hyphen has been read but not its end; a hyphen that ends the
class is an ordinary character too. The last range read comes first. -/
def readRanges : List Char → List (Char × Char) → (first isOpen : Bool) →
    Except Flaw (List (Char × Char) × List Char)
  | [], _, _, _ => .error .unclosedClass
  | c :: cs, ranges, first, isOpen =>
    if c = ']' && !first then .ok ((if isOpen then ('-', '-') :: ranges else ranges).reverse, cs)
    else if c = '-' && !first && !isOpen then readRanges cs ranges false true
    else if isOpen then
      match ranges with
      | (low, _) :: others =>
        if c < low then .error (.invalidRange low c)
        else readRanges cs ((low, c) :: others) false false
      | [] => readRanges cs [(c, c)] false false
    else readRanges cs ((c, c) :: ranges) false false

theorem readRanges_length {cs : List Char} {ranges : List (Char × Char)} {first isOpen : Bool}
    {found : List (Char × Char)} {rest : List Char}
    (h : readRanges cs ranges first isOpen = .ok (found, rest)) : rest.length < cs.length := by
  fun_induction readRanges cs ranges first isOpen with
  | case1 => simp at h
  | case2 => simp_all
  | case4 => simp at h
  | case3 | case5 | case6 | case7 =>
    rename_i ih
    have := ih h
    simp only [List.length_cons]
    omega

/-- Reads a class behind its opening bracket. -/
def readClass (cs : List Char) : Except Flaw (Part × List Char) :=
  match cs with
  | '!' :: rest | '^' :: rest =>
    (readRanges rest [] true false).map fun (ranges, rest) => (.oneOf true ranges, rest)
  | rest => (readRanges rest [] true false).map fun (ranges, rest) => (.oneOf false ranges, rest)

theorem readClass_length {cs rest : List Char} {p : Part} (h : readClass cs = .ok (p, rest)) :
    rest.length < cs.length := by
  unfold readClass at h
  split at h
  all_goals
    simp only [Except.map] at h
    split at h
    · simp at h
    · rename_i _ v hv
      obtain ⟨found, tail⟩ := v
      have := readRanges_length hv
      simp only [Except.ok.injEq, Prod.mk.injEq] at h
      obtain ⟨_, rfl⟩ := h
      grind

/-! ## Parts -/

/-- A group that is still open: its finished branches, the last one first, and the parts before
the group. -/
structure OpenGroup where
  branches : List (List Part)
  before : List Part

/-- What has been read of a glob. -/
structure Draft where
  /-- The parts of the innermost branch, the last one first. -/
  parts : List Part
  /-- The open groups, the innermost one first. -/
  groups : List OpenGroup

namespace Draft

/-- Adds a part. -/
def push (d : Draft) (p : Part) : Draft := { d with parts := p :: d.parts }

/-- Opens a group. -/
def openGroup (d : Draft) : Draft := ⟨[], ⟨[], d.parts⟩ :: d.groups⟩

/-- Starts the next branch of a group; outside of groups a comma is an ordinary character. -/
def nextBranch (d : Draft) : Draft :=
  match d.groups with
  | [] => d.push (.literal ',')
  | g :: outer => ⟨[], { g with branches := d.parts.reverse :: g.branches } :: outer⟩

/-- Closes a group. -/
def closeGroup (d : Draft) : Except Flaw Draft :=
  match d.groups with
  | [] => .error .unopenedGroup
  | g :: outer => .ok ⟨.choice (d.parts.reverse :: g.branches).reverse :: g.before, outer⟩

/-- Puts a part that stands for directories in the place of the separator before it. -/
def joinDirectories (d : Draft) (p : Part) : Draft :=
  match d.parts with
  | .leading :: _ | .trailing :: _ => d
  | _ :: before => { d with parts := p :: before }
  | [] => d.push p

/-- The end of the glob. -/
def finish (d : Draft) : Except Flaw Glob :=
  match d.groups with
  | [] => .ok ⟨d.parts.reverse⟩
  | _ :: _ => .error .unclosedGroup

/-- Adds two stars that stand next to each other behind the character `previous`. They stand for
directories only where they make up a whole step of the path; the separator behind them is then part
of them. What remains to be read is given too, with the character before it. -/
def pushStars (d : Draft) (previous : Option Char) (rest : List Char) :
    Draft × List Char × Char :=
  let ordinary := ((d.push .star).push .star, rest, '*')
  if d.parts.isEmpty then
    match rest with
    | [] => (d.push .leading, [], '*')
    | c :: cs => if c = '/' then (d.push .leading, cs, '/') else ordinary
  else if previous = some '/' ||
      (!d.groups.isEmpty && (previous = some ',' || previous = some '\x7b')) then
    match rest with
    | [] => (d.joinDirectories .trailing, [], '*')
    | c :: cs =>
      if c = '/' then (d.joinDirectories .between, cs, '/')
      else if !d.groups.isEmpty && (c = ',' || c = '\x7d') then
        (d.joinDirectories .trailing, rest, '*')
      else ordinary
  else ordinary

theorem pushStars_length (d : Draft) (previous : Option Char) (rest : List Char) :
    (d.pushStars previous rest).2.1.length ≤ rest.length := by
  unfold pushStars
  simp only
  repeat' split
  all_goals simp

end Draft

/-- Reads a glob. The character before the text is `previous`. -/
def read (d : Draft) (previous : Option Char) (cs : List Char) : Except Flaw Glob :=
  match cs with
  | [] => d.finish
  | '?' :: rest => read (d.push .any) (some '?') rest
  | '*' :: '*' :: rest =>
    have := d.pushStars_length previous rest
    let next := d.pushStars previous rest
    read next.1 (some next.2.2) next.2.1
  | '*' :: rest => read (d.push .star) (some '*') rest
  | '[' :: rest =>
    match h : readClass rest with
    | .ok (p, after) =>
      have := readClass_length h
      read (d.push p) (some ']') after
    | .error flaw => .error flaw
  | '\x7b' :: rest => read d.openGroup (some '\x7b') rest
  | '\x7d' :: rest =>
    match d.closeGroup with
    | .ok d => read d (some '\x7d') rest
    | .error flaw => .error flaw
  | ',' :: rest => read d.nextBranch (some ',') rest
  | ['\\'] => .error .danglingEscape
  | '\\' :: c :: rest => read (d.push (.literal c)) (some c) rest
  | c :: rest => read (d.push (.literal c)) (some c) rest
termination_by cs.length
decreasing_by all_goals simp only [List.length_cons]; omega

/-- The glob that a text describes. -/
def ofPattern (pattern : String) : Except Flaw Glob := read ⟨[], []⟩ none pattern.toList

end Glob

/-- Globs of paths to be left out. -/
structure IgnoreRules where
  globs : List Glob

namespace IgnoreRules

/-- Reads one of the patterns. -/
def readPattern (pattern : String) : Except Failure Glob :=
  (Glob.ofPattern pattern).mapError fun flaw =>
    .config (s!"invalid ignore pattern {Text.quoted pattern}: " ++
      s!"error parsing glob '{pattern}': {flaw.message}")

/-- Reads patterns; the first one that is flawed counts. -/
def ofPatterns (patterns : List String) : Except Failure IgnoreRules :=
  (patterns.mapM readPattern).map IgnoreRules.mk

/-- Does one of the globs describe a text? -/
def isMatch (s : IgnoreRules) (path : String) : Bool := s.globs.any (·.isMatch path)

/-- Is a path left out, for itself or for its file name? -/
def ignores (s : IgnoreRules) (relative : Path) : Bool :=
  s.isMatch relative.text || relative.fileName.any s.isMatch

end IgnoreRules

end SourceAtlas
