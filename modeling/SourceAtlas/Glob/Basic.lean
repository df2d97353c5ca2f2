/-!
# Globs

A glob describes paths, which it takes as bytes. A part of a glob leads from the rests of a path
that are still to be matched to those that remain behind it.

* `Glob.Part`, `Glob`;
* `Glob.Part.advance`: what remains behind a part;
* **`Glob.isMatch`**: does the glob describe the whole path?
-/

namespace SourceAtlas

/-- One part of a glob. -/
inductive Glob.Part where
  | literal (c : Char)
  /-- Any one byte. -/
  | any
  /-- Any bytes. -/
  | star
  /-- Nothing, or directories at the start of the path. -/
  | leading
  /-- All that is below a directory. -/
  | trailing
  /-- A separator, with directories behind it or not. -/
  | between
  /-- One byte of the characters in some ranges, or one of the other bytes. -/
  | oneOf (negated : Bool) (ranges : List (Char × Char))
  /-- One of some branches. -/
  | choice (branches : List (List Part))
deriving Inhabited

/-- A description of paths. -/
structure Glob where
  parts : List Glob.Part
deriving Inhabited

namespace Glob

/-- The byte between the steps of a path. -/
def separator : UInt8 := 0x2f

/-- The bytes of a character. -/
def charBytes (c : Char) : List UInt8 := String.utf8EncodeChar c

/-- All rests of some bytes, from the longest to the empty one. -/
def rests : List UInt8 → List (List UInt8)
  | [] => [[]]
  | b :: s => (b :: s) :: rests s

/-- The rests of some bytes that stand behind a separator. -/
def restsBehindSeparator : List UInt8 → List (List UInt8)
  | [] => []
  | b :: s => if b = separator then s :: restsBehindSeparator s else restsBehindSeparator s

/-- Takes some bytes away from the front. -/
def strip? : List UInt8 → List UInt8 → Option (List UInt8)
  | [], s => some s
  | _ :: _, [] => none
  | a :: w, b :: s => if a = b then strip? w s else none

/-- Drops the rests that are as long as an earlier one. As all of them are rests of one path, these
are the repeated ones. -/
def distinct (ss : List (List UInt8)) : List (List UInt8) :=
  ss.foldr (fun s done => s :: done.filter (·.length ≠ s.length)) []

/-- Does a range hold a byte? The ends of the range are taken as bytes: the range goes from the last
byte of the one to the first byte of the other, and their other bytes are held too. -/
def rangeHolds (range : Char × Char) (b : UInt8) : Bool :=
  let low := charBytes range.1
  let high := charBytes range.2
  if range.1 = range.2 then low.contains b
  else
    low.dropLast.contains b || high.tail.contains b ||
      (low.getLast?.any (· ≤ b) && high.head?.any (b ≤ ·))

mutual

/-- Can the part only match the empty text? -/
def Part.isBlank : Part → Bool
  | .choice branches => areBlank branches
  | _ => false

/-- Can the parts only match the empty text? -/
def isBlankSeq : List Part → Bool
  | [] => true
  | p :: ps => p.isBlank && isBlankSeq ps

/-- Can all branches only match the empty text? -/
def areBlank : List (List Part) → Bool
  | [] => true
  | b :: bs => isBlankSeq b && areBlank bs

end

mutual

/-- What may remain behind a part of what was to be matched. A blank branch is no choice beside
others that are not. -/
def Part.advance : Part → List (List UInt8) → List (List UInt8)
  | .literal c, ss => ss.filterMap (strip? (charBytes c))
  | .any, ss => ss.filterMap List.tail?
  | .star, ss => distinct (ss.flatMap rests)
  | .leading, ss => distinct (ss.flatMap fun s => s :: restsBehindSeparator s)
  | .trailing, ss => distinct ((ss.filterMap (strip? [separator])).flatMap rests)
  | .between, ss =>
    distinct ((ss.filterMap (strip? [separator])).flatMap fun s => s :: restsBehindSeparator s)
  | .oneOf negated ranges, ss => ss.filterMap fun s =>
    match s with
    | [] => none
    | b :: s => if (ranges.any fun r => rangeHolds r b) != negated then some s else none
  | .choice branches, ss =>
    if areBlank branches then ss else distinct (advanceAny branches ss)

/-- What may remain behind some parts. -/
def advanceAll : List Part → List (List UInt8) → List (List UInt8)
  | [], ss => ss
  | p :: ps, ss => advanceAll ps (p.advance ss)

/-- What may remain behind one of some branches. -/
def advanceAny : List (List Part) → List (List UInt8) → List (List UInt8)
  | [], _ => []
  | b :: bs, ss => (if isBlankSeq b then [] else advanceAll b ss) ++ advanceAny bs ss

end

/-! ## Names -/

/-- Is the part a character? -/
def Part.isLiteral : Part → Bool
  | .literal _ => true
  | _ => false

/-- The parts behind a leading `**`. -/
def withoutLeading : List Part → List Part
  | .leading :: ps => ps
  | ps => ps

/-- Does the glob ask for the end of a name, which the last step of a path must have? This is so for
a plain name below any directories and for a dot that ends the glob behind other parts, unless the
glob only asks how the path ends. -/
def asksForName (g : Glob) : Bool :=
  let ps := withoutLeading g.parts
  let isDot := fun (p : Part) => match p with
    | .literal c => c == '.'
    | _ => false
  let isSlash := fun (p : Part) => match p with
    | .literal c => c == '/'
    | _ => false
  let named := match g.parts with
    | .leading :: ps => !ps.isEmpty && ps.all fun p => p.isLiteral && !isSlash p
    | _ => false
  let ending := match ps with
    | .star :: tail => tail.all Part.isLiteral && tail.length ≠ 1
    | tail => tail.all Part.isLiteral
  named || (!ending && g.parts.getLast?.any isDot)

/-- The bytes behind the last separator. -/
def lastStep (path : List UInt8) : List UInt8 :=
  (path.reverse.takeWhile (· ≠ separator)).reverse

/-- Does the glob describe the whole path? The glob `**` describes every path. A path that ends in
`..` has no name. -/
def isMatch (g : Glob) (path : String) : Bool :=
  let bytes := path.toUTF8.toList
  match g.parts with
  | [.leading] => true
  | parts =>
    (advanceAll parts [bytes]).any List.isEmpty &&
      !(g.asksForName && lastStep bytes == "..".toUTF8.toList)

end Glob

end SourceAtlas
