import SourceAtlas.Regex.CharClass

/-!
# Regular expressions

An expression relates the positions of a text: it leads from a position to those at which a match
that starts there may end.

* `Look`: conditions on a position;
* `Regex`, `Regex.ends`: the positions that are reached from others;
* **`Regex.isMatch`**: does the expression match somewhere in a text?
* `Regex.weight`: the size of the expression with its repetitions written out.
-/

namespace SourceAtlas

/-- How a position stands to the words around it. -/
inductive WordSide where
  | boundary
  | noBoundary
  | start
  | stop
  | startHalf
  | stopHalf
deriving DecidableEq, Repr

/-- A condition on a position. -/
inductive Look where
  | textStart
  | textEnd
  /-- At the start of a line. If `pairs` is set, a carriage return ends lines too. -/
  | lineStart (pairs : Bool)
  | lineEnd (pairs : Bool)
  /-- How the position stands to words, of ASCII characters only if `ascii` is set. -/
  | word (side : WordSide) (ascii : Bool)
deriving DecidableEq, Repr

namespace Look

/-- Is a character part of a word? -/
def isWord (ascii : Bool) (c : Option Char) : Bool :=
  match c with
  | some c => if ascii then CharClass.asciiWord.contains c else Text.isWordChar c
  | none => false

/-- Does the condition hold at a position? -/
def holds (text : Array Char) (i : Nat) : Look → Bool
  | textStart => i == 0
  | textEnd => i == text.size
  | lineStart pairs =>
    let before := if i = 0 then none else text[i - 1]?
    i == 0 || before == some '\n' || (pairs && before == some '\r' && text[i]? != some '\n')
  | lineEnd pairs =>
    let before := if i = 0 then none else text[i - 1]?
    if pairs then
      i == text.size || text[i]? == some '\r' || (text[i]? == some '\n' && before != some '\r')
    else i == text.size || text[i]? == some '\n'
  | word side ascii =>
    let before := isWord ascii (if i = 0 then none else text[i - 1]?)
    let after := isWord ascii text[i]?
    match side with
    | .boundary => before != after
    | .noBoundary => before == after
    | .start => !before && after
    | .stop => before && !after
    | .startHalf => !before
    | .stopHalf => !after

end Look

/-- A regular expression. -/
inductive Regex where
  | empty
  | one (c : CharClass)
  | look (l : Look)
  | seq (a b : Regex)
  | alt (a b : Regex)
  /-- At least `lo` times and, if `hi` is given, at most so often. -/
  | times (r : Regex) (lo : Nat) (hi : Option Nat)
deriving Repr, Inhabited

namespace Regex

/-- Joins two sets of positions. -/
def join (a b : List Nat) : List Nat := a ++ b.filter fun i => !a.contains i

/-- Takes so many steps. -/
def steps (f : List Nat → List Nat) : Nat → List Nat → List Nat
  | 0, ps => ps
  | n + 1, ps => if ps.isEmpty then [] else steps f n (f ps)

/-- Takes no more than so many steps from the new positions and keeps all positions on the way. -/
def reach (f : List Nat → List Nat) : Nat → List Nat → List Nat → List Nat
  | 0, seen, _ => seen
  | n + 1, seen, new =>
    let next := (f new).filter fun i => !seen.contains i
    if next.isEmpty then seen else reach f n (seen ++ next) next

/-- The positions to which the expression leads from the given ones. No more repetitions are needed
than there are positions, because one of more repetitions matches nothing and could be left out. -/
def ends (text : Array Char) : Regex → List Nat → List Nat
  | empty, ps => ps
  | one c, ps => ps.filterMap fun i => if (text[i]?).any c.contains then some (i + 1) else none
  | look l, ps => ps.filter fun i => l.holds text i
  | seq a b, ps => ends text b (ends text a ps)
  | alt a b, ps => join (ends text a ps) (ends text b ps)
  | times r lo hi, ps =>
    let enough := text.size + 1
    let f := fun qs => (ends text r qs).eraseDups
    let least := steps f (min lo enough) ps
    match hi with
    | some hi => reach f (min (hi - lo) enough) least least
    | none => reach f enough least least

/-- Does the expression match somewhere in a text? -/
def isMatch (r : Regex) (text : String) : Bool :=
  let cs := text.toList.toArray
  !(r.ends cs (List.range (cs.size + 1))).isEmpty

/-! ## Size -/

/-- How much room a class takes. -/
def classWeight : CharClass → Nat
  | .ranges rs => (rs.map fun (_, b) => if b < 128 then 32 else 100).foldl (· + ·) 0
  | .categories cs => 2000 * cs.length
  | .word => 9000
  | .blank => 400
  | .alphabetic => 7000
  | .lowercase | .uppercase => 5000
  | .negate c | .foldedAscii c => 32 + classWeight c
  | .folded c => 2 * classWeight c
  | .union a b | .inter a b | .diff a b | .symmDiff a b => classWeight a + classWeight b

/-- How much room an expression takes with its repetitions written out. -/
def weight : Regex → Nat
  | empty | look _ => 32
  | one c => classWeight c
  | seq a b => weight a + weight b
  | alt a b => weight a + weight b + 40
  | times r lo hi =>
    match hi with
    | some hi => weight r * hi + 40 * (hi - lo)
    | none => weight r * max lo 1 + 40

end Regex

end SourceAtlas
