/-!
# Blank characters and words

A text is read as words separated by blank characters, where *blank* is the Unicode property
`White_Space`.

* `isBlank`, `segments`, `words`;
* `trimStart`, `trimEnd`, `trim`;
* **`collapse`**: the words of a text joined by single spaces.
-/

namespace SourceAtlas.Text

/-- The characters with the Unicode property `White_Space`. -/
def isBlank (c : Char) : Bool :=
  let n := c.toNat
  n == 0x20 || (0x09 ≤ n && n ≤ 0x0D) || n == 0x85 || n == 0xA0 || n == 0x1680 ||
    (0x2000 ≤ n && n ≤ 0x200A) || n == 0x2028 || n == 0x2029 || n == 0x202F || n == 0x205F ||
    n == 0x3000

/-- The pieces of a list between the elements that satisfy `sep`; there is always at least one. -/
def segments {α : Type} (sep : α → Bool) : List α → List (List α)
  | [] => [[]]
  | c :: cs =>
    if sep c then [] :: segments sep cs
    else
      match segments sep cs with
      | [] => [[c]]
      | w :: ws => (c :: w) :: ws

/-- The maximal runs of characters that are not blank. -/
def words (cs : List Char) : List (List Char) :=
  (segments isBlank cs).filter fun w => !w.isEmpty

/-- Without the blanks in front. -/
def trimStart (cs : List Char) : List Char := cs.dropWhile isBlank

/-- Without the blanks at the end. -/
def trimEnd (cs : List Char) : List Char := (cs.reverse.dropWhile isBlank).reverse

/-- Without the blanks at both ends. -/
def trim (cs : List Char) : List Char := trimEnd (trimStart cs)

/-- The words joined by single spaces. -/
def joinWords (ws : List (List Char)) : List Char := [' '].intercalate ws

/-- Every run of blanks becomes one space and the ends are trimmed. -/
def collapse (s : String) : String := String.ofList (joinWords (words s.toList))

/-- The pieces of a text between the characters that satisfy `sep`. -/
def splitBy (sep : Char → Bool) (s : String) : List String :=
  (segments sep s.toList).map String.ofList

end SourceAtlas.Text
