/-!
# Tokens

A source is read as tokens: the smallest pieces that the rules of a language speak of. Blanks and
comments lie between them.

* `Token`, `Token.Kind`, `Token.after`, `Token.literal`;
* `Scan`: reading a buffer byte by byte, `Scan.byteAt`, `Scan.skip`, `Scan.slice`;
* `Scan.isWordStart`, `Scan.isWordPart`, `Scan.word`, `Scan.number`, `Scan.closing?`,
  `Scan.commentEnd?`.
-/

namespace SourceAtlas

/-- The kinds of tokens. -/
inductive Token.Kind where
  /-- A name. -/
  | word
  /-- A word that the language reserves. -/
  | keyword
  /-- A placeholder of a macro. -/
  | placeholder
  | number
  /-- A literal between quotes. -/
  | text
  /-- The opening of a literal that holds expressions. -/
  | quoteOpen
  /-- The end of a literal that holds expressions. -/
  | quoteClose
  /-- Punctuation. -/
  | mark
  /-- The end of a line that ends a statement. -/
  | newline
  /-- The start of a deeper block. -/
  | indent
  /-- The end of a deeper block. -/
  | dedent
  /-- A byte that starts no token, or a literal or comment without an end. -/
  | stray
deriving DecidableEq, Repr, Inhabited

/-- A token and the bytes it covers. -/
structure Token where
  kind : Token.Kind
  text : String
  start : Nat
  stop : Nat
  /-- Nothing lies between the token and the one before. -/
  glued : Bool
deriving Repr, Inhabited

/-- The token of this kind and text from `i` to `j`, after the tokens `done`. -/
def Token.after (done : Array Token) (kind : Token.Kind) (text : String) (i j : Nat) : Token :=
  ⟨kind, text, i, j, (done.back?.map (·.stop)) == some i⟩

/-- The literal that starts at `i` and ends where `stop` says; one without an end is stray. -/
def Token.literal (done : Array Token) (b : ByteArray) (i : Nat) (stop : Option Nat) : Token :=
  match stop with
  | some j => .after done .text "" i j
  | none => .after done .stray "" i b.size

namespace Scan

/-- The byte at an offset, zero past the end. -/
def byteAt (b : ByteArray) (i : Nat) : UInt8 := if h : i < b.size then b[i] else 0

/-- The byte of an ASCII character. -/
def byte (c : Char) : UInt8 := c.toNat.toUInt8

/-- Does the character stand at an offset? -/
def sees (b : ByteArray) (i : Nat) (c : Char) : Bool := i < b.size && byteAt b i == byte c

/-- Do the characters stand one after the other from an offset on? -/
def seesAll (b : ByteArray) : Nat → List Char → Bool
  | _, [] => true
  | i, c :: cs => sees b i c && seesAll b (i + 1) cs

/-- The first offset from `i` on whose byte does not satisfy `p`. -/
def skip (p : UInt8 → Bool) (b : ByteArray) (i : Nat) : Nat :=
  go (b.size - i) i
where
  /-- Looks at no more than `n` bytes. -/
  go : Nat → Nat → Nat
    | 0, i => i
    | n + 1, i => if i < b.size && p (byteAt b i) then go n (i + 1) else i

/-- The text between two offsets; empty if it is no text. -/
def slice (b : ByteArray) (i j : Nat) : String := (String.fromUTF8? (b.extract i j)).getD ""

/-- A decimal digit. -/
def isDigit (c : UInt8) : Bool := byte '0' ≤ c && c ≤ byte '9'

/-- A letter, an underscore or a part of a character outside ASCII. -/
def isWordStart (c : UInt8) : Bool :=
  (byte 'a' ≤ c && c ≤ byte 'z') || (byte 'A' ≤ c && c ≤ byte 'Z') || c == byte '_' || 128 ≤ c

/-- What continues a word. -/
def isWordPart (c : UInt8) : Bool := isWordStart c || isDigit c

/-- The end of the word that starts at an offset. -/
def word (b : ByteArray) (i : Nat) : Nat := Scan.skip isWordPart b i

/-- The end of the line, before its line break. -/
def lineEnd (b : ByteArray) (i : Nat) : Nat := Scan.skip (· != 10) b i

/-- The first offset from `i` on where the characters stand, or the end. -/
def find (cs : List Char) (b : ByteArray) (i : Nat) : Nat :=
  go (b.size - i) i
where
  /-- Looks at no more than `n` offsets. -/
  go : Nat → Nat → Nat
    | 0, i => i
    | n + 1, i => if seesAll b i cs then i else go n (i + 1)

/-- The offset after a literal whose closing characters are `cs`, read from inside, if they come; a
backslash hides the byte after it if `escapes` is set. -/
def closing? (cs : List Char) (escapes : Bool) (b : ByteArray) (i : Nat) : Option Nat :=
  go (b.size - i) i
where
  /-- Looks at no more than `n` bytes. -/
  go : Nat → Nat → Option Nat
    | 0, _ => none
    | n + 1, i =>
      if i ≥ b.size then none
      else if escapes && sees b i '\\' then go n (i + 2)
      else if seesAll b i cs then some (i + cs.length)
      else go n (i + 1)

/-- The end of the block comment whose inside starts at an offset, if it has one; comments nest if
`nested` is set. -/
def commentEnd? (nested : Bool) (b : ByteArray) (i : Nat) : Option Nat :=
  go (b.size - i) 1 i
where
  /-- Looks at no more than `n` bytes, inside `depth` comments. -/
  go : Nat → Nat → Nat → Option Nat
    | 0, _, _ => none
    | n + 1, depth, i =>
      if i ≥ b.size then none
      else if seesAll b i ['*', '/'] then
        if depth ≤ 1 then some (i + 2) else go n (depth - 1) (i + 2)
      else if nested && seesAll b i ['/', '*'] then go n (depth + 1) (i + 2)
      else go n depth (i + 1)

/-- The end of the number that starts at an offset. A point belongs to it only if `point` allows the
byte that follows it; a sign belongs to it after an exponent mark. -/
def number (point : UInt8 → Bool) (b : ByteArray) (i : Nat) : Nat :=
  let hex := sees b i '0' && (sees b (i + 1) 'x' || sees b (i + 1) 'X')
  let isMark := fun (c : UInt8) =>
    if hex then c == byte 'p' || c == byte 'P' else c == byte 'e' || c == byte 'E'
  go isMark (b.size - i) i
where
  /-- Looks at no more than `n` bytes. -/
  go (isMark : UInt8 → Bool) : Nat → Nat → Nat
    | 0, i => i
    | n + 1, i =>
      if i ≥ b.size then i
      else
        let c := byteAt b i
        if isMark c && (sees b (i + 1) '+' || sees b (i + 1) '-') && isDigit (byteAt b (i + 2)) then
          go isMark n (i + 2)
        else if isWordPart c then go isMark n (i + 1)
        else if c == byte '.' && point (byteAt b (i + 1)) then go isMark n (i + 1)
        else i

/-- The first of the marks that stands at an offset. -/
def mark? (marks : List String) (b : ByteArray) (i : Nat) : Option String :=
  marks.find? fun m => seesAll b i m.toList

/-- The offset after a byte order mark at the start of the buffer. -/
def afterByteOrderMark (b : ByteArray) : Nat :=
  if byteAt b 0 == 0xEF && byteAt b 1 == 0xBB && byteAt b 2 == 0xBF then 3 else 0

end Scan

end SourceAtlas
