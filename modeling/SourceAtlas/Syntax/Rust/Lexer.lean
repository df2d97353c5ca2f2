import SourceAtlas.Syntax.Token

/-!
# Tokens of Rust sources

Marks are single characters, except for the arrows, the path separator and the dots, because what
`>>` or `||` stands for depends on where it stands. A lifetime is a quote followed by a word.

* `Rust.quoted?`: literals between quotes;
* **`Rust.tokens`**.
-/

namespace SourceAtlas.Rust

open Scan

/-- The reserved words. -/
def keywords : List String :=
  ["as", "async", "await", "break", "const", "continue", "crate", "dyn", "else", "enum", "extern",
    "false", "fn", "for", "if", "impl", "in", "let", "loop", "match", "mod", "move", "mut", "pub",
    "ref", "return", "self", "static", "struct", "super", "trait", "true", "type", "unsafe", "use",
    "where", "while", "yield"]

/-- The marks, longer ones before their beginnings. -/
def marks : List String :=
  ["...", "..=", "::", "->", "=>", "..", "+", "-", "*", "/", "%", "&", "|", "^", "<", ">", "=",
    "!", "(", ")", "[", "]", "\x7b", "\x7d", ",", ";", ".", ":", "?", "@", "#", "$", "\'", "~",
    "_"]

/-- Blanks. -/
def isGap (c : UInt8) : Bool := c == 32 || (9 ≤ c && c ≤ 13)

/-- The end of a literal between a quote and the hashes that go with it; its inside starts at
`i`. -/
def rawEnd? (hashes : Nat) (b : ByteArray) (i : Nat) : Option Nat :=
  closing? ('"' :: List.replicate hashes '#') false b i

/-- The literal that starts at an offset with a quote or with letters before it, told by its end, if
it has one. -/
def quoted? (b : ByteArray) (i : Nat) : Option (Option Nat) :=
  let j := if sees b i 'b' || sees b i 'c' then i + 1 else i
  let k := if sees b j 'r' then j + 1 else j
  let m := Scan.skip (· == byte '#') b k
  if j < k && sees b m '"' then some (rawEnd? (m - k) b (m + 1))
  else if sees b j '"' then some (closing? ['"'] true b (j + 1))
  else if j == i + 1 && sees b i 'b' && sees b j '\'' then some (closing? ['\''] true b (j + 1))
  else none

/-- The length of the character whose first byte is `c`. -/
def charLength (c : UInt8) : Nat :=
  if c < 0xC0 then 1 else if c < 0xE0 then 2 else if c < 0xF0 then 3 else 4

/-- The end of a character between quotes, if one starts at the offset. -/
def character? (b : ByteArray) (i : Nat) : Option Nat :=
  if sees b (i + 1) '\\' then closing? ['\''] true b (i + 1)
  else
    let j := i + 1 + charLength (byteAt b (i + 1))
    if sees b j '\'' && i + 1 < b.size then some (j + 1) else none

/-- Does a token stand before that makes a number a member? -/
def afterDot (done : Array Token) : Bool :=
  match done.back? with
  | some t => t.text == "."
  | none => false

/-- May a point that is followed by this byte belong to a number? -/
def pointAllowed (c : UInt8) : Bool := !(isWordStart c || c == byte '.')

/-- The token that starts at an offset. -/
def next (b : ByteArray) (i : Nat) (done : Array Token) : Token :=
  let c := byteAt b i
  match quoted? b i with
  | some stop => .literal done b i stop
  | none =>
    if isWordStart c then
      let raw := seesAll b i ['r', '#'] && isWordStart (byteAt b (i + 2))
      let j := word b (if raw then i + 2 else i)
      let text := slice b i j
      let kind := if text = "" then .stray else if keywords.contains text then .keyword else .word
      .after done kind text i j
    else if isDigit c then
      let j := if afterDot done then Scan.skip isDigit b i else number pointAllowed b i
      .after done .number "" i j
    else if sees b i '$' && isWordStart (byteAt b (i + 1)) then
      let j := word b (i + 1)
      .after done .placeholder (slice b i j) i j
    else
      match (if sees b i '\'' then character? b i else none) with
      | some j => .after done .text "" i j
      | none =>
        match mark? marks b i with
        | some m => .after done .mark m i (i + m.length)
        | none => .after done .stray "" i (i + 1)

/-- Reads no more than `n` pieces from the offset `i` on. -/
def scan (b : ByteArray) : Nat → Nat → Array Token → Array Token
  | 0, _, done => done
  | n + 1, i, done =>
    if i ≥ b.size then done
    else if isGap (byteAt b i) then scan b n (i + 1) done
    else if seesAll b i ['/', '/'] then scan b n (lineEnd b i) done
    else if seesAll b i ['/', '*'] then
      match commentEnd? true b (i + 2) with
      | some j => scan b n j done
      | none => done.push (.after done .stray "" i b.size)
    else
      let t := next b i done
      scan b n (max t.stop (i + 1)) (done.push t)

/-- The offset after a first line that names an interpreter. -/
def afterInterpreter (b : ByteArray) (i : Nat) : Nat :=
  let j := Scan.skip (fun c => c == 32 || c == 9) b (i + 2)
  if seesAll b i ['#', '!'] && !(sees b j '[') then lineEnd b i else i

/-- The tokens of a source. -/
def tokens (b : ByteArray) : Array Token :=
  scan b (b.size + 1) (afterInterpreter b (afterByteOrderMark b)) #[]

end SourceAtlas.Rust
