import SourceAtlas.Syntax.Token

/-!
# Tokens of Go sources

A line break ends a statement if the last token before it can: a name, a literal, a closing bracket,
an increment, or one of the words that stand alone.

* `Go.endsStatement`, **`Go.tokens`**.
-/

namespace SourceAtlas.Go

open Scan

/-- The reserved words. -/
def keywords : List String :=
  ["break", "case", "chan", "const", "continue", "default", "defer", "else", "fallthrough", "for",
    "func", "go", "goto", "if", "import", "interface", "map", "package", "range", "return",
    "select", "struct", "switch", "type", "var"]

/-- The marks, longer ones before their beginnings. -/
def marks : List String :=
  ["<<=", ">>=", "&^=", "...", "&&", "||", "<-", "++", "--", "==", "!=", "<=", ">=", ":=", "+=",
    "-=", "*=", "/=", "%=", "&=", "|=", "^=", "<<", ">>", "&^", "+", "-", "*", "/", "%", "&", "|",
    "^", "<", ">", "=", "!", "(", ")", "[", "]", "\x7b", "\x7d", ",", ";", ".", ":", "~"]

/-- Does a line break after this token end a statement? -/
def endsStatement (t : Token) : Bool :=
  match t.kind with
  | .word | .number | .text => true
  | .keyword => ["break", "continue", "fallthrough", "return"].contains t.text
  | .mark => [")", "]", "\x7d", "++", "--"].contains t.text
  | _ => false

/-- Blanks other than the line break. -/
def isGap (c : UInt8) : Bool := c == 32 || c == 9 || c == 11 || c == 12 || c == 13

/-- Ends the statement before an offset, if there is one to end. -/
def withLineEnd (i : Nat) (done : Array Token) : Array Token :=
  match done.back? with
  | some t => if endsStatement t then done.push ⟨.newline, "", i, i, false⟩ else done
  | none => done

/-- The token that starts at an offset. -/
def next (b : ByteArray) (i : Nat) (done : Array Token) : Token :=
  let c := byteAt b i
  if isWordStart c then
    let j := word b i
    let text := slice b i j
    let kind := if text = "" then .stray else if keywords.contains text then .keyword else .word
    Token.after done kind text i j
  else if isDigit c || (sees b i '.' && isDigit (byteAt b (i + 1))) then
    Token.after done .number "" i (number (fun _ => true) b i)
  else if sees b i '"' then Token.literal done b i (closing? ['"'] true b (i + 1))
  else if sees b i '\'' then Token.literal done b i (closing? ['\''] true b (i + 1))
  else if sees b i '\x60' then Token.literal done b i (closing? ['\x60'] false b (i + 1))
  else
    match mark? marks b i with
    | some m => Token.after done .mark m i (i + m.length)
    | none => Token.after done .stray "" i (i + 1)

/-- Reads no more than `n` pieces from the offset `i` on. -/
def scan (b : ByteArray) : Nat → Nat → Array Token → Array Token
  | 0, _, done => done
  | n + 1, i, done =>
    if i ≥ b.size then withLineEnd i done
    else if byteAt b i == 10 then scan b n (i + 1) (withLineEnd i done)
    else if isGap (byteAt b i) then scan b n (i + 1) done
    else if seesAll b i ['/', '/'] then scan b n (lineEnd b i) done
    else if seesAll b i ['/', '*'] then
      match commentEnd? false b (i + 2) with
      | some j => scan b n j done
      | none => done.push (.after done .stray "" i b.size)
    else
      let t := next b i done
      scan b n (max t.stop (i + 1)) (done.push t)

/-- The tokens of a source. -/
def tokens (b : ByteArray) : Array Token := scan b (b.size + 1) (afterByteOrderMark b) #[]

end SourceAtlas.Go
