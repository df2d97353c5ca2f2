import SourceAtlas.Syntax.Token

/-!
# Tokens of C# sources

The closing bracket of type arguments is a mark of its own, so that two of them may stand side by
side. A line that starts with a hash is a directive and lies between tokens like a comment.

* `CSharp.Frame`: the inside of a literal that holds expressions;
* `CSharp.State`, `CSharp.step`;
* **`CSharp.tokens`**.
-/

namespace SourceAtlas.CSharp

open Scan

/-- The reserved words. -/
def keywords : List String :=
  ["abstract", "as", "base", "bool", "break", "byte", "case", "catch", "char", "checked", "class",
    "const", "continue", "decimal", "default", "delegate", "do", "double", "else", "enum", "event",
    "explicit", "extern", "false", "finally", "fixed", "float", "for", "foreach", "goto", "if",
    "implicit", "in", "int", "interface", "internal", "is", "lock", "long", "namespace", "new",
    "null", "object", "operator", "out", "override", "params", "private", "protected", "public",
    "readonly", "ref", "return", "sbyte", "sealed", "short", "sizeof", "stackalloc", "static",
    "string", "struct", "switch", "this", "throw", "true", "try", "typeof", "uint", "ulong",
    "unchecked", "unsafe", "ushort", "using", "virtual", "void", "volatile", "while"]

/-- The marks, longer ones before their beginnings. -/
def marks : List String :=
  ["<<=", "??=", "=>", "??", "::", "->", "++", "--", "&&", "||", "==", "!=", "<=", "<<", "..", "+=",
    "-=", "*=", "/=", "%=", "&=", "|=", "^=", "+", "-", "*", "/", "%", "&", "|", "^", "~", "!",
    "<", ">", "=", "?", "(", ")", "[", "]", "\x7b", "\x7d", ",", ";", ".", ":"]

/-- Where a literal that holds expressions is being read. -/
inductive Frame where
  /-- In its text, up to the closing quotes. An expression starts after so many braces, and a
  backslash hides what follows it if `escapes` is set. -/
  | text (quotes : List Char) (escapes : Bool) (braces : Nat)
  /-- In an expression, inside so many brackets; so many braces end it. -/
  | hole (depth braces : Nat)
  /-- After the colon that starts a format; so many braces end it. -/
  | format (braces : Nat)
deriving Repr

/-- What has been read. -/
structure State where
  /-- The next offset. -/
  i : Nat
  frames : List Frame
  done : Array Token

/-- Blanks. -/
def isGap (c : UInt8) : Bool := c == 32 || (9 ≤ c && c ≤ 13)

/-- Does a line start at an offset, apart from blanks before it? -/
def startsLine (b : ByteArray) : Nat → Bool
  | 0 => true
  | i + 1 =>
    let c := byteAt b i
    if c == 10 then true else if isGap c then startsLine b i else false

/-- Adds a token and moves behind it. -/
def State.push (s : State) (kind : Token.Kind) (text : String) (j : Nat) : State :=
  { s with i := j, done := s.done.push (.after s.done kind text s.i j) }

/-- Adds a literal that ends where `stop` says; one without an end is stray. -/
def State.pushClosed (b : ByteArray) (s : State) (stop : Option Nat) : State :=
  let t := Token.literal s.done b s.i stop
  { s with i := t.stop, done := s.done.push t }

/-- So many braces of a kind stand at an offset. -/
def seesBraces (b : ByteArray) (i : Nat) (brace : Char) (n : Nat) : Bool :=
  seesAll b i (List.replicate n brace)

/-- Reads a mark, keeping count of the brackets in an expression. -/
def State.pushMark (s : State) (m : String) : State :=
  let t := s.push .mark m (s.i + m.length)
  match s.frames with
  | .hole d n :: rest =>
    if m == "(" || m == "[" || m == "\x7b" then { t with frames := .hole (d + 1) n :: rest }
    else if m == ")" || m == "]" || m == "\x7d" then
      if d = 0 then { s.push .mark m (s.i + n) with frames := rest }
      else { t with frames := .hole (d - 1) n :: rest }
    else if m == ":" && d = 0 then { t with frames := .format n :: rest }
    else t
  | _ => t

/-- The offset after the letters that may follow a literal. -/
def afterSuffix (b : ByteArray) (i : Nat) : Nat :=
  if seesAll b i ['u', '8'] || seesAll b i ['U', '8'] then i + 2 else i

/-- The offset after a literal in which two quotes stand for one, read from inside, if it is
closed. -/
def verbatimEnd? (b : ByteArray) : Nat → Nat → Option Nat
  | 0, _ => none
  | n + 1, i =>
    if i ≥ b.size then none
    else if seesAll b i ['"', '"'] then verbatimEnd? b n (i + 2)
    else if sees b i '"' then some (i + 1)
    else verbatimEnd? b n (i + 1)

/-- Reads the literal whose quotes stand at `j`, after so many dollar signs and, if `verbatim` is
set, an at sign. -/
def State.pushLiteral (b : ByteArray) (s : State) (j dollars : Nat) (verbatim : Bool) : State :=
  let many := Scan.skip (· == byte '"') b j - j
  let raw := 3 ≤ many
  let quotes := List.replicate (if raw then many else 1) '"'
  let inside := j + quotes.length
  if 0 < dollars then
    let s := s.push .quoteOpen "" inside
    let braces := if raw then dollars else 0
    { s with frames := .text quotes (!verbatim && !raw) braces :: s.frames }
  else
    let stop :=
      if raw then closing? quotes false b inside
      else if verbatim then verbatimEnd? b (b.size - inside) inside
      else closing? quotes true b inside
    s.pushClosed b (stop.map (afterSuffix b))

/-- Reads a piece of code outside of literals. -/
def stepCode (b : ByteArray) (s : State) : State :=
  let i := s.i
  let c := byteAt b i
  let j := Scan.skip (fun c => c == byte '$' || c == byte '@') b i
  let dollars := ((List.range (j - i)).filter fun k => sees b (i + k) '$').length
  if isGap c then { s with i := i + 1 }
  else if seesAll b i ['/', '/'] then { s with i := lineEnd b i }
  else if seesAll b i ['/', '*'] then
    match commentEnd? false b (i + 2) with
    | some j => { s with i := j }
    | none => s.push .stray "" b.size
  else if sees b i '#' && startsLine b i then { s with i := lineEnd b i }
  else if sees b j '"' then s.pushLiteral b j dollars (dollars < j - i)
  else if sees b i '\'' then s.pushClosed b (closing? ['\''] true b (i + 1))
  else if sees b i '@' && isWordStart (byteAt b (i + 1)) then
    let j := word b (i + 1)
    s.push .word (slice b i j) j
  else if isWordStart c then
    let j := word b i
    let text := slice b i j
    let kind := if text = "" then .stray else if keywords.contains text then .keyword else .word
    s.push kind text j
  else if isDigit c || (sees b i '.' && isDigit (byteAt b (i + 1))) then
    s.push .number "" (number isDigit b i)
  else
    match mark? marks b i with
    | some m => s.pushMark m
    | none => s.push .stray "" (i + 1)

/-- Reads a piece of the text of a literal that holds expressions. -/
def stepText (b : ByteArray) (quotes : List Char) (escapes : Bool) (braces : Nat)
    (rest : List Frame) (s : State) : State :=
  let i := s.i
  let isRaw := 0 < braces
  let n := max braces 1
  if !isRaw && !escapes && seesAll b i ['"', '"'] then { s with i := i + 2 }
  else if seesAll b i quotes then
    { s.push .quoteClose "" (afterSuffix b (i + quotes.length)) with frames := rest }
  else if !isRaw && (seesBraces b i '\x7b' 2 || seesBraces b i '\x7d' 2) then { s with i := i + 2 }
  else if seesBraces b i '\x7b' n && !(isRaw && sees b (i + n) '\x7b') then
    { s.push .mark "\x7b" (i + n) with frames := .hole 0 n :: s.frames }
  else if escapes && sees b i '\\' then { s with i := i + 2 }
  else { s with i := i + 1 }

/-- Reads a piece of a format. -/
def stepFormat (b : ByteArray) (braces : Nat) (rest : List Frame) (s : State) : State :=
  if seesBraces b s.i '\x7d' braces then
    { s.push .mark "\x7d" (s.i + braces) with frames := rest }
  else { s with i := s.i + 1 }

/-- Reads one piece. -/
def step (b : ByteArray) (s : State) : State :=
  match s.frames with
  | .text quotes escapes braces :: rest => stepText b quotes escapes braces rest s
  | .format braces :: rest => stepFormat b braces rest s
  | _ => stepCode b s

/-- Reads no more than `n` pieces. -/
def scan (b : ByteArray) : Nat → State → State
  | 0, s => s
  | n + 1, s => if s.i ≥ b.size then s else scan b n (step b s)

/-- The tokens of a source. -/
def tokens (b : ByteArray) : Array Token :=
  (scan b (b.size + 1) ⟨afterByteOrderMark b, [], #[]⟩).done

end SourceAtlas.CSharp
