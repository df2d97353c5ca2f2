import SourceAtlas.Syntax.Token

/-!
# Tokens of Python sources

Blocks are told by indentation: a line that starts deeper than its block opens a block, and one that
starts less deep closes the blocks it leaves. Line breaks between brackets do not count. A comment
line belongs to the block whose depth it has, so that a block ends after the comments in it.

* `Python.Frame`: the inside of a literal that holds expressions;
* `Python.State`, `Python.lineBreak`, `Python.step`;
* **`Python.tokens`**.
-/

namespace SourceAtlas.Python

open Scan

/-- The reserved words. -/
def keywords : List String :=
  ["False", "None", "True", "and", "as", "assert", "async", "await", "break", "class", "continue",
    "def", "del", "elif", "else", "except", "finally", "for", "from", "global", "if", "import",
    "in", "is", "lambda", "nonlocal", "not", "or", "pass", "raise", "return", "try", "while",
    "with", "yield"]

/-- The marks, longer ones before their beginnings. -/
def marks : List String :=
  ["**=", "//=", ">>=", "<<=", "...", "->", ":=", "==", "!=", "<=", ">=", "<>", "//", "**", "<<",
    ">>", "+=", "-=", "*=", "/=", "%=", "@=", "&=", "|=", "^=", "+", "-", "*", "/", "%", "@", "&",
    "|", "^", "~", "<", ">", "(", ")", "[", "]", "\x7b", "\x7d", ",", ":", ".", ";", "=", "!",
    "\x60"]

/-- Where a literal that holds expressions is being read. -/
inductive Frame where
  /-- In its text, up to the closing quotes. -/
  | text (quotes : List Char)
  /-- In an expression, inside so many brackets. -/
  | hole (depth : Nat)
  /-- After the colon that starts a format. -/
  | format
deriving Repr

/-- What has been read. -/
structure State where
  /-- The next offset. -/
  i : Nat
  /-- The end of the last token or comment. -/
  last : Nat
  /-- How many brackets are open. -/
  depth : Nat
  frames : List Frame
  /-- The depths of the open blocks, the innermost first. -/
  indents : List Nat
  done : Array Token

/-- The depth at which the next line with a token starts. -/
structure Margin where
  i : Nat
  indent : Nat
  /-- The depths and ends of the comment lines in between. -/
  comments : List (Nat × Nat)

/-- Reads the margin from the offset `i` on, looking at no more than `n` pieces. -/
def margin (b : ByteArray) : Nat → Nat → Nat → List (Nat × Nat) → Margin
  | 0, i, indent, comments => ⟨i, indent, comments.reverse⟩
  | n + 1, i, indent, comments =>
    if i ≥ b.size then ⟨i, 0, comments.reverse⟩
    else
      let c := byteAt b i
      if c == 10 || c == 13 || c == 12 then margin b n (i + 1) 0 comments
      else if c == 32 then margin b n (i + 1) (indent + 1) comments
      else if c == 9 then margin b n (i + 1) (indent + 8) comments
      else if sees b i '#' then
        let j := lineEnd b i
        margin b n j 0 ((indent, j) :: comments)
      else if seesAll b i ['\\', '\n'] then margin b n (i + 2) indent comments
      else if seesAll b i ['\\', '\r', '\n'] then margin b n (i + 3) indent comments
      else ⟨i, indent, comments.reverse⟩

/-- Closes the blocks that a line with this depth leaves, taking in the comments that lie as deep as
the innermost block. -/
def closeBlocks (indent : Nat) : Nat → List (Nat × Nat) → State → State
  | 0, _, s => s
  | n + 1, comments, s =>
    match s.indents with
    | [] => s
    | top :: rest =>
      if indent < top then
        match comments with
        | (depth, stop) :: more =>
          if top ≤ depth then closeBlocks indent n more { s with last := stop }
          else closeBlocks indent n comments (leave rest s)
        | [] => closeBlocks indent n [] (leave rest s)
      else s
where
  /-- Leaves the innermost block. -/
  leave (rest : List Nat) (s : State) : State :=
    { s with indents := rest, done := s.done.push ⟨.dedent, "", s.last, s.last, false⟩ }

/-- Does the last token leave a statement open? -/
def inStatement (done : Array Token) : Bool :=
  match done.back? with
  | some t => !(t.kind == .newline || t.kind == .indent || t.kind == .dedent)
  | none => false

/-- Does the last token announce a block? -/
def announces (done : Array Token) : Bool :=
  match done.back? with
  | some t => t.kind == .mark && t.text == ":"
  | none => false

/-- The end of a line outside of brackets. -/
def lineBreak (b : ByteArray) (s : State) : State :=
  let m := margin b (b.size + 1 - s.i) s.i 0 []
  let opens := announces s.done && (s.indents.headD 0) < m.indent
  let s :=
    if inStatement s.done then
      { s with done := s.done.push ⟨.newline, "", s.last, s.last, false⟩ }
    else s
  let s :=
    if opens then
      { s with
        indents := m.indent :: s.indents
        done := s.done.push ⟨.indent, "", s.last, s.last, false⟩ }
    else closeBlocks m.indent (s.indents.length + m.comments.length) m.comments s
  { s with i := m.i }

/-- Blanks inside of a line. -/
def isGap (c : UInt8) : Bool := c == 32 || c == 9 || c == 11 || c == 12 || c == 13

/-- The length of an invisible character that counts as a blank. -/
def invisible (b : ByteArray) (i : Nat) : Nat :=
  if (byteAt b i == 0xEF && byteAt b (i + 1) == 0xBB && byteAt b (i + 2) == 0xBF) ||
      (byteAt b i == 0xE2 && byteAt b (i + 1) == 0x81 && byteAt b (i + 2) == 0xA0) ||
      (byteAt b i == 0xE2 && byteAt b (i + 1) == 0x80 && byteAt b (i + 2) == 0x8B) then 3
  else 0

/-- A letter that may stand before a quote. -/
def isQuoteLetter (c : UInt8) : Bool :=
  "rRbBfFuU".toList.any fun d => byte d == c

/-- A quote. -/
def isQuote (b : ByteArray) (i : Nat) : Bool := sees b i '"' || sees b i '\''

/-- The quotes that stand at an offset. -/
def quotesAt (b : ByteArray) (i : Nat) : List Char :=
  let q := if sees b i '"' then '"' else '\''
  if seesAll b i [q, q, q] then [q, q, q] else [q]

/-- Adds a token and moves behind it. -/
def State.push (s : State) (kind : Token.Kind) (text : String) (j : Nat) : State :=
  { s with i := j, last := j, done := s.done.push (.after s.done kind text s.i j) }

/-- Adds a literal that ends where `stop` says; one without an end is stray. -/
def State.pushLiteral (b : ByteArray) (s : State) (stop : Option Nat) : State :=
  let t := Token.literal s.done b s.i stop
  { s with i := t.stop, last := t.stop, done := s.done.push t }

/-- Reads a mark, keeping count of the brackets. -/
def State.pushMark (s : State) (m : String) : State :=
  let opening := m == "(" || m == "[" || m == "\x7b"
  let closing := m == ")" || m == "]" || m == "\x7d"
  let t := s.push .mark m (s.i + m.length)
  match s.frames with
  | .hole d :: rest =>
    if opening then { t with frames := .hole (d + 1) :: rest }
    else if closing then
      { t with frames := if d = 0 then rest else .hole (d - 1) :: rest }
    else if m == ":" && d = 0 then { t with frames := .format :: rest }
    else t
  | _ =>
    if opening then { t with depth := s.depth + 1 }
    else if closing then { t with depth := s.depth - 1 }
    else t

/-- Reads a piece of code outside of literals. -/
def stepCode (b : ByteArray) (s : State) : State :=
  let i := s.i
  let c := byteAt b i
  if c == 10 then
    if s.depth = 0 && s.frames.isEmpty then lineBreak b s else { s with i := i + 1 }
  else if isGap c then { s with i := i + 1 }
  else if 0 < invisible b i then { s with i := i + invisible b i }
  else if sees b i '#' then
    let j := lineEnd b i
    { s with i := j, last := j }
  else if seesAll b i ['\\', '\n'] then { s with i := i + 2 }
  else if seesAll b i ['\\', '\r', '\n'] then { s with i := i + 3 }
  else
    let j := Scan.skip isQuoteLetter b i
    if isQuote b j && j ≤ i + 3 then
      let quotes := quotesAt b j
      let letters := slice b i j
      if letters.any fun d => d == 'f' || d == 'F' then
        let s := s.push .quoteOpen "" (j + quotes.length)
        { s with frames := .text quotes :: s.frames }
      else s.pushLiteral b (closing? quotes true b (j + quotes.length))
    else if isWordStart c then
      let j := word b i
      let text := slice b i j
      let kind := if text = "" then .stray else if keywords.contains text then .keyword else .word
      s.push kind text j
    else if isDigit c || (sees b i '.' && isDigit (byteAt b (i + 1))) then
      s.push .number "" (number (· != byte '.') b i)
    else if s.frames matches (.hole 0 :: _) && sees b i ':' then s.pushMark ":"
    else
      match mark? marks b i with
      | some m => s.pushMark m
      | none => s.push .stray "" (i + 1)

/-- Reads a piece of the text of a literal that holds expressions. -/
def stepText (b : ByteArray) (quotes : List Char) (rest : List Frame) (s : State) : State :=
  let i := s.i
  if seesAll b i quotes then { s.push .quoteClose "" (i + quotes.length) with frames := rest }
  else if seesAll b i ['\x7b', '\x7b'] || seesAll b i ['\x7d', '\x7d'] then { s with i := i + 2 }
  else if sees b i '\x7b' then
    { s.push .mark "\x7b" (i + 1) with frames := .hole 0 :: s.frames }
  else if seesAll b i ['\\', 'N', '\x7b'] then { s with i := find ['\x7d'] b i + 1 }
  else if sees b i '\\' && !(sees b (i + 1) '\x7b') then { s with i := i + 2 }
  else { s with i := i + 1 }

/-- Reads a piece of a format. -/
def stepFormat (b : ByteArray) (rest : List Frame) (s : State) : State :=
  let i := s.i
  if sees b i '\x7b' then { s.push .mark "\x7b" (i + 1) with frames := .hole 0 :: s.frames }
  else if sees b i '\x7d' then { s.push .mark "\x7d" (i + 1) with frames := rest }
  else { s with i := i + 1 }

/-- Reads one piece. -/
def step (b : ByteArray) (s : State) : State :=
  match s.frames with
  | .text quotes :: rest => stepText b quotes rest s
  | .format :: rest => stepFormat b rest s
  | _ => stepCode b s

/-- Reads no more than `n` pieces. -/
def scan (b : ByteArray) : Nat → State → State
  | 0, s => s
  | n + 1, s => if s.i ≥ b.size then lineBreak b { s with i := b.size } else scan b n (step b s)

/-- The tokens of a source. -/
def tokens (b : ByteArray) : Array Token :=
  (scan b (b.size + 1) ⟨afterByteOrderMark b, 0, 0, [], [], #[]⟩).done

end SourceAtlas.Python
