import SourceAtlas.Json.Value

/-!
# Reading JSON

The text must be one value with nothing but blanks around it. Of members with the same key the last
one counts. Arrays and objects nest to a limited depth, and a number must not be too large for a
double.

* `JsonValue.readText`, `JsonValue.readNumber`, `JsonValue.readValue`;
* **`JsonValue.parse`**.
-/

namespace SourceAtlas

namespace JsonValue

/-- A blank between tokens. -/
def isGap (c : Char) : Bool := c == ' ' || c == '\n' || c == '\t' || c == '\r'

/-- Drops the blanks in front. -/
def skip (cs : List Char) : List Char := cs.dropWhile isGap

/-! ## Texts -/

/-- The value of a hexadecimal digit. -/
def hexValue? (c : Char) : Option Nat :=
  if '0' ≤ c && c ≤ '9' then some (c.toNat - 48)
  else if 'a' ≤ c && c ≤ 'f' then some (c.toNat - 87)
  else if 'A' ≤ c && c ≤ 'F' then some (c.toNat - 55)
  else none

/-- The number that four hexadecimal digits stand for. -/
def unit? (a b c d : Char) : Option Nat := do
  some (16 * (16 * (16 * (← hexValue? a) + (← hexValue? b)) + (← hexValue? c)) + (← hexValue? d))

/-- The character that a letter after a backslash stands for. -/
def unescape? : Char → Option Char
  | '"' => some '"'
  | '\\' => some '\\'
  | '/' => some '/'
  | 'b' => some '\x08'
  | 'f' => some '\x0c'
  | 'n' => some '\n'
  | 'r' => some '\r'
  | 't' => some '\t'
  | _ => none

/-- Is the unit the first half of a pair? -/
def isLeading (u : Nat) : Bool := 0xD800 ≤ u && u < 0xDC00

/-- Is the unit the second half of a pair? -/
def isTrailing (u : Nat) : Bool := 0xDC00 ≤ u && u < 0xE000

/-- The inside of a text after its opening quote, and what follows the closing one. Characters
outside the first plane are written as pairs of units, and half a pair is no character. -/
def readText : List Char → List Char → Option (String × List Char)
  | '"' :: rest, done => some (String.ofList done.reverse, rest)
  | '\\' :: 'u' :: a :: b :: c :: d :: '\\' :: 'u' :: e :: f :: g :: h :: rest, done =>
    match unit? a b c d with
    | none => none
    | some u =>
      if isLeading u then
        match unit? e f g h with
        | some v =>
          if isTrailing v then
            readText rest (Char.ofNat (0x10000 + (u - 0xD800) * 0x400 + (v - 0xDC00)) :: done)
          else none
        | none => none
      else if isTrailing u then none
      else readText ('\\' :: 'u' :: e :: f :: g :: h :: rest) (Char.ofNat u :: done)
  | '\\' :: 'u' :: a :: b :: c :: d :: rest, done =>
    match unit? a b c d with
    | some u => if isLeading u || isTrailing u then none else readText rest (Char.ofNat u :: done)
    | none => none
  | '\\' :: c :: rest, done =>
    match unescape? c with
    | some x => readText rest (x :: done)
    | none => none
  | c :: rest, done => if c.toNat < 32 then none else readText rest (c :: done)
  | [], _ => none

/-! ## Numbers -/

/-- Takes digits into a number as long as it fits in 64 bits; the digits after that are dropped. The
result tells the number, how many digits it took and how many it dropped. -/
def significand (start : Nat) (digits : List Char) : Nat × Nat × Nat :=
  digits.foldl
    (fun (n, taken, dropped) d =>
      let next := 10 * n + (d.toNat - 48)
      if 0 < dropped || Nat.pow 2 64 ≤ next then (n, taken, dropped + 1) else (next, taken + 1, 0))
    (start, 0, 0)

/-- Is a number times a power of ten too large for a double? -/
def isTooLarge (n : Nat) (exponent : Int) : Bool :=
  if n = 0 || exponent < 0 then false
  else if 308 < exponent then true
  else (n.toFloat * Float.ofScientific 1 false exponent.toNat).isInf

/-- The digits in front. -/
def digits (cs : List Char) : List Char × List Char := cs.span Char.isDigit

/-- The digits after a point, if there is one. A point without digits is an error. -/
def fraction? : List Char → Option (List Char × List Char)
  | '.' :: rest =>
    let (ds, rest) := digits rest
    if ds.isEmpty then none else some (ds, rest)
  | cs => some ([], cs)

/-- An exponent, if there is one. An exponent mark without digits is an error. -/
def exponent? : List Char → Option (Option Int × List Char)
  | c :: rest =>
    if c == 'e' || c == 'E' then
      let (negated, rest) := match rest with
        | '+' :: more => (false, more)
        | '-' :: more => (true, more)
        | _ => (false, rest)
      let (ds, rest) := digits rest
      if ds.isEmpty then none
      else
        let n : Int := Nat.ofDigitChars 10 ds 0
        some (some (if negated then -n else n), rest)
    else some (none, c :: rest)
  | [] => some (none, [])

/-- A number without its sign, and what follows it. -/
def readNumber (negated : Bool) (cs : List Char) : Option (JsonValue × List Char) := do
  let (whole, rest) := digits cs
  if whole.isEmpty || (whole.head? == some '0' && 1 < whole.length) then none
  else
    let (frac, rest) ← fraction? rest
    let (exp, rest) ← exponent? rest
    let written := cs.take (cs.length - rest.length)
    let real := JsonValue.real (String.ofList (if negated then '-' :: written else written))
    let n := Nat.ofDigitChars 10 whole 0
    if frac.isEmpty && exp.isNone then
      if !negated && n < Nat.pow 2 64 then some (natural n, rest)
      else if negated && 0 < n && n ≤ Nat.pow 2 63 then some (negative n, rest)
      else
        let (m, _, dropped) := significand 0 whole
        if isTooLarge m dropped then none else some (real, rest)
    else
      let (m, _, dropped) := significand 0 whole
      let (m, taken, _) := significand m frac
      if isTooLarge m ((dropped : Int) - taken + exp.getD 0) then none else some (real, rest)

/-! ## Values -/

/-- Reads the characters, and gives what follows them. -/
def expect? (expected : String) (cs : List Char) : Option (List Char) :=
  let e := expected.toList
  if e.isPrefixOf cs then some (cs.drop e.length) else none

/-- Of members with the same key only the last one stays. -/
def lastMembers : List (String × JsonValue) → List (String × JsonValue)
  | [] => []
  | m :: ms =>
    let rest := lastMembers ms
    if rest.any (·.1 == m.1) then rest else m :: rest

mutual

/-- Reads a value in which arrays and objects may nest to a depth, with no more than `n` steps. -/
def readValue : Nat → Nat → List Char → Option (JsonValue × List Char)
  | 0, _, _ => none
  | n + 1, depth, cs =>
    match skip cs with
    | '\x7b' :: rest =>
      if depth = 0 then none
      else
        match skip rest with
        | '\x7d' :: after => some (object [], after)
        | _ => readMembers n (depth - 1) rest []
    | '[' :: rest =>
      if depth = 0 then none
      else
        match skip rest with
        | ']' :: after => some (array [], after)
        | _ => readItems n (depth - 1) rest []
    | '"' :: rest => (readText rest []).map fun (s, after) => (text s, after)
    | 'n' :: rest => (expect? "ull" rest).map fun after => (null, after)
    | 't' :: rest => (expect? "rue" rest).map fun after => (bool true, after)
    | 'f' :: rest => (expect? "alse" rest).map fun after => (bool false, after)
    | '-' :: rest => readNumber true rest
    | other => readNumber false other

/-- Reads the items of an array up to its closing bracket; those before stand from the last to the
first. -/
def readItems : Nat → Nat → List Char → List JsonValue → Option (JsonValue × List Char)
  | 0, _, _, _ => none
  | n + 1, depth, cs, done =>
    match readValue n depth cs with
    | none => none
    | some (v, rest) =>
      match skip rest with
      | ',' :: more => readItems n depth more (v :: done)
      | ']' :: after => some (array (v :: done).reverse, after)
      | _ => none

/-- Reads the members of an object up to its closing brace; those before stand from the last to the
first. -/
def readMembers :
    Nat → Nat → List Char → List (String × JsonValue) → Option (JsonValue × List Char)
  | 0, _, _, _ => none
  | n + 1, depth, cs, done =>
    match skip cs with
    | '"' :: rest =>
      match readText rest [] with
      | none => none
      | some (k, rest) =>
        match skip rest with
        | ':' :: rest =>
          match readValue n depth rest with
          | none => none
          | some (v, rest) =>
            match skip rest with
            | ',' :: more => readMembers n depth more ((k, v) :: done)
            | '\x7d' :: after => some (object (lastMembers ((k, v) :: done).reverse), after)
            | _ => none
        | _ => none
    | _ => none

end

/-- How deep arrays and objects may nest. -/
def depthLimit : Nat := 127

/-- Reads a text. -/
def parse (s : String) : Option JsonValue :=
  let cs := s.toList
  match readValue (cs.length + 1) depthLimit cs with
  | some (v, rest) => if (skip rest).isEmpty then some v else none
  | none => none

end JsonValue

end SourceAtlas
