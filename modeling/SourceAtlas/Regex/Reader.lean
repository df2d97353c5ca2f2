import SourceAtlas.Regex.Basic

/-!
# Reading regular expressions

The pattern is read from left to right. Flags change how what follows is read, up to the end of the
group they stand in. A pattern that makes no sense has no expression.

* `Flags`, `Cursor`, `Reader`;
* `Reader.escape`, `Reader.bracket`, `Reader.sequence`, `Reader.alternatives`;
* **`Regex.ofPattern?`**.
-/

namespace SourceAtlas

namespace Regex

/-- How a pattern is read. -/
structure Flags where
  /-- Case does not count. -/
  fold : Bool
  /-- Lines have starts and ends. -/
  lines : Bool
  /-- A dot stands for line breaks too. -/
  dotAll : Bool
  /-- Only the characters of ASCII have properties. -/
  ascii : Bool
  /-- Blanks and comments in the pattern do not count. -/
  spaced : Bool
  /-- A carriage return ends lines too. -/
  pairs : Bool
deriving Repr

/-- What is left of a pattern, the flags, and the names of the groups so far. -/
structure Cursor where
  rest : List Char
  flags : Flags
  names : List String

/-- Reads a part of a pattern, if it makes sense. -/
abbrev Reader := StateT Cursor Option

namespace Reader

/-- Drops blanks and comments. -/
def dropBlanks : Bool → List Char → List Char
  | true, c :: cs => dropBlanks (c != '\n') cs
  | false, c :: cs =>
    if c == '#' then dropBlanks true cs
    else if Text.isBlank c then dropBlanks false cs
    else c :: cs
  | _, [] => []

/-- The next character. -/
def peek? : Reader (Option Char) := do return (← get).rest.head?

/-- Moves on by one character. -/
def bump : Reader Unit := modify fun c => { c with rest := c.rest.tail }

/-- Drops blanks and comments if they do not count. -/
def blanks : Reader Unit :=
  modify fun c => if c.flags.spaced then { c with rest := dropBlanks false c.rest } else c

/-- Moves on by one character and what does not count after it. -/
def bumpBlanks : Reader Unit := do bump; blanks

/-- The next character, which has to be there. -/
def peek : Reader Char := do
  match ← peek? with
  | some c => return c
  | none => failure

/-- Reads the text if it comes next. -/
def accept (text : String) : Reader Bool := do
  let c ← get
  let cs := text.toList
  if cs.isPrefixOf c.rest then
    set { c with rest := c.rest.drop cs.length }
    return true
  else return false

/-- Reads characters as long as they satisfy `p`, at most `n`, dropping what does not count. -/
def takeWhile (p : Char → Bool) : Nat → Reader (List Char)
  | 0 => return []
  | n + 1 => do
    match ← peek? with
    | some c =>
      if p c then
        bumpBlanks
        return c :: (← takeWhile p n)
      else return []
    | none => return []

/-! ## Escapes -/

/-- What a character or an escape stands for. -/
inductive Piece where
  /-- A character; `byte` tells that it was written as a byte. -/
  | char (c : Char) (byte : Bool)
  | set (c : CharClass)
  | look (l : Look)

/-- A hexadecimal digit. -/
def isHex (c : Char) : Bool :=
  c.isDigit || ('a' ≤ c && c ≤ 'f') || ('A' ≤ c && c ≤ 'F')

/-- The value of a hexadecimal digit. -/
def hexValue (c : Char) : Nat :=
  if c.isDigit then c.toNat - 48 else if 'a' ≤ c then c.toNat - 87 else c.toNat - 55

/-- The character with this number, if there is one. -/
def charOf? (digits : List Char) : Option Char :=
  let n := digits.foldl (fun n d => 16 * n + hexValue d) 0
  if h : n.isValidChar then some (Char.ofNatAux n h) else none

/-- Exactly so many hexadecimal digits. -/
def hexDigits : Nat → Reader (List Char)
  | 0 => return []
  | n + 1 => do
    let c ← peek
    if isHex c then
      bumpBlanks
      return c :: (← hexDigits n)
    else failure

/-- A character written with so many hexadecimal digits, or between braces. -/
def hex (digits : Nat) : Reader Piece := do
  bumpBlanks
  if (← peek) == '\x7b' then
    bumpBlanks
    let ds ← takeWhile isHex (← get).rest.length
    if (← peek) != '\x7d' || ds.isEmpty then failure
    bumpBlanks
    return .char (← charOf? ds) false
  else
    let ds ← hexDigits digits
    return .char (← charOf? ds) (digits == 2)

/-- The class of a property between braces. -/
def propertyOf? (name : String) : Option CharClass :=
  match name.splitOn "!=" with
  | key :: value :: more =>
    (CharClass.valueOf? key ("!=".intercalate (value :: more))).map CharClass.negate
  | _ =>
    match name.splitOn ":" with
    | key :: value :: more => CharClass.valueOf? key (":".intercalate (value :: more))
    | _ =>
      match name.splitOn "=" with
      | key :: value :: more => CharClass.valueOf? key ("=".intercalate (value :: more))
      | _ => CharClass.property? name

/-- A class of characters with a property. -/
def property (negated : Bool) : Reader Piece := do
  bumpBlanks
  let c ← peek
  let name ←
    if c == '\x7b' then do
      bumpBlanks
      let name ← takeWhile (· != '\x7d') (← get).rest.length
      let _ ← peek
      bump
      pure (String.ofList name)
    else if c == '\\' then failure
    else do
      bumpBlanks
      pure (String.singleton c)
  let flags := (← get).flags
  if flags.ascii then failure
  let set ← if c == '\x7b' then propertyOf? name else CharClass.property? name
  let set := if flags.fold then CharClass.folded set else set
  return .set (set.negateIf negated)

/-- Digits, blanks or word characters, or what they are not. -/
def shorthand (c : Char) : Reader Piece := do
  bump
  let ascii := (← get).flags.ascii
  let negated := c.isUpper
  let set :=
    match c.toLower with
    | 'd' => if ascii then CharClass.asciiDigit else CharClass.categories [.decimalNumber]
    | 's' => if ascii then CharClass.asciiBlank else CharClass.blank
    | _ => if ascii then CharClass.asciiWord else CharClass.word
  if ascii && negated then failure
  return .set (set.negateIf negated)

/-- The side of a word that is named between braces, if letters follow. -/
def wordSide : Reader WordSide := do
  let saved ← get
  if saved.rest.head? != some '\x7b' then return .boundary
  bumpBlanks
  let isLetter := fun (c : Char) => c.isAlpha || c == '-'
  if !isLetter (← peek) then
    set saved
    return .boundary
  let name ← takeWhile isLetter saved.rest.length
  if (← peek) != '\x7d' then failure
  bump
  match String.ofList name with
  | "start" => return .start
  | "end" => return .stop
  | "start-half" => return .startHalf
  | "end-half" => return .stopHalf
  | _ => failure

/-- May a backslash before this character be left out? -/
def isEscapable (c : Char) : Bool :=
  c.toNat < 128 && !c.isAlphanum && c != '<' && c != '>'

/-- What a backslash and what follows it stand for. -/
def escape : Reader Piece := do
  bump
  let c ← peek
  let ascii := (← get).flags.ascii
  if c == 'x' then hex 2
  else if c == 'u' then hex 4
  else if c == 'U' then hex 8
  else if c == 'p' || c == 'P' then property (c == 'P')
  else if "dswDSW".toList.contains c then shorthand c
  else
    bump
    if isEscapable c then return .char c false
    else
      match c with
      | 'a' => return .char '\x07' false
      | 'f' => return .char '\x0c' false
      | 't' => return .char '\t' false
      | 'n' => return .char '\n' false
      | 'r' => return .char '\r' false
      | 'v' => return .char '\x0b' false
      | 'A' => return .look .textStart
      | 'z' => return .look .textEnd
      | 'b' => return .look (.word (← wordSide) ascii)
      | 'B' => return .look (.word .noBoundary ascii)
      | '<' => return .look (.word .start ascii)
      | '>' => return .look (.word .stop ascii)
      | _ => failure

/-! ## Classes in brackets -/

/-- The set of a class with case taken into account. -/
def foldSet (flags : Flags) (c : CharClass) : CharClass :=
  if flags.fold then (if flags.ascii then .foldedAscii c else .folded c) else c

/-- A class as it is used: only characters of ASCII can be told apart by bytes. -/
def checked (flags : Flags) (c : CharClass) : Reader CharClass :=
  if flags.ascii && c.hasHighByte then failure else return c

/-- A named class in brackets, if one comes next. -/
def named? : Reader (Option CharClass) := do
  let saved ← get
  match saved.rest with
  | '[' :: ':' :: rest =>
    let (negated, rest) := match rest with
      | '^' :: more => (true, more)
      | _ => (false, rest)
    let name := String.ofList (rest.takeWhile (· != ':'))
    match rest.dropWhile (· != ':') with
    | ':' :: ']' :: more =>
      match CharClass.posix? name with
      | some c =>
        set { saved with rest := more }
        let c ← checked saved.flags ((foldSet saved.flags c).negateIf negated)
        return some c
      | none => return none
    | _ => return none
  | _ => return none

/-- A character or an escape in a class. -/
def classPiece : Reader Piece := do
  let c ← peek
  if c == '\\' then escape
  else
    bump
    return .char c false

/-- The character that an end of a range stands for. -/
def rangeEnd (flags : Flags) : Piece → Reader Char
  | .char c byte =>
    if flags.ascii && 127 < c.toNat && !byte then failure else return c
  | _ => failure

/-- The next character after the current one and what does not count after it. -/
def peekAfter : Reader (Option Char) := do
  let c ← get
  let rest := c.rest.tail
  return (if c.flags.spaced then dropBlanks false rest else rest).head?

/-- A character, an escape or a range in a class. -/
def classItem : Reader CharClass := do
  let flags := (← get).flags
  let a ← classPiece
  blanks
  let c ← peek
  let after ← peekAfter
  if c != '-' || after == some ']' || after == some '-' then
    match a with
    | .set s => return s
    | piece => return .single (← rangeEnd flags piece)
  else
    bumpBlanks
    let b ← classPiece
    let lo ← rangeEnd flags a
    let hi ← rangeEnd flags b
    if hi < lo then failure
    return .between lo hi

/-- The operations between parts of a class. -/
inductive SetOp where
  | inter
  | diff
  | symmDiff

/-- Applies an operation to the sets on both sides. -/
def SetOp.apply (flags : Flags) : SetOp → CharClass → CharClass → CharClass
  | inter, a, b => .inter (foldSet flags a) (foldSet flags b)
  | diff, a, b => .diff (foldSet flags a) (foldSet flags b)
  | symmDiff, a, b => .symmDiff (foldSet flags a) (foldSet flags b)

/-- Hyphens at the start of a class, which stand for themselves. -/
def leadingHyphens : Nat → CharClass → Reader CharClass
  | 0, c => return c
  | n + 1, c => do
    if (← peek) == '-' then
      bumpBlanks
      leadingHyphens n (.union c (.single '-'))
    else return c

/-- The set so far, with the operation that waits for its right side. -/
def close (flags : Flags) (waiting : Option (SetOp × CharClass)) (union : CharClass) : CharClass :=
  match waiting with
  | some (op, left) => op.apply flags left union
  | none => union

mutual

/-- A class in brackets and how deep classes nest in it. -/
def bracket : Nat → Reader (CharClass × Nat)
  | 0 => failure
  | n + 1 => do
    let flags := (← get).flags
    bumpBlanks
    let negated := (← peek) == '^'
    if negated then bumpBlanks
    let start ← leadingHyphens n .none
    let isFirst := match start with
      | .union _ _ => false
      | _ => true
    let start ←
      if isFirst && (← peek) == ']' then do
        bumpBlanks
        pure (CharClass.single ']')
      else pure start
    let (set, depth) ← inside n flags none start 0
    return (← checked flags ((foldSet flags set).negateIf negated), depth + 1)

/-- The inside of a class, up to its closing bracket. -/
def inside : Nat → Flags → Option (SetOp × CharClass) → CharClass → Nat → Reader (CharClass × Nat)
  | 0, _, _, _, _ => failure
  | n + 1, flags, waiting, union, depth => do
    blanks
    let c ← peek
    if c == ']' then
      bump
      return (close flags waiting union, depth)
    else if c == '[' then
      match ← named? with
      | some s => inside n flags waiting (.union union s) depth
      | none =>
        let (s, d) ← bracket n
        inside n flags waiting (.union union s) (max depth d)
    else if ← accept "&&" then
      inside n flags (some (.inter, close flags waiting union)) .none depth
    else if ← accept "--" then
      inside n flags (some (.diff, close flags waiting union)) .none depth
    else if ← accept "~~" then
      inside n flags (some (.symmDiff, close flags waiting union)) .none depth
    else
      let s ← classItem
      inside n flags waiting (.union union s) depth

end

/-! ## Groups and repetitions -/

/-- Changes one flag. -/
def setFlag (flags : Flags) (on : Bool) : Char → Option Flags
  | 'i' => some { flags with fold := on }
  | 'm' => some { flags with lines := on }
  | 's' => some { flags with dotAll := on }
  | 'U' => some flags
  | 'u' => some { flags with ascii := !on }
  | 'R' => some { flags with pairs := on }
  | 'x' => some { flags with spaced := on }
  | _ => none

/-- Reads flags up to the character that ends them, which is given back. -/
def flagList : Nat → Flags → List Char → Reader (Flags × List Char × Char)
  | 0, _, _ => failure
  | n + 1, flags, seen => do
    let c ← peek
    if c == ':' || c == ')' then
      if seen.head? == some '-' then failure
      bump
      return (flags, seen, c)
    else if seen.contains c then failure
    else if c == '-' then
      bump
      flagList n flags ('-' :: seen)
    else
      let flags ← setFlag flags (!seen.contains '-') c
      bump
      flagList n flags (c :: seen)

/-- The name of a group, up to the closing bracket. -/
def groupName : Reader Unit := do
  let c ← get
  let name := c.rest.takeWhile (· != '>')
  let isStart := fun (x : Char) => x == '_' || Text.isAlphabetic x
  let isPart := fun (x : Char) =>
    x == '_' || x == '.' || x == '[' || x == ']' || Text.isAlphabetic x || Text.isNumeric x
  match name, c.rest.dropWhile (· != '>') with
  | first :: more, '>' :: rest =>
    let text := String.ofList name
    if !isStart first || !more.all isPart || c.names.contains text then failure
    set { c with rest, names := text :: c.names }
  | _, _ => failure

/-- A number of repetitions. -/
def count : Reader Nat := do
  modify fun c => { c with rest := c.rest.dropWhile Text.isBlank }
  let digits ← takeWhile Char.isDigit (← get).rest.length
  let _ ← takeWhile Text.isBlank (← get).rest.length
  let n := Nat.ofDigitChars 10 digits 0
  if digits.isEmpty || 4294967295 < n then failure
  return n

/-- How often, between braces. -/
def counts : Reader (Nat × Option Nat) := do
  bumpBlanks
  let lo ← count
  let range ←
    if (← peek) == ',' then do
      bumpBlanks
      if (← peek) == '\x7d' then pure (lo, none)
      else pure (lo, some (← count))
    else pure (lo, some lo)
  if (← peek) != '\x7d' then failure
  bumpBlanks
  match range with
  | (lo, some hi) => if hi < lo then failure else return (lo, some hi)
  | (lo, none) => return (lo, none)

/-- A part of a sequence: an expression and how deep it nests, or a change of flags. -/
inductive Item where
  | part (r : Regex) (depth : Nat)
  | flags

/-- Repeats the last part. -/
def repeatLast (lo : Nat) (hi : Option Nat) : List Item → Reader (List Item)
  | .part r d :: items => do
    if (← peek?) == some '?' then bump
    return .part (.times r lo hi) (d + 1) :: items
  | _ => failure

/-- What a piece stands for outside of a class. -/
def ofPiece (flags : Flags) : Piece → Reader Regex
  | .char c byte =>
    if flags.ascii && byte && 127 < c.toNat then failure
    else return .one (foldSet flags (.single c))
  | .set s => return .one s
  | .look l => return .look l

/-- A single character, an escape or a condition. -/
def primitive : Reader Regex := do
  let flags := (← get).flags
  let c ← peek
  if c == '\\' then ofPiece flags (← escape)
  else
    bump
    match c with
    | '.' =>
      if flags.ascii then failure
      else if flags.dotAll then return .one .any
      else if flags.pairs then return .one (.negate (.ranges [(10, 10), (13, 13)]))
      else return .one (.negate (.single '\n'))
    | '^' => return .look (if flags.lines then .lineStart flags.pairs else .textStart)
    | '$' => return .look (if flags.lines then .lineEnd flags.pairs else .textEnd)
    | c => ofPiece flags (.char c false)

/-- The expression of a sequence, whose parts stand from the last to the first. -/
def joinItems (items : List Item) : Regex × Nat :=
  let parts := items.reverse.filterMap fun
    | .part r d => some (r, d)
    | .flags => none
  let deepest := (parts.map (·.2)).foldl max 0
  match parts.map (·.1) with
  | [] => (.empty, 0)
  | r :: rs =>
    (rs.foldl .seq r, if items.length = 1 then deepest else deepest + 1)

mutual

/-- A group; its opening parenthesis comes next. -/
def group : Nat → Reader Item
  | 0 => failure
  | n + 1 => do
    bumpBlanks
    let outer := (← get).flags
    let looksAround := fun (cs : List Char) =>
      ["?=", "?!", "?<=", "?<!"].any fun p => p.toList.isPrefixOf cs
    if looksAround (← get).rest then failure
    if (← accept "?P<") || (← accept "?<") then
      groupName
      body n outer
    else if ← accept "?" then
      let (flags, seen, last) ← flagList (n + 1) outer []
      modify fun c => { c with flags }
      if last == ')' then
        if seen.isEmpty then failure
        return .flags
      else body n outer
    else body n outer

/-- The inside of a group and its closing parenthesis, after which the flags from before count. -/
def body : Nat → Flags → Reader Item
  | 0, _ => failure
  | n + 1, outer => do
    let (r, d) ← alternatives n
    if (← peek) != ')' then failure
    bump
    modify fun c => { c with flags := outer }
    return .part r (d + 1)

/-- Parts one after the other; those before stand from the last to the first. -/
def sequence : Nat → List Item → Reader (List Item)
  | 0, _ => failure
  | n + 1, items => do
    blanks
    match ← peek? with
    | none => return items
    | some c =>
      if c == ')' || c == '|' then return items
      else if c == '(' then sequence n ((← group n) :: items)
      else if c == '[' then
        let (s, d) ← bracket n
        sequence n (.part (.one s) d :: items)
      else if c == '?' then
        bump
        sequence n (← repeatLast 0 (some 1) items)
      else if c == '*' then
        bump
        sequence n (← repeatLast 0 none items)
      else if c == '+' then
        bump
        sequence n (← repeatLast 1 none items)
      else if c == '\x7b' then
        let (lo, hi) ← counts
        sequence n (← repeatLast lo hi items)
      else
        let r ← primitive
        sequence n (.part r 0 :: items)

/-- Sequences between bars, and how deep they nest. -/
def alternatives : Nat → Reader (Regex × Nat)
  | 0 => failure
  | n + 1 => do
    let (r, d) := joinItems (← sequence n [])
    if (← peek?) == some '|' then
      bump
      let (s, e) ← alternatives n
      return (.alt r s, max (d + 1) e)
    else return (r, d)

end

end Reader

/-- How deep expressions may nest. -/
def nestLimit : Nat := 250

/-- How much room an expression may take. -/
def weightLimit : Nat := 10485760

/-- The expression that a pattern stands for, if it makes sense. -/
def ofPattern? (pattern : String) : Option Regex := do
  let cs := pattern.toList
  let flags : Flags := ⟨false, false, false, false, false, false⟩
  let ((r, depth), c) ← (Reader.alternatives (8 * cs.length + 16)).run ⟨cs, flags, []⟩
  if c.rest.isEmpty && depth ≤ nestLimit && r.weight ≤ weightLimit then some r else none

end Regex

end SourceAtlas
