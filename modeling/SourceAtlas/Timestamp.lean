import SourceAtlas.Text.Blank

/-!
# Timestamps

A date and time of day in UTC with nanoseconds. Texts may give another offset from UTC, and blanks
between their parts.

* `Timestamp`, `Timestamp.daysIn`, `Timestamp.isValid`;
* `Timestamp.dayNumber`, `Timestamp.civil`: dates as numbers of days;
* `Timestamp.earlier`, `Timestamp.ofNanos`;
* `Timestamp.print`, **`Timestamp.parse`**.
-/

namespace SourceAtlas

/-- A date and a time of day. A minute may have a sixtieth second. -/
structure Timestamp where
  year : Int
  month : Nat
  day : Nat
  hour : Nat
  minute : Nat
  second : Nat
  nanos : Nat
deriving DecidableEq, Repr

namespace Timestamp

/-- The first moment of the year 1970. -/
def epoch : Timestamp := ⟨1970, 1, 1, 0, 0, 0, 0⟩

instance : Inhabited Timestamp := ⟨epoch⟩

/-- Does a year have a day more? -/
def isLeap (year : Int) : Bool :=
  year % 4 == 0 && (year % 100 != 0 || year % 400 == 0)

/-- The number of days in a month. -/
def daysIn (year : Int) (month : Nat) : Nat :=
  if month = 2 then if isLeap year then 29 else 28
  else if month = 4 ∨ month = 6 ∨ month = 9 ∨ month = 11 then 30
  else 31

/-- The first and last years that can be told. -/
def isYear (year : Int) : Bool := -262143 ≤ year && year ≤ 262142

/-- Is there such a date and time? -/
def isValid (t : Timestamp) : Bool :=
  isYear t.year && 1 ≤ t.month && t.month ≤ 12 && 1 ≤ t.day && t.day ≤ daysIn t.year t.month &&
    t.hour < 24 && t.minute < 60 && t.second ≤ 60 && t.nanos < 1000000000

/-! ## Dates as numbers -/

/-- The number of days from the first of March of the year zero to a date. Years are counted from
March, so that the day more comes last. -/
def dayNumber (year : Int) (month day : Nat) : Int :=
  let y := if month ≤ 2 then year - 1 else year
  let m := (month + 9) % 12
  365 * y + y.fdiv 4 - y.fdiv 100 + y.fdiv 400 + ((153 * m + 2) / 5 : Nat) + ((day : Int) - 1)

/-- The year, month and day of a number of days. -/
def civil (days : Int) : Int × Nat × Nat :=
  let era := days.fdiv 146097
  let d := (days - era * 146097).toNat
  let y := (d - d / 1460 + d / 36524 - d / 146096) / 365
  let dayOfYear := d - (365 * y + y / 4 - y / 100)
  let m := (5 * dayOfYear + 2) / 153
  let month := if m < 10 then m + 3 else m - 9
  let year := (y : Int) + era * 400
  (if month ≤ 2 then year + 1 else year, month, dayOfYear - (153 * m + 2) / 5 + 1)

/-- The time that is so many minutes earlier. -/
def earlier (t : Timestamp) (minutes : Int) : Timestamp :=
  if minutes = 0 then t
  else
    let total := (dayNumber t.year t.month t.day * 24 + t.hour) * 60 + t.minute - minutes
    let (year, month, day) := civil (total.fdiv 1440)
    let rest := (total - total.fdiv 1440 * 1440).toNat
    { t with year, month, day, hour := rest / 60, minute := rest % 60 }

/-- The time that is so many nanoseconds after the first moment of the year 1970. -/
def ofNanos (nanos : Int) : Timestamp :=
  let seconds := nanos.fdiv 1000000000
  let days := seconds.fdiv 86400
  let (year, month, day) := civil (dayNumber 1970 1 1 + days)
  let rest := (seconds - days * 86400).toNat
  ⟨year, month, day, rest / 3600, rest / 60 % 60, rest % 60,
    (nanos - seconds * 1000000000).toNat⟩

/-! ## Printing -/

/-- The last `width` digits of a number, with zeros in front. -/
def padded : Nat → Nat → List Char
  | 0, _ => []
  | width + 1, n => padded width (n / 10) ++ [Char.ofNat (48 + n % 10)]

/-- A number with at least four digits. -/
def fourDigits (n : Nat) : List Char :=
  if n < 10000 then padded 4 n else Nat.toDigits 10 n

/-- Years outside of four digits have a sign. -/
def printYear (year : Int) : List Char :=
  if 0 ≤ year ∧ year ≤ 9999 then padded 4 year.toNat
  else if year < 0 then '-' :: fourDigits (-year).toNat
  else '+' :: fourDigits year.toNat

/-- The fraction of a second with three, six or nine digits, the fewest that lose nothing. -/
def printFraction (nanos : Nat) : List Char :=
  if nanos = 0 then []
  else if nanos % 1000000 = 0 then '.' :: padded 3 (nanos / 1000000)
  else if nanos % 1000 = 0 then '.' :: padded 6 (nanos / 1000)
  else '.' :: padded 9 nanos

/-- The characters of a time. -/
def printChars (t : Timestamp) : List Char :=
  printYear t.year ++ '-' :: padded 2 t.month ++ '-' :: padded 2 t.day ++
    'T' :: padded 2 t.hour ++ ':' :: padded 2 t.minute ++ ':' :: padded 2 t.second ++
    printFraction t.nanos ++ ['Z']

/-- The text of a time. -/
def print (t : Timestamp) : String := String.ofList t.printChars

/-! ## Reading -/

/-- A number of one to `most` digits in front. -/
def readNumber (most : Nat) (cs : List Char) : Option (Nat × List Char) :=
  let ds := (cs.take most).takeWhile Char.isDigit
  if ds.isEmpty then none else some (Nat.ofDigitChars 10 ds 0, cs.drop ds.length)

/-- A number of one or two digits after blanks. -/
def readField (cs : List Char) : Option (Nat × List Char) := readNumber 2 (Text.trimStart cs)

/-- A year of up to four digits, or of any number of digits after a sign. -/
def readYear (cs : List Char) : Option (Int × List Char) :=
  match Text.trimStart cs with
  | '-' :: rest => (readNumber rest.length rest).map fun (n, rest) => (-(n : Int), rest)
  | '+' :: rest => (readNumber rest.length rest).map fun (n, rest) => ((n : Int), rest)
  | other => (readNumber 4 other).map fun (n, rest) => ((n : Int), rest)

/-- Blanks and then this character. -/
def readMark (mark : Char) (cs : List Char) : Option (List Char) :=
  match Text.trimStart cs with
  | c :: rest => if c == mark then some rest else none
  | [] => none

/-- The nanoseconds after a point, if there is one. Digits after the ninth are left out. -/
def readFraction : List Char → Option (Nat × List Char)
  | '.' :: rest =>
    let ds := (rest.take 9).takeWhile Char.isDigit
    if ds.isEmpty then none
    else
      some (Nat.ofDigitChars 10 ds 0 * Nat.pow 10 (9 - ds.length),
        (rest.drop ds.length).dropWhile Char.isDigit)
  | cs => some (0, cs)

/-- Two digits. -/
def readPair : List Char → Option (Nat × List Char)
  | a :: b :: rest =>
    if a.isDigit && b.isDigit then some (10 * (a.toNat - 48) + (b.toNat - 48), rest) else none
  | _ => none

/-- The offset from UTC in minutes. -/
def readOffset (cs : List Char) : Option (Int × List Char) :=
  let signed := fun (negated : Bool) (rest : List Char) => do
    let (hours, rest) ← readPair rest
    let (minutes, rest) ← readPair (rest.dropWhile fun c => c == ':' || Text.isBlank c)
    if minutes < 60 ∧ hours < 24 then
      let total : Int := hours * 60 + minutes
      some (if negated then -total else total, rest)
    else none
  match cs with
  | c :: rest =>
    if c == 'Z' || c == 'z' then some (0, rest)
    else if c == '+' then signed false rest
    else if c == '-' || c == '−' then signed true rest
    else
      match rest with
      | d :: e :: more =>
        if [c, d, e].map Char.toUpper == ['U', 'T', 'C'] then some (0, more) else none
      | _ => none
  | [] => none

/-- Reads a time. -/
def parse (s : String) : Option Timestamp := do
  let (year, cs) ← readYear s.toList
  let cs ← readMark '-' cs
  let (month, cs) ← readField cs
  let cs ← readMark '-' cs
  let (day, cs) ← readField cs
  let cs ← match cs with
    | c :: rest => if c == 'T' || c == 't' || c == ' ' then some rest else none
    | [] => none
  let (hour, cs) ← readField cs
  let cs ← readMark ':' cs
  let (minute, cs) ← readField cs
  let cs ← readMark ':' cs
  let (second, cs) ← readField cs
  let (nanos, cs) ← readFraction cs
  let (offset, cs) ← readOffset (Text.trimStart cs)
  let t : Timestamp := ⟨year, month, day, hour, minute, second, nanos⟩
  let u := t.earlier offset
  if (Text.trimStart cs).isEmpty && t.isValid && u.isValid then some u else none

end Timestamp

end SourceAtlas
