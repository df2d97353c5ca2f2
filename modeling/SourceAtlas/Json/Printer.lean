import SourceAtlas.Json.Value

/-!
# Printing JSON

Values are printed over several lines. The members of an object and the items of an array stand on
lines of their own, two blanks further to the right than what holds them.

* `JsonValue.escape`, `JsonValue.quote`: texts;
* **`JsonValue.print`**.
-/

namespace SourceAtlas

namespace JsonValue

/-- A hexadecimal digit. -/
def hexDigit (n : Nat) : Char := if n < 10 then Char.ofNat (48 + n) else Char.ofNat (87 + n)

/-- A character inside of quotes. Quotes, backslashes and control characters are escaped. -/
def escape (c : Char) : List Char :=
  if c == '"' then ['\\', '"']
  else if c == '\\' then ['\\', '\\']
  else if c == '\x08' then ['\\', 'b']
  else if c == '\x0c' then ['\\', 'f']
  else if c == '\n' then ['\\', 'n']
  else if c == '\r' then ['\\', 'r']
  else if c == '\t' then ['\\', 't']
  else if c.toNat < 32 then ['\\', 'u', '0', '0', hexDigit (c.toNat / 16), hexDigit (c.toNat % 16)]
  else [c]

/-- A text in quotes. -/
def quote (s : String) : List Char := '"' :: s.toList.flatMap escape ++ ['"']

/-- A new line at a depth. -/
def newLine (depth : Nat) : List Char := '\n' :: List.replicate (2 * depth) ' '

mutual

/-- Prints a value whose lines stand at a depth. -/
def printAt (depth : Nat) : JsonValue → List Char
  | null => "null".toList
  | bool b => if b then "true".toList else "false".toList
  | natural n => Nat.toDigits 10 n
  | negative n => '-' :: Nat.toDigits 10 n
  | real s => s.toList
  | text s => quote s
  | array [] => ['[', ']']
  | array (v :: vs) =>
    '[' :: newLine (depth + 1) ++ printAt (depth + 1) v ++ printItems (depth + 1) vs ++
      newLine depth ++ [']']
  | object [] => ['\x7b', '\x7d']
  | object ((k, v) :: ms) =>
    '\x7b' :: newLine (depth + 1) ++ quote k ++ [':', ' '] ++ printAt (depth + 1) v ++
      printMembers (depth + 1) ms ++ newLine depth ++ ['\x7d']

/-- Prints the items of an array after the first. -/
def printItems (depth : Nat) : List JsonValue → List Char
  | [] => []
  | v :: vs => ',' :: newLine depth ++ printAt depth v ++ printItems depth vs

/-- Prints the members of an object after the first. -/
def printMembers (depth : Nat) : List (String × JsonValue) → List Char
  | [] => []
  | (k, v) :: ms =>
    ',' :: newLine depth ++ quote k ++ [':', ' '] ++ printAt depth v ++ printMembers depth ms

end

/-- Prints a value. -/
def print (v : JsonValue) : String := String.ofList (printAt 0 v)

end JsonValue

end SourceAtlas
