/-!
# JSON values

* `JsonValue`: a value; whole numbers that fit in 64 bits are told from other numbers;
* `JsonValue.get?`, `JsonValue.fields?`: the parts of structures.
-/

namespace SourceAtlas

/-- A JSON value. -/
inductive JsonValue where
  | null
  | bool (b : Bool)
  /-- A whole number that is not negative. -/
  | natural (n : Nat)
  /-- The negative of a number greater than zero. -/
  | negative (n : Nat)
  /-- Any other number, as it was written. -/
  | real (text : String)
  | text (s : String)
  | array (items : List JsonValue)
  /-- Members in their order; no two have the same key. -/
  | object (members : List (String × JsonValue))
deriving Repr, Inhabited

namespace JsonValue

/-- The member with a key. -/
def get? (key : String) : JsonValue → Option JsonValue
  | object members => (members.find? (·.1 == key)).map (·.2)
  | _ => none

/-- The fields of a structure, which is an object or an array with exactly one item for each
field. -/
def fields? (keys : List String) : JsonValue → Option (List (Option JsonValue))
  | object members => some (keys.map fun k => (object members).get? k)
  | array items => if items.length = keys.length then some (items.map some) else none
  | _ => none

/-- A text. -/
def text? : JsonValue → Option String
  | text s => some s
  | _ => none

/-- The items of an array, if each of them can be read. -/
def items? {α : Type} (read : JsonValue → Option α) : JsonValue → Option (List α)
  | array items => items.mapM read
  | _ => none

/-- A number from zero to `limit`. -/
def natural? (limit : Nat) : JsonValue → Option Nat
  | natural n => if n ≤ limit then some n else none
  | _ => none

/-- A whole number that fits in 64 bits with a sign. -/
def int64? : JsonValue → Option Int
  | natural n => if n < Nat.pow 2 63 then some n else none
  | negative n => if n ≤ Nat.pow 2 63 then some (-n) else none
  | _ => none

/-- The name of a choice without content: a text, or an object whose only member has no value. -/
def choice? : JsonValue → Option String
  | text s => some s
  | object [(name, null)] => some name
  | _ => none

/-- A text, or nothing. -/
def optionalText? : Option JsonValue → Option (Option String)
  | none | some null => some none
  | some (text s) => some (some s)
  | _ => none

/-- The number as a value. -/
def ofInt (n : Int) : JsonValue :=
  match n with
  | .ofNat n => natural n
  | .negSucc n => negative (n + 1)

/-- A text, or nothing, as a value. -/
def ofOptionalText : Option String → JsonValue
  | some s => text s
  | none => null

end JsonValue

end SourceAtlas
