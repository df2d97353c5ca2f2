import SourceAtlas.Symbol

/-!
# Definition ids

A definition is named by its file, kind, name and first line, joined by the character U+0000.

* `DefinitionId`, `DefinitionId.make`;
* **`DefinitionId.parts`**: takes an id apart again;
* `DefinitionId.display`: the form for people.
-/

namespace SourceAtlas

/-- A text that names a definition. -/
structure DefinitionId where
  raw : String
deriving DecidableEq, Repr, Inhabited, Hashable

namespace DefinitionId

/-- The character between the parts of an id. -/
def separator : Char := '\x00'

/-- The id of a definition. -/
def make (file : Path) (kind : SymbolKind) (name : String) (line : UInt32) : DefinitionId :=
  ⟨(String.singleton separator).intercalate [file.text, kind.name, name, toString line.toNat]⟩

/-- The value of a list of decimal digits. -/
def digits? (cs : List Char) : Option Nat :=
  if cs.isEmpty then none
  else cs.foldlM (fun n c => if c.isDigit then some (10 * n + (c.toNat - '0'.toNat)) else none) 0

/-- Reads a line number: decimal digits, with or without a plus sign, in the range of 32 bits. -/
def line? (s : String) : Option UInt32 := do
  let n ← match s.toList with
    | '+' :: cs => digits? cs
    | cs => digits? cs
  if n < Nat.pow 2 32 then some n.toUInt32 else none

/-- The parts of an id: file, kind, name and line. -/
structure Parts where
  file : String
  kind : String
  name : String
  line : UInt32
deriving DecidableEq, Repr

/-- Takes an id apart, if it has exactly four parts and the last one is a line number. -/
def parts (id : DefinitionId) : Option Parts :=
  match Text.splitBy (· == separator) id.raw with
  | [file, kind, name, line] => (line? line).map fun line => ⟨file, kind, name, line⟩
  | _ => none

/-- An id as `file:line name`, or as it is if it cannot be taken apart. -/
def display (id : DefinitionId) : String :=
  match id.parts with
  | some p => s!"{p.file}:{p.line} {p.name}"
  | none => id.raw

end DefinitionId

end SourceAtlas
