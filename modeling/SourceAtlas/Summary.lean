import SourceAtlas.Symbol

/-!
# Summaries

A summary holds what one file defines, uses and imports.

* `firstBy`: the first element of a list for each key;
* `Symbol.compare`, `Reference.compare`: the orders in which a summary lists its parts;
* `Summary`, `Summary.withPath`;
* **`Summary.normalize`**: the canonical form of a summary.
-/

namespace SourceAtlas

/-- Keeps the first element for each key. -/
def firstBy {α κ : Type} [DecidableEq κ] (key : α → κ) : List α → List α
  | [] => []
  | a :: as => a :: (firstBy key as).filter fun b => key b ≠ key a

namespace Symbol

/-- What tells the symbols of a file apart. -/
def key (s : Symbol) : UInt32 × UInt32 × SymbolKind × String :=
  (s.startLine, s.endLine, s.kind, s.name)

/-- Symbols are ordered by first line, last line, kind and name. -/
def compare (a b : Symbol) : Ordering :=
  (Ord.compare a.startLine.toNat b.startLine.toNat).then <|
  (Ord.compare a.endLine.toNat b.endLine.toNat).then <|
  (Ord.compare a.kind.rank b.kind.rank).then <|
  Ord.compare a.name b.name

end Symbol

namespace Reference

/-- What tells the references of a file apart. -/
def key (r : Reference) : UInt32 × UInt32 × String × String :=
  (r.startLine, r.startColumn, r.kind, r.name)

/-- References are ordered by position, then by kind and name. -/
def compare (a b : Reference) : Ordering :=
  (Ord.compare a.startLine.toNat b.startLine.toNat).then <|
  (Ord.compare a.startColumn.toNat b.startColumn.toNat).then <|
  (Ord.compare a.endLine.toNat b.endLine.toNat).then <|
  (Ord.compare a.endColumn.toNat b.endColumn.toNat).then <|
  (Ord.compare a.kind b.kind).then <|
  Ord.compare a.name b.name

end Reference

/-- What one file defines, uses and imports. -/
structure Summary where
  path : Path
  language : Language
  /-- The size of the file in bytes. -/
  size : UInt64
  /-- The time of the last change in nanoseconds since the epoch. -/
  modTime : Int64
  /-- The imported paths in source order. -/
  imports : List String
  symbols : List Symbol
  references : List Reference
deriving DecidableEq, Repr, Inhabited

namespace Summary

/-- The summary of the same contents under another path. -/
def withPath (s : Summary) (path : Path) : Summary :=
  { s with
    path
    symbols := s.symbols.map fun x => { x with file := path }
    references := s.references.map fun x => { x with file := path } }

/-- Drops repeated symbols, references and imports, keeping the first of each, and sorts the symbols
and the references. -/
def normalize (s : Summary) : Summary :=
  { s with
    imports := firstBy id s.imports
    symbols := (firstBy Symbol.key s.symbols).mergeSort fun a b => a.compare b != .gt
    references := (firstBy Reference.key s.references).mergeSort fun a b => a.compare b != .gt }

end Summary

end SourceAtlas
