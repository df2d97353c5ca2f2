import SourceAtlas.Index
import SourceAtlas.Json.Printer
import SourceAtlas.Json.Reader

/-!
# Snapshots

An index is kept as a JSON text. The version of the text is checked before the rest is looked at, so
that a text of another version is told from a damaged one.

* `Snapshot.encode`, **`Snapshot.save`**;
* `Snapshot.decode?`, **`Snapshot.load`**.
-/

namespace SourceAtlas

namespace Snapshot

open JsonValue

/-! ## Writing -/

/-- A path as a value. -/
def encodePath (p : Path) : JsonValue := text p.text

/-- A symbol as a value. -/
def encodeSymbol (s : Symbol) : JsonValue :=
  object [("file", encodePath s.file), ("kind", text s.kind.name), ("name", text s.name),
    ("signature", text s.signature), ("receiver", ofOptionalText s.receiver),
    ("start_line", natural s.startLine.toNat), ("end_line", natural s.endLine.toNat)]

/-- A reference as a value. -/
def encodeReference (r : Reference) : JsonValue :=
  object [("file", encodePath r.file), ("kind", text r.kind), ("name", text r.name),
    ("start_line", natural r.startLine.toNat), ("start_column", natural r.startColumn.toNat),
    ("end_line", natural r.endLine.toNat), ("end_column", natural r.endColumn.toNat)]

/-- A summary as a value. -/
def encodeSummary (s : Summary) : JsonValue :=
  object [("path", encodePath s.path), ("language", text s.language.name),
    ("size", natural s.size.toNat), ("mod_time_ns", ofInt s.modTime.toInt),
    ("imports", array (s.imports.map text)), ("symbols", array (s.symbols.map encodeSymbol)),
    ("references", array (s.references.map encodeReference))]

/-- A problem as a value. -/
def encodeProblem (p : Problem) : JsonValue :=
  object [("path", encodePath p.path), ("kind", text p.kind.name), ("message", text p.message)]

/-- An index as a value. -/
def encode (i : Index) : JsonValue :=
  object [("schema_version", natural i.schemaVersion.toNat), ("root", encodePath i.root),
    ("generated_at", text i.generatedAt.print), ("files", array (i.files.map encodeSummary)),
    ("errors", array (i.problems.map encodeProblem))]

/-- The text of an index. -/
def save (i : Index) : String := (encode i).print ++ "\n"

/-! ## Reading -/

/-- A path. -/
def decodePath? (v : JsonValue) : Option Path := v.text?.map Path.mk

/-- A number that fits in 32 bits. -/
def decodeWord? (v : JsonValue) : Option UInt32 := (v.natural? (Nat.pow 2 32 - 1)).map Nat.toUInt32

/-- A symbol. -/
def decodeSymbol? (v : JsonValue) : Option Symbol := do
  match ← v.fields? ["file", "kind", "name", "signature", "receiver", "start_line", "end_line"] with
  | [file, kind, name, signature, receiver, startLine, endLine] =>
    some {
      file := ← file.bind decodePath?
      kind := ← (kind.bind choice?).bind SymbolKind.ofName?
      name := ← name.bind text?
      signature := ← signature.bind text?
      receiver := ← optionalText? receiver
      startLine := ← startLine.bind decodeWord?
      endLine := ← endLine.bind decodeWord? }
  | _ => none

/-- A reference. -/
def decodeReference? (v : JsonValue) : Option Reference := do
  match ← v.fields?
      ["file", "kind", "name", "start_line", "start_column", "end_line", "end_column"] with
  | [file, kind, name, startLine, startColumn, endLine, endColumn] =>
    some {
      file := ← file.bind decodePath?
      kind := ← kind.bind text?
      name := ← name.bind text?
      startLine := ← startLine.bind decodeWord?
      startColumn := ← startColumn.bind decodeWord?
      endLine := ← endLine.bind decodeWord?
      endColumn := ← endColumn.bind decodeWord? }
  | _ => none

/-- A summary. -/
def decodeSummary? (v : JsonValue) : Option Summary := do
  match ← v.fields?
      ["path", "language", "size", "mod_time_ns", "imports", "symbols", "references"] with
  | [path, language, size, modTime, imports, symbols, references] =>
    some {
      path := ← path.bind decodePath?
      language := ← (language.bind choice?).bind Language.ofName?
      size := (← size.bind (natural? (Nat.pow 2 64 - 1))).toUInt64
      modTime := (← modTime.bind int64?).toInt64
      imports := ← imports.bind (items? text?)
      symbols := ← symbols.bind (items? decodeSymbol?)
      references := ← references.bind (items? decodeReference?) }
  | _ => none

/-- A problem. -/
def decodeProblem? (v : JsonValue) : Option Problem := do
  match ← v.fields? ["path", "kind", "message"] with
  | [path, kind, message] =>
    some {
      path := ← path.bind decodePath?
      kind := ← (kind.bind choice?).bind Problem.Kind.ofName?
      message := ← message.bind text? }
  | _ => none

/-- An index. -/
def decode? (v : JsonValue) : Option Index := do
  match ← v.fields? ["schema_version", "root", "generated_at", "files", "errors"] with
  | [version, root, generatedAt, files, problems] =>
    some {
      schemaVersion := ← version.bind decodeWord?
      root := ← root.bind decodePath?
      generatedAt := ← (generatedAt.bind text?).bind Timestamp.parse
      files := ← files.bind (items? decodeSummary?)
      problems := ← problems.bind (items? decodeProblem?) }
  | _ => none

/-- The version that a value tells; zero if it tells none. -/
def version (v : JsonValue) : UInt32 := ((v.get? "schema_version").bind decodeWord?).getD 0

/-- Reads the text of an index. -/
def load (s : String) : Except Failure Index :=
  match JsonValue.parse s with
  | none => .error .snapshot
  | some v =>
    if version v = Index.currentSchema then
      match decode? v with
      | some i => .ok i
      | none => .error .snapshot
    else .error (.schemaMismatch (version v) Index.currentSchema)

/-- Reads the bytes of an index. -/
def loadBytes (b : ByteArray) : Except Failure Index :=
  match String.fromUTF8? b with
  | some s => load s
  | none => .error .snapshot

end Snapshot

end SourceAtlas
