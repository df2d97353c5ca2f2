import SourceAtlas.Language

/-!
# Problems and failures

A *problem* concerns one file and is recorded in the index; a *failure* ends a whole operation.

* `Problem.Kind`, `Problem`, `Problem.display`;
* `Problem.unsupported`, `Problem.encoding`, `Problem.grammar`: the problems with fixed wording;
* `Failure`, **`Failure.message`**: the wording of every failure.
-/

namespace SourceAtlas

/-- The kinds of problems with one file. -/
inductive Problem.Kind where
  | parseFailed
  | unsupportedLanguage
  | encodingError
  | ioError
  | grammarUnavailable
deriving DecidableEq, Repr, Inhabited

namespace Problem.Kind

/-- Every kind, in their order. -/
def all : List Kind :=
  [.parseFailed, .unsupportedLanguage, .encodingError, .ioError, .grammarUnavailable]

/-- The name of a kind in snapshots. -/
def name : Kind → String
  | .parseFailed => "parse_failed"
  | .unsupportedLanguage => "unsupported_language"
  | .encodingError => "encoding_error"
  | .ioError => "io_error"
  | .grammarUnavailable => "grammar_unavailable"

/-- The kind of a name. -/
def ofName? (name : String) : Option Kind := all.find? (·.name = name)

/-- The name of a kind in messages. -/
def display : Kind → String
  | .parseFailed => "parse failed"
  | .unsupportedLanguage => "unsupported language"
  | .encodingError => "encoding error"
  | .ioError => "I/O error"
  | .grammarUnavailable => "grammar unavailable"

/-- Does the fault lie with the source file? -/
def isInput : Kind → Bool
  | .parseFailed | .unsupportedLanguage | .encodingError => true
  | .ioError | .grammarUnavailable => false

/-- Does the fault lie with reading the file or loading its grammar? -/
def isInternal (k : Kind) : Bool := !k.isInput

end Problem.Kind

/-- A problem with one file. -/
structure Problem where
  path : Path
  kind : Problem.Kind
  message : String
deriving DecidableEq, Repr, Inhabited

namespace Problem

/-- The problem as one line. -/
def display (p : Problem) : String := s!"{p.path.text}: {p.message} ({p.kind.display})"

/-- The file's extension belongs to no language. -/
def unsupported (path : Path) : Problem :=
  ⟨path, .unsupportedLanguage, "unsupported extension: " ++ path.extension.getD "none"⟩

/-- The file's bytes are no UTF-8. -/
def encoding (path : Path) : Problem := ⟨path, .encodingError, "file is not valid UTF-8"⟩

/-- The grammar of the file's language cannot be used. -/
def grammar (path : Path) (language : Language) (reason : String) : Problem :=
  ⟨path, .grammarUnavailable, s!"{language.name} grammar unavailable: {reason}"⟩

end Problem

/-- Why an operation failed. -/
inductive Failure where
  | io (reason : String)
  | parser (reason : String)
  | query (language : Language) (reason : String)
  | snapshot
  | schemaMismatch (found expected : UInt32)
  | pattern
  | config (reason : String)
deriving DecidableEq, Repr

/-- The wording of a failure. -/
def Failure.message : Failure → String
  | .io reason => "I/O error: " ++ reason
  | .parser reason => "parser error: " ++ reason
  | .query language reason => s!"invalid {language.name} query: {reason}"
  | .snapshot => "snapshot error: the text is no index"
  | .schemaMismatch found expected =>
    s!"snapshot schema version {found} is not supported (expected {expected})"
  | .pattern => "invalid pattern: regex parse error:"
  | .config reason => "configuration error: " ++ reason

end SourceAtlas
