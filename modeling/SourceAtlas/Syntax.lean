import SourceAtlas.Language
import SourceAtlas.Syntax.CSharp.Grammar
import SourceAtlas.Syntax.CSharp.Lexer
import SourceAtlas.Syntax.Go.Grammar
import SourceAtlas.Syntax.Go.Lexer
import SourceAtlas.Syntax.Python.Grammar
import SourceAtlas.Syntax.Python.Lexer
import SourceAtlas.Syntax.Rust.Grammar
import SourceAtlas.Syntax.Rust.Lexer

/-!
# The syntax of the languages

* **`Language.parse`**: the syntax tree of a source.
-/

namespace SourceAtlas

/-- The syntax tree of a source. -/
def Language.parse (language : Language) (source : ByteArray) : Tree :=
  match language with
  | .go => Go.grammar.parse (Go.tokens source)
  | .python => Python.grammar.parse (Python.tokens source)
  | .rust => Rust.grammar.parse (Rust.tokens source)
  | .csharp => CSharp.grammar.parse (CSharp.tokens source)

end SourceAtlas
