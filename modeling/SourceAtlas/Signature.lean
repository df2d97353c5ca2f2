import SourceAtlas.Text.Blank

/-!
# Signatures

The signature of a definition is one line that does not depend on how the definition is laid out:
what stands before its first line break or opening brace, without a final semicolon, with every run
of blanks collapsed.

* `head`: the part of a definition's text that the signature is made of;
* **`summarize`**: the signature of a definition's text.
-/

namespace SourceAtlas.Signature

open Text

/-- The text before the first line break or opening brace. -/
def head (cs : List Char) : List Char := cs.takeWhile fun c => c != '\n' && c != '\x7b'

/-- Without one final semicolon. -/
def dropSemicolon (cs : List Char) : List Char :=
  match cs.reverse with
  | ';' :: rest => rest.reverse
  | _ => cs

/-- The one-line signature of a definition's text. -/
def summarize (text : String) : String :=
  String.ofList (joinWords (words (dropSemicolon (trimEnd (head text.toList)))))

end SourceAtlas.Signature
