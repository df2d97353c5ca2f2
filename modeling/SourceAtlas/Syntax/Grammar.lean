import Std.Data.HashMap
import SourceAtlas.Syntax.Token
import SourceAtlas.Syntax.Tree

/-!
# Grammars

A grammar gives each of its symbols a rule. A rule reads tokens from left to right, takes the first
alternative that fits, and builds the trees of what it read. The answers of symbols are remembered,
so that reading a source takes time in proportion to its length.

* `Rule`: the rules over a set of symbols;
* `Rule.optional`, `Rule.repeated`, `Rule.separated`, `Rule.listed`, `Rule.glue`: rules made of
  others;
* `Grammar`, **`Grammar.parse`**: reads the tokens of a source into a tree.
-/

namespace SourceAtlas

/-- What may stand in a source, over the symbols `σ`. -/
inductive Rule (σ : Type) where
  /-- What the rule of a symbol says. -/
  | call (symbol : σ)
  /-- A word or a mark with one of these spellings. -/
  | lexeme (spellings : List String)
  /-- A mark with this spelling right after the token before. -/
  | joint (spelling : String)
  /-- A token of this kind. -/
  | kind (kind : Token.Kind)
  /-- Any token. -/
  | any
  /-- One after the other. -/
  | seq (rules : List (Rule σ))
  /-- The first that fits. -/
  | alt (rules : List (Rule σ))
  /-- As often as it fits. -/
  | many (rule : Rule σ)
  /-- The rule fits here; nothing is read. -/
  | ahead (rule : Rule σ)
  /-- The rule does not fit here; nothing is read. -/
  | unless (rule : Rule σ)
  /-- What the rule reads becomes a node. -/
  | node (label : String) (rule : Rule σ)
  /-- The nodes take the named place in their parent. -/
  | field (name : String) (rule : Rule σ)
  /-- A node followed by any number of steps. Each step is a label, a place and a rule: the step
  makes a new node with what stands before in that place and what the rule reads after it. -/
  | chain (base : Rule σ) (steps : List (String × String × Rule σ))

namespace Rule

variable {σ : Type}

/-- One word or mark. -/
def lit (spelling : String) : Rule σ := .lexeme [spelling]

/-- Nothing at all. -/
def nothing : Rule σ := .seq []

/-- The rule, if it fits. -/
def optional (r : Rule σ) : Rule σ := .alt [r, nothing]

/-- Once or more. -/
def repeated (r : Rule σ) : Rule σ := .seq [r, .many r]

/-- Once or more, with a separator between. -/
def separated (r sep : Rule σ) : Rule σ := .seq [r, .many (.seq [sep, r])]

/-- Any number of times with commas between; a last comma may follow. -/
def listed (r : Rule σ) : Rule σ :=
  optional (.seq [separated r (lit ","), optional (lit ",")])

/-- Marks without a gap between them. -/
def glue : List String → Rule σ
  | [] => nothing
  | m :: ms => .seq (lit m :: ms.map .joint)

/-- A name as a node. -/
def named (label : String) : Rule σ := .node label (.kind .word)

/-- A word as a node, reserved or not. -/
def anyWord (label : String) : Rule σ := .node label (.alt [.kind .word, .kind .keyword])

/-- A token that fits nothing else. -/
def error : Rule σ := .node Tree.errorLabel .any

end Rule

/-- The rules of a set of symbols and the symbol of a whole source. -/
structure Grammar (σ : Type) where
  rule : σ → Rule σ
  top : σ

namespace Grammar

/-- What a rule read: the index of the next token and the trees, or nothing if it does not fit. -/
abbrev Found := Option (Nat × List Tree)

variable {σ : Type} [BEq σ] [Hashable σ]

/-- The answers of symbols at the indices of tokens. -/
abbrev Memo (σ : Type) [BEq σ] [Hashable σ] := Std.HashMap (σ × Nat) Found

/-- Is the token a word or a mark with one of these spellings? -/
def spelled (spellings : List String) (t : Token) : Bool :=
  (t.kind == .word || t.kind == .mark || t.kind == .keyword) && spellings.contains t.text

/-- Reads one token. -/
def token (toks : Array Token) (i : Nat) (p : Token → Bool) : Found :=
  match toks[i]? with
  | some t => if p t then some (i + 1, []) else none
  | none => none

/-- The offset at which the tokens from `i` on start. -/
def startOf (toks : Array Token) (i : Nat) : Nat :=
  match toks[i]? with
  | some t => t.start
  | none => 0

/-- The offset at which the tokens before `j` end. -/
def stopOf (toks : Array Token) (j : Nat) : Nat :=
  match toks[j - 1]? with
  | some t => t.stop
  | none => 0

/-- The node of the tokens from `i` to `j`. -/
def nodeOf (toks : Array Token) (label : String) (i j : Nat) (children : List Tree) : Tree :=
  if i < j then .node label none 0 (startOf toks i) (stopOf toks j) children
  else .node label none 0 (stopOf toks j) (stopOf toks j) children

mutual

/-- Reads what a rule says from the token `i` on, no deeper than `n`. -/
def run (rules : σ → Rule σ) (toks : Array Token) : Nat → Rule σ → Nat → Memo σ → Found × Memo σ
  | 0, _, _, memo => (none, memo)
  | n + 1, r, i, memo =>
    match r with
    | .call s =>
      match memo[(s, i)]? with
      | some found => (found, memo)
      | none =>
        let (found, memo) := run rules toks n (rules s) i memo
        (found, memo.insert (s, i) found)
    | .lexeme spellings => (token toks i (spelled spellings), memo)
    | .joint spelling => (token toks i fun t => t.glued && spelled [spelling] t, memo)
    | .kind k => (token toks i (·.kind == k), memo)
    | .any => (token toks i fun _ => true, memo)
    | .seq rs => runSeq rules toks n rs i [] memo
    | .alt rs => runAlt rules toks n rs i memo
    | .many r => runMany rules toks n r i [] memo
    | .ahead r =>
      let (found, memo) := run rules toks n r i memo
      (found.map fun _ => (i, []), memo)
    | .unless r =>
      let (found, memo) := run rules toks n r i memo
      (if found.isSome then none else some (i, []), memo)
    | .node label r =>
      let (found, memo) := run rules toks n r i memo
      (found.map fun (j, ts) => (j, [nodeOf toks label i j ts]), memo)
    | .field name r =>
      let (found, memo) := run rules toks n r i memo
      (found.map fun (j, ts) => (j, ts.map (Tree.withField name)), memo)
    | .chain base steps =>
      match run rules toks n base i memo with
      | (some (j, [t]), memo) => grow rules toks n steps j t memo
      | result => result

/-- Reads the rules one after the other; `done` holds the trees so far, the last one first. -/
def runSeq (rules : σ → Rule σ) (toks : Array Token) :
    Nat → List (Rule σ) → Nat → List Tree → Memo σ → Found × Memo σ
  | 0, _, _, _, memo => (none, memo)
  | _ + 1, [], i, done, memo => (some (i, done.reverse), memo)
  | n + 1, r :: rs, i, done, memo =>
    match run rules toks n r i memo with
    | (some (j, ts), memo) => runSeq rules toks n rs j (ts.reverse ++ done) memo
    | (none, memo) => (none, memo)

/-- Reads the first of the rules that fits. -/
def runAlt (rules : σ → Rule σ) (toks : Array Token) :
    Nat → List (Rule σ) → Nat → Memo σ → Found × Memo σ
  | 0, _, _, memo => (none, memo)
  | _ + 1, [], _, memo => (none, memo)
  | n + 1, r :: rs, i, memo =>
    match run rules toks n r i memo with
    | (none, memo) => runAlt rules toks n rs i memo
    | result => result

/-- Reads the rule as often as it fits and reads something. -/
def runMany (rules : σ → Rule σ) (toks : Array Token) :
    Nat → Rule σ → Nat → List Tree → Memo σ → Found × Memo σ
  | 0, _, i, done, memo => (some (i, done.reverse), memo)
  | n + 1, r, i, done, memo =>
    match run rules toks n r i memo with
    | (some (j, ts), memo) =>
      if i < j then runMany rules toks n r j (ts.reverse ++ done) memo
      else (some (i, done.reverse), memo)
    | (none, memo) => (some (i, done.reverse), memo)

/-- Reads the steps that follow the node `t`, as many as fit. -/
def grow (rules : σ → Rule σ) (toks : Array Token) :
    Nat → List (String × String × Rule σ) → Nat → Tree → Memo σ → Found × Memo σ
  | 0, _, i, t, memo => (some (i, [t]), memo)
  | n + 1, steps, i, t, memo =>
    match runStep rules toks n steps i t memo with
    | (some (j, [u]), memo) =>
      if i < j then grow rules toks n steps j u memo else (some (i, [t]), memo)
    | (_, memo) => (some (i, [t]), memo)

/-- Reads the first of the steps that fits after the node `t`. -/
def runStep (rules : σ → Rule σ) (toks : Array Token) :
    Nat → List (String × String × Rule σ) → Nat → Tree → Memo σ → Found × Memo σ
  | 0, _, _, _, memo => (none, memo)
  | _ + 1, [], _, _, memo => (none, memo)
  | n + 1, (label, place, r) :: steps, i, t, memo =>
    match run rules toks n r i memo with
    | (some (j, ts), memo) =>
      (some (j, [.node label none 0 t.start (stopOf toks j) (t.withField place :: ts)]), memo)
    | (none, memo) => runStep rules toks n steps i t memo

end

/-- How deep rules may nest for a source of this many tokens. -/
def depth (tokens : Nat) : Nat := 1000 * (tokens + 4)

/-- Reads the tokens of a source into a tree with numbered nodes. -/
def parse (g : Grammar σ) (toks : Array Token) : Tree :=
  match (run g.rule toks (depth toks.size) (.call g.top) 0 ∅).1 with
  | some (_, [t]) => t.numbered
  | _ => .node Tree.errorLabel none 0 0 (stopOf toks toks.size) []

end Grammar

end SourceAtlas
