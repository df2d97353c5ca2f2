import SourceAtlas.Syntax.Grammar

/-!
# The grammar of Python

Operators join expressions without a node of their own. A block ends with the token that leaves it,
so that it covers the comments that lie in it.

* `Python.Part`: the symbols;
* `Python.rule`, **`Python.grammar`**.
-/

namespace SourceAtlas.Python

open Rule

/-- The symbols of the grammar. -/
inductive Part where
  | module
  | statement
  | simpleStatements
  | simple
  | suite
  | function
  | classStatement
  | decorated
  | ifStatement
  | forStatement
  | whileStatement
  | tryStatement
  | withStatement
  | matchStatement
  | casePattern
  | closedPattern
  | importStatement
  | assignment
  | target
  | targets
  | values
  | parameters
  | parameter
  | lambdaParameter
  | type
  | expression
  | disjunction
  | primary
  | atom
  | lambda
  | arguments
  | argument
  | comprehension
  | string
  | hole
  | subscripts
deriving DecidableEq, Repr, Hashable

/-- A name. -/
def identifier : Rule Part := named "identifier"

/-- A rule between braces. -/
def braces (r : Rule Part) : Rule Part := .seq [lit "\x7b", r, lit "\x7d"]

/-- The end of a simple statement. -/
def ended : Rule Part := .ahead (.alt [lit ";", .kind .newline])

/-- Names with dots between. -/
def dottedName : Rule Part := .node "dotted_name" (separated identifier (lit "."))

/-- Expressions with commas between. -/
def expressions : Rule Part :=
  .seq [separated (.alt [.seq [lit "*", .call .expression], .call .expression]) (lit ","),
    optional (lit ",")]

/-- The operators between two expressions. -/
def operator : Rule Part :=
  .alt [
    .lexeme ["or", "and", "in", "<", ">", "==", ">=", "<=", "!=", "<>", "|", "^", "&", "<<", ">>",
      "+", "-", "*", "/", "%", "//", "@", "**"],
    .seq [lit "not", lit "in"],
    .seq [lit "is", optional (lit "not")]]

/-- The operators that assign to what stands before them. -/
def augmenting : List String :=
  ["+=", "-=", "*=", "/=", "@=", "//=", "%=", "**=", ">>=", "<<=", "&=", "^=", "|="]

/-- A block after a colon. -/
def body : Rule Part := .seq [lit ":", .field "body" (.call .suite)]

/-- An annotation after a mark. -/
def annotated (mark : String) : Rule Part := .seq [lit mark, .field "type" (.call .type)]

/-- The parameters of a generic definition. -/
def typeParameters : Rule Part :=
  let one : Rule Part :=
    .seq [optional (.lexeme ["*", "**"]), .call .type, optional (.seq [lit ":", .call .type]),
      optional (.seq [lit "=", .call .type])]
  .field "type_parameters" (.node "type_parameter" (.seq [lit "[", listed one, lit "]"]))

/-- A yielding expression. -/
def yielding : Rule Part :=
  .node "yield"
    (.seq [lit "yield", optional (.alt [.seq [lit "from", .call .expression], expressions])])

/-- A default value. -/
def defaulted : Rule Part := .seq [lit "=", .field "value" (.call .expression)]

/-- Parameters that stand for several arguments, and the marks between parameters. -/
def gathering : Rule Part :=
  .alt [
    .node "dictionary_splat_pattern" (.seq [lit "**", identifier]),
    .node "list_splat_pattern" (.seq [lit "*", identifier]),
    .node "keyword_separator" (lit "*"),
    .node "positional_separator" (lit "/")]

/-- The parts after the alternatives of a statement. -/
def otherwise : Rule Part := optional (.node "else_clause" (.seq [lit "else", body]))

/-- The rule of a symbol. -/
def rule : Part → Rule Part
  | .module => .node "module" (.many (.alt [.kind .newline, .call .statement, error]))
  | .statement =>
    .alt [.call .function, .call .classStatement, .call .decorated, .call .ifStatement,
      .call .forStatement, .call .whileStatement, .call .tryStatement, .call .withStatement,
      .call .matchStatement, .call .simpleStatements]
  | .simpleStatements =>
    .seq [separated (.call .simple) (lit ";"), optional (lit ";"), .kind .newline]
  | .simple =>
    .alt [
      .call .importStatement,
      .seq [.node "expression_statement" (.call .assignment), ended],
      .seq [.node "expression_statement" (.alt [yielding, expressions]), ended],
      .seq [.node "type_alias_statement"
        (.seq [lit "type", .call .type, lit "=", .call .type]), ended],
      .node "return_statement" (.seq [lit "return", optional expressions]),
      .node "delete_statement" (.seq [lit "del", expressions]),
      .node "raise_statement"
        (.seq [lit "raise", optional expressions, optional (.seq [lit "from", .call .expression])]),
      .node "assert_statement" (.seq [lit "assert", expressions]),
      .node "scope_statement"
        (.seq [.lexeme ["global", "nonlocal"], separated identifier (lit ",")]),
      .node "plain_statement" (.lexeme ["pass", "break", "continue"]),
      .node "print_statement"
        (.seq [lit "print", optional (.seq [lit ">>", .call .expression, optional (lit ",")]),
          optional expressions]),
      .node "exec_statement"
        (.seq [lit "exec", .call .expression, optional (.seq [lit "in", expressions])])]
  | .suite =>
    .alt [
      .seq [.kind .newline, .kind .indent,
        .node "block"
          (.seq [.many (.alt [.kind .newline, .call .statement,
            .seq [.unless (.kind .dedent), error]]), .kind .dedent])],
      .node "block" (.call .simpleStatements),
      .node "block" (.kind .newline)]
  | .function =>
    .node "function_definition"
      (.seq [optional (lit "async"), lit "def", .field "name" identifier,
        optional typeParameters,
        .field "parameters" (.call .parameters),
        optional (.seq [lit "->", .field "return_type" (.call .type)]), body])
  | .classStatement =>
    .node "class_definition"
      (.seq [lit "class", .field "name" identifier,
        optional typeParameters,
        optional (.field "superclasses" (.call .arguments)), body])
  | .decorated =>
    .node "decorated_definition"
      (.seq [repeated (.node "decorator" (.seq [lit "@", .call .expression, .kind .newline])),
        .field "definition" (.alt [.call .function, .call .classStatement])])
  | .ifStatement =>
    .node "if_statement"
      (.seq [lit "if", .call .expression, body,
        .many (.node "elif_clause" (.seq [lit "elif", .call .expression, body])), otherwise])
  | .forStatement =>
    .node "for_statement"
      (.seq [optional (lit "async"), lit "for", .field "left" (.call .targets), lit "in",
        .field "right" expressions, body, otherwise])
  | .whileStatement =>
    .node "while_statement" (.seq [lit "while", .call .expression, body, otherwise])
  | .tryStatement =>
    let caught : Rule Part :=
      optional (.seq [separated (.call .expression) (lit ","),
        optional (.seq [lit "as", .call .expression])])
    .node "try_statement"
      (.seq [lit "try", body,
        .many (.node "except_clause" (.seq [lit "except", optional (lit "*"), caught, body])),
        otherwise, optional (.node "finally_clause" (.seq [lit "finally", body]))])
  | .withStatement =>
    let item : Rule Part :=
      .node "with_item" (.seq [.call .expression, optional (.seq [lit "as", .call .target])])
    .node "with_statement"
      (.seq [optional (lit "async"), lit "with",
        .alt [.seq [separated item (lit ","), .ahead (lit ":")],
          .seq [lit "(", listed item, lit ")"]],
        body])
  | .matchStatement =>
    let oneCase : Rule Part :=
      .node "case_clause"
        (.seq [lit "case", separated (.call .casePattern) (lit ","), optional (lit ","),
          optional (.seq [lit "if", .call .expression]), body])
    .node "match_statement"
      (.seq [lit "match", expressions, lit ":", .kind .newline, .kind .indent,
        .node "block" (.seq [repeated oneCase, .kind .dedent])])
  | .casePattern =>
    .seq [separated (.call .closedPattern) (lit "|"), optional (.seq [lit "as", identifier])]
  | .closedPattern =>
    let number : Rule Part :=
      .seq [optional (lit "-"), .kind .number, optional (.seq [.lexeme ["+", "-"], .kind .number])]
    let gathered : Rule Part := .seq [.lexeme ["*", "**"], .alt [lit "_", identifier]]
    let inner : Rule Part := .call .casePattern
    let entry : Rule Part :=
      .alt [gathered, .seq [.call .closedPattern, lit ":", inner]]
    let keyword : Rule Part := .node "keyword_pattern" (.seq [identifier, lit "=", inner])
    .alt [
      .call .string, number, .lexeme ["None", "True", "False"], gathered,
      .node "tuple_pattern" (.seq [lit "(", listed inner, lit ")"]),
      .node "list_pattern" (.seq [lit "[", listed inner, lit "]"]),
      .node "dict_pattern" (braces (listed entry)),
      .node "class_pattern"
        (.seq [dottedName, lit "(", listed (.alt [keyword, inner]), lit ")"]),
      .seq [lit "_", .unless (lit ".")], dottedName]
  | .importStatement =>
    let one : Rule Part :=
      .field "name" (.alt [
        .node "aliased_import"
          (.seq [.field "name" dottedName, lit "as", .field "alias" identifier]),
        dottedName])
    let list : Rule Part := .seq [separated one (lit ","), optional (lit ",")]
    let names : Rule Part :=
      .alt [.node "wildcard_import" (lit "*"), .seq [lit "(", list, lit ")"], list]
    let relative : Rule Part :=
      .node "relative_import"
        (.seq [.node "import_prefix" (repeated (.lexeme [".", "..."])), optional dottedName])
    .alt [
      .node "import_statement" (.seq [lit "import", list]),
      .node "future_import_statement" (.seq [lit "from", lit "__future__", lit "import", names]),
      .node "import_from_statement"
        (.seq [lit "from", .field "module_name" (.alt [relative, dottedName]), lit "import",
          names])]
  | .assignment =>
    let right : Rule Part := .field "right" (.call .values)
    .alt [
      .node "assignment"
        (.seq [.field "left" (.call .targets),
          .alt [.seq [lit "=", right], .seq [annotated ":", optional (.seq [lit "=", right])]]]),
      .node "augmented_assignment"
        (.seq [.field "left" (.call .targets), .lexeme augmenting, right])]
  | .target =>
    .alt [.node "list_splat_pattern" (.seq [lit "*", .call .primary]), .call .primary]
  | .targets =>
    .alt [
      .node "pattern_list"
        (.seq [.call .target, lit ",", optional (separated (.call .target) (lit ",")),
          optional (lit ",")]),
      .call .target]
  | .values => .alt [.call .assignment, yielding, expressions]
  | .parameters =>
    .node "parameters" (.seq [lit "(", listed (.call .parameter), lit ")"])
  | .parameter =>
    .alt [
      .node "typed_default_parameter"
        (.seq [.field "name" identifier, annotated ":", defaulted]),
      .node "typed_parameter" (.seq [.alt [identifier, gathering], annotated ":"]),
      .node "default_parameter" (.seq [.field "name" identifier, defaulted]),
      gathering,
      .node "tuple_pattern" (.seq [lit "(", listed (.call .parameter), lit ")"]),
      identifier]
  | .lambdaParameter =>
    .alt [
      .node "default_parameter" (.seq [.field "name" identifier, defaulted]),
      gathering,
      .node "tuple_pattern" (.seq [lit "(", listed (.call .lambdaParameter), lit ")"]),
      identifier]
  | .type => .node "type" (.seq [optional (lit "*"), .call .expression])
  | .expression =>
    .alt [
      .node "named_expression" (.seq [.field "name" identifier, lit ":=", .call .expression]),
      .seq [.call .disjunction,
        optional (.seq [lit "if", .call .disjunction, lit "else", .call .expression])]]
  | .disjunction =>
    separated (.seq [.many (.lexeme ["not", "-", "+", "~", "await"]), .call .primary]) operator
  | .primary =>
    .chain (.call .atom) [
      ("attribute", "object", .seq [lit ".", .field "attribute" identifier]),
      ("call", "function", .field "arguments" (.call .arguments)),
      ("subscript", "value", .seq [lit "[", .call .subscripts, lit "]"])]
  | .atom =>
    let member : Rule Part :=
      .alt [.seq [.lexeme ["*", "**"], .call .expression],
        .seq [.call .expression, optional (.seq [lit ":", .call .expression])]]
    let members : Rule Part :=
      .alt [.seq [member, .call .comprehension], listed member]
    .alt [
      .call .string,
      .node "number" (.kind .number),
      .node "constant" (.lexeme ["None", "True", "False", "..."]),
      .node "parenthesized_expression" (.seq [lit "(", .alt [yielding, members], lit ")"]),
      .node "list" (.seq [lit "[", members, lit "]"]),
      .node "dictionary" (braces members),
      .call .lambda,
      identifier]
  | .lambda =>
    .node "lambda"
      (.seq [lit "lambda",
        optional (.field "parameters" (.node "lambda_parameters"
          (.seq [separated (.call .lambdaParameter) (lit ","), optional (lit ",")]))),
        lit ":", .field "body" (.call .expression)])
  | .arguments =>
    .alt [
      .node "generator_expression"
        (.seq [lit "(", .call .expression, .call .comprehension, lit ")"]),
      .node "argument_list" (.seq [lit "(", listed (.call .argument), lit ")"])]
  | .argument =>
    .alt [
      .seq [.lexeme ["*", "**"], .call .expression],
      .node "keyword_argument" (.seq [.field "name" identifier, defaulted]),
      .seq [.call .expression, optional (.call .comprehension)]]
  | .comprehension =>
    repeated (.alt [
      .node "for_in_clause"
        (.seq [optional (lit "async"), lit "for", .field "left" (.call .targets), lit "in",
          .field "right" (separated (.call .disjunction) (lit ","))]),
      .node "if_clause" (.seq [lit "if", .alt [.call .lambda, .call .disjunction]])])
  | .string =>
    .node "string" (repeated (.alt [
      .kind .text, .seq [.kind .quoteOpen, .many (.call .hole), .kind .quoteClose]]))
  | .hole =>
    .node "interpolation"
      (.seq [lit "\x7b", .alt [yielding, expressions], optional (lit "="),
        optional (.seq [lit "!", .kind .word]),
        optional (.seq [lit ":", .many (.call .hole)]), lit "\x7d"])
  | .subscripts =>
    let bound : Rule Part := optional (.call .expression)
    let slice : Rule Part :=
      .seq [bound, lit ":", bound, optional (.seq [lit ":", bound])]
    listed (.alt [slice, .seq [optional (lit "*"), .call .expression]])

/-- The grammar of Python. -/
def grammar : Grammar Part := ⟨rule, .module⟩

end SourceAtlas.Python
