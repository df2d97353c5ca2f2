import SourceAtlas.Syntax.Grammar

/-!
# The grammar of Go

Types and expressions are told apart by where they stand: a name in a type is a `type_identifier`, a
name in an expression an `identifier`, and the name of a member a `field_identifier`. Operators join
expressions without a node of their own.

* `Go.Part`: the symbols; `lit` tells whether a name may be followed by the elements of a literal,
  which is not so in the head of a statement;
* `Go.rule`, **`Go.grammar`**.
-/

namespace SourceAtlas.Go

open Rule

/-- The symbols of the grammar. -/
inductive Part where
  | file
  | declaration
  | packageClause
  | imports
  | function
  | method
  | result
  | parameters
  | parameter
  | typeParameters
  | constants
  | variables
  | types
  | typeSpec
  | type
  | namedType
  | listType
  | typeArguments
  | structType
  | interfaceType
  | functionType
  | channelType
  | mapType
  | expression (lit : Bool)
  | expressions (lit : Bool)
  | operand (lit : Bool)
  | primary (lit : Bool)
  | elements
  | element
  | arguments
  | block
  | statements
  | statement
  | simple (lit : Bool)
  | ifStatement
  | forStatement
  | switchStatement
  | selectStatement
deriving DecidableEq, Repr, Hashable

/-- A rule between braces. -/
def braces (r : Rule Part) : Rule Part := .seq [lit "\x7b", r, lit "\x7d"]

/-- The end of a statement. -/
def stop : Rule Part := .alt [lit ";", .kind .newline]

/-- Line ends that stand for nothing. -/
def lines : Rule Part := .many (.kind .newline)

/-- A name in an expression or a declaration. -/
def identifier : Rule Part := named "identifier"

/-- A name in a type. -/
def typeIdentifier : Rule Part := named "type_identifier"

/-- The name of a member. -/
def fieldIdentifier : Rule Part := named "field_identifier"

/-- Declarations that stand alone or in parentheses. -/
def grouped (r : Rule Part) : Rule Part :=
  .alt [.seq [lit "(", .many (.alt [stop, r]), lit ")"], r]

/-- Names with commas between. -/
def names : Rule Part := separated (.field "name" identifier) (lit ",")

/-- A comma that may be followed by line ends. -/
def listedLines (r : Rule Part) : Rule Part :=
  .seq [lines, listed r, lines]

/-- The operators between two expressions. -/
def operators : List String :=
  ["||", "&&", "==", "!=", "<", "<=", ">", ">=", "+", "-", "|", "^", "*", "/", "%", "<<", ">>", "&",
    "&^"]

/-- The operators in front of an expression. -/
def unaryOperators : List String := ["+", "-", "!", "^", "*", "&", "<-"]

/-- The operators that assign. -/
def assignments : List String :=
  ["=", "+=", "-=", "*=", "/=", "%=", "&=", "|=", "^=", "<<=", ">>=", "&^="]

/-- The words that stand for a value. -/
def constantWords : List String := ["nil", "true", "false", "iota"]

/-- The rule of a symbol. -/
def rule : Part → Rule Part
  | .file =>
    .node "source_file" (.many (.alt [stop, .call .declaration, .call .statement, error]))
  | .declaration =>
    .alt [.call .packageClause, .call .imports, .call .method, .call .function]
  | .packageClause => .node "package_clause" (.seq [lit "package", named "package_identifier"])
  | .imports =>
    let name : Rule Part :=
      .alt [lit ".", .node "blank_identifier" (lit "_"), named "package_identifier"]
    let spec : Rule Part :=
      .node "import_spec"
        (.seq [optional (.field "name" name), .field "path" (.node "string_literal" (.kind .text))])
    .node "import_declaration" (.seq [lit "import", grouped spec])
  | .function =>
    .node "function_declaration"
      (.seq [lit "func", .field "name" identifier, optional (.call .typeParameters),
        .field "parameters" (.call .parameters), optional (.call .result),
        optional (.field "body" (.call .block))])
  | .method =>
    .node "method_declaration"
      (.seq [lit "func", .field "receiver" (.call .parameters), .field "name" fieldIdentifier,
        .field "parameters" (.call .parameters), optional (.call .result),
        optional (.field "body" (.call .block))])
  | .result => .field "result" (.alt [.call .parameters, .call .type])
  | .parameters =>
    .node "parameter_list" (.seq [lit "(", listedLines (.call .parameter), lit ")"])
  | .parameter =>
    .alt [
      .node "variadic_parameter_declaration"
        (.seq [optional (.field "name" identifier), lit "...", .field "type" (.call .type)]),
      .node "parameter_declaration" (.seq [names, .field "type" (.call .type)]),
      .node "parameter_declaration" (.field "type" (.call .type))]
  | .typeParameters =>
    let one : Rule Part :=
      .node "type_parameter_declaration"
        (.seq [names, .field "type" (separated (.call .type) (lit "|"))])
    .node "type_parameter_list" (.seq [lit "[", lines, separated one (.seq [lit ",", lines]),
      optional (lit ","), lines, lit "]"])
  | .constants =>
    let spec : Rule Part :=
      .node "const_spec"
        (.seq [.field "name" identifier, .many (.seq [lit ",", identifier]),
          optional (.seq [optional (.field "type" (.call .type)), lit "=",
            .field "value" (.call (.expressions true))])])
    .node "const_declaration" (.seq [lit "const", grouped spec])
  | .variables =>
    let value : Rule Part := .seq [lit "=", .field "value" (.call (.expressions true))]
    let spec : Rule Part :=
      .node "var_spec"
        (.seq [names, .alt [.seq [.field "type" (.call .type), optional value], value]])
    .node "var_declaration" (.seq [lit "var", grouped spec])
  | .types => .node "type_declaration" (.seq [lit "type", grouped (.call .typeSpec)])
  | .typeSpec =>
    let name : Rule Part := .field "name" typeIdentifier
    let type : Rule Part := .field "type" (.call .type)
    .alt [
      .node "type_alias" (.seq [name, optional (.call .typeParameters), lit "=", type]),
      .node "type_spec" (.seq [name, .call .typeParameters, type]),
      .node "type_spec" (.seq [name, type])]
  | .type =>
    .alt [
      .node "parenthesized_type" (.seq [lit "(", .call .type, lit ")"]),
      .node "pointer_type" (.seq [lit "*", .call .type]),
      .node "negated_type" (.seq [lit "~", .call .type]),
      .call .structType, .call .interfaceType, .call .listType, .call .mapType, .call .channelType,
      .call .functionType, .call .namedType]
  | .namedType =>
    .chain
      (.alt [
        .node "qualified_type"
          (.seq [.field "package" (named "package_identifier"), lit ".",
            .field "name" typeIdentifier]),
        typeIdentifier])
      [("generic_type", "type", .call .typeArguments)]
  | .listType =>
    let element : Rule Part := .field "element" (.call .type)
    .alt [
      .node "slice_type" (.seq [lit "[", lit "]", element]),
      .node "implicit_length_array_type" (.seq [lit "[", lit "...", lit "]", element]),
      .node "array_type"
        (.seq [lit "[", .field "length" (.call (.expression true)), lit "]", element])]
  | .typeArguments =>
    .node "type_arguments"
      (.seq [lit "[", lines, separated (separated (.call .type) (lit "|")) (.seq [lit ",", lines]),
        optional (lit ","), lines, lit "]"])
  | .structType =>
    let fields : Rule Part :=
      .seq [separated (.field "name" fieldIdentifier) (lit ","), .field "type" (.call .type)]
    let embedded : Rule Part := .seq [optional (lit "*"), .field "type" (.call .namedType)]
    let declaration : Rule Part :=
      .node "field_declaration" (.seq [.alt [fields, embedded], optional (.kind .text)])
    .node "struct_type" (.seq [lit "struct", braces (.many (.alt [stop, declaration]))])
  | .interfaceType =>
    let method : Rule Part :=
      .node "method_elem"
        (.seq [.field "name" fieldIdentifier, .field "parameters" (.call .parameters),
          optional (.call .result)])
    let union : Rule Part := .node "type_elem" (separated (.call .type) (lit "|"))
    .node "interface_type" (.seq [lit "interface", braces (.many (.alt [stop, method, union]))])
  | .functionType =>
    .node "function_type"
      (.seq [lit "func", .field "parameters" (.call .parameters), optional (.call .result)])
  | .channelType =>
    .node "channel_type"
      (.alt [
        .seq [lit "<-", lit "chan", .call .type],
        .seq [lit "chan", optional (lit "<-"), .call .type]])
  | .mapType =>
    .node "map_type" (.seq [lit "map", lit "[", .call .type, lit "]", .call .type])
  | .expression c =>
    separated (.seq [.many (.lexeme unaryOperators), .call (.primary c)]) (.lexeme operators)
  | .expressions c =>
    .node "expression_list" (separated (.call (.expression c)) (.seq [lit ",", lines]))
  | .primary c =>
    let inside : Rule Part := .call (.expression true)
    .chain (.call (.operand c)) [
      ("call_expression", "function",
        .seq [.field "type_arguments" (.call .typeArguments),
          .field "arguments" (.call .arguments)]),
      ("call_expression", "function", .field "arguments" (.call .arguments)),
      ("selector_expression", "operand", .seq [lit ".", .field "field" fieldIdentifier]),
      ("type_assertion_expression", "operand",
        .seq [lit ".", lit "(", .field "type" (.call .type), lit ")"]),
      ("index_expression", "operand", .seq [lit "[", .field "index" inside, lines, lit "]"]),
      ("slice_expression", "operand",
        .seq [lit "[", optional inside, lit ":", optional inside,
          optional (.seq [lit ":", inside]), lit "]"]),
      ("type_instantiation_expression", "type", .call .typeArguments)]
  | .operand c =>
    let literalType : Rule Part := .alt [.call .listType, .call .mapType, .call .structType]
    let convertible : Rule Part :=
      .alt [.call .listType, .call .mapType, .call .structType, .call .interfaceType,
        .call .channelType, .call .functionType]
    let composite := fun (type : Rule Part) =>
      Rule.node "composite_literal"
        (.seq [.field "type" type, .field "body" (.call .elements)])
    let allocation : Rule Part :=
      .node "call_expression"
        (.seq [.field "function" (.node "identifier" (.lexeme ["new", "make"])),
          .field "arguments" (.node "argument_list"
            (.seq [lit "(", lines, .call .type,
              .many (.seq [lit ",", lines, .call (.expression true)]), optional (lit ","), lines,
              lit ")"]))])
    .alt ([
      .node "func_literal"
        (.seq [lit "func", .field "parameters" (.call .parameters), optional (.call .result),
          .field "body" (.call .block)]),
      composite literalType,
      .node "type_conversion_expression"
        (.seq [convertible, lit "(", lines, .call (.expression true), optional (lit ","), lines,
          lit ")"]),
      .node "parenthesized_expression"
        (.seq [lit "(", lines, .call (.expression true), lines, lit ")"]),
      .node "parenthesized_type" (.seq [lit "(", .call .type, lit ")"]),
      .node "literal" (.alt [.kind .number, .kind .text, .lexeme constantWords]),
      allocation] ++
      (if c then [composite (.call .namedType)] else []) ++ [identifier])
  | .elements =>
    .node "literal_value" (braces (listedLines (.call .element)))
  | .element =>
    let value : Rule Part :=
      .node "literal_element" (.alt [.call .elements, .call (.expression true)])
    .seq [lines, .alt [.node "keyed_element" (.seq [value, lit ":", lines, value]), value]]
  | .arguments =>
    .node "argument_list"
      (.seq [lit "(",
        listedLines (.seq [lines, .call (.expression true), optional (lit "...")]), lit ")"])
  | .block => .node "block" (braces (.call .statements))
  | .statements =>
    .many (.alt [stop, .call .statement,
      .seq [.unless (.lexeme ["\x7d", "case", "default"]), error]])
  | .statement =>
    let label : Rule Part := .node "label_name" (.kind .word)
    .alt [
      .call .constants, .call .variables, .call .types, .call .block, .call .ifStatement,
      .call .forStatement, .call .switchStatement, .call .selectStatement,
      .node "return_statement" (.seq [lit "return", optional (.call (.expressions true))]),
      .node "go_statement" (.seq [.lexeme ["go", "defer"], .call (.expression true)]),
      .node "branch_statement" (.seq [.lexeme ["break", "continue", "goto"], optional label]),
      .node "fallthrough_statement" (lit "fallthrough"),
      .node "labeled_statement" (.seq [label, lit ":"]),
      .call (.simple true)]
  | .simple c =>
    let values : Rule Part := .call (.expressions c)
    let value : Rule Part := .call (.expression c)
    .alt [
      .node "short_var_declaration"
        (.seq [.field "left" values, lit ":=", lines, .field "right" values]),
      .node "assignment_statement"
        (.seq [.field "left" values, .lexeme assignments, .field "right" values]),
      .node "send_statement" (.seq [.field "channel" value, lit "<-", .field "value" value]),
      .node "inc_statement" (.seq [value, .lexeme ["++", "--"]]),
      .node "expression_statement" value]
  | .ifStatement =>
    .node "if_statement"
      (.seq [lit "if", optional (.seq [.field "initializer" (.call (.simple false)), lit ";"]),
        .field "condition" (.call (.expression false)), .field "consequence" (.call .block),
        optional (.seq [lit "else",
          .field "alternative" (.alt [.call .ifStatement, .call .block])])])
  | .forStatement =>
    let clause : Rule Part :=
      .node "for_clause"
        (.seq [optional (.call (.simple false)), lit ";", optional (.call (.expression false)),
          lit ";", optional (.call (.simple false))])
    let range : Rule Part :=
      .node "range_clause"
        (.seq [optional (.seq [.field "left" (.call (.expressions false)), .lexeme ["=", ":="]]),
          lit "range", .field "right" (.call (.expression false))])
    .node "for_statement"
      (.seq [lit "for", optional (.alt [clause, range, .call (.expression false)]),
        .field "body" (.call .block)])
  | .switchStatement =>
    let first : Rule Part := optional (.seq [optional (.call (.simple false)), lit ";"])
    let otherwise : Rule Part :=
      .node "default_case" (.seq [lit "default", lit ":", .call .statements])
    let typeCase : Rule Part :=
      .node "type_case"
        (.seq [lit "case", separated (.field "type" (.call .type)) (.seq [lit ",", lines]), lit ":",
          .call .statements])
    let valueCase : Rule Part :=
      .node "expression_case"
        (.seq [lit "case", .field "value" (.call (.expressions true)), lit ":", .call .statements])
    .alt [
      .node "type_switch_statement"
        (.seq [lit "switch", first,
          optional (.seq [.field "alias" (.call (.expressions false)), lit ":="]),
          .field "value" (.call (.expression false)), lit ".", lit "(", lit "type", lit ")",
          braces (.many (.alt [typeCase, otherwise]))]),
      .node "expression_switch_statement"
        (.seq [lit "switch", first, optional (.field "value" (.call (.expression false))),
          braces (.many (.alt [valueCase, otherwise]))])]
  | .selectStatement =>
    let received : Rule Part :=
      .node "receive_statement"
        (.seq [optional (.seq [.field "left" (.call (.expressions true)), .lexeme ["=", ":="]]),
          .field "right" (.call (.expression true))])
    let sent : Rule Part :=
      .node "send_statement"
        (.seq [.call (.expression true), lit "<-", .call (.expression true)])
    let oneCase : Rule Part :=
      .node "communication_case"
        (.seq [lit "case", .alt [sent, received], lit ":", .call .statements])
    let otherwise : Rule Part :=
      .node "default_case" (.seq [lit "default", lit ":", .call .statements])
    .node "select_statement" (.seq [lit "select", braces (.many (.alt [oneCase, otherwise]))])

/-- The grammar of Go. -/
def grammar : Grammar Part := ⟨rule, .file⟩

end SourceAtlas.Go
