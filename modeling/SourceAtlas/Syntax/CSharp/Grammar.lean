import SourceAtlas.Syntax.Grammar

/-!
# The grammar of C#

Statements may stand outside of types. A declaration starts with its attributes and modifiers, which
belong to its node. A simple name is an `identifier`, and a name with type arguments a
`generic_name`. Operators join expressions without a node of their own.

* `CSharp.Part`: the symbols;
* `CSharp.rule`, **`CSharp.grammar`**.
-/

namespace SourceAtlas.CSharp

open Rule

/-- The symbols of the grammar. -/
inductive Part where
  | file
  | usingDirective
  | namespaceItem
  | declaration
  | attributeList
  | modifier
  | typeDeclaration
  | enumDeclaration
  | delegateDeclaration
  | member
  | memberName
  | body
  | accessors
  | declarators
  | parameters
  | parameter
  | typeParameters
  | constraint
  | bases
  | declarationList
  | name
  | type
  | testedType
  | baseType
  | typeArguments
  | statement
  | block
  | localFunction
  | localDeclaration
  | resource
  | switchStatement
  | tryStatement
  | expression
  | operand
  | suffixed
  | primary
  | creation
  | initializer
  | lambda
  | query
  | clause
  | arguments
  | argument
  | pattern
  | plainPattern
  | switchArms
  | interpolated
deriving DecidableEq, Repr, Hashable

/-- A rule between braces. -/
def braces (r : Rule Part) : Rule Part := .seq [lit "\x7b", r, lit "\x7d"]

/-- A rule between parentheses. -/
def parens (r : Rule Part) : Rule Part := .seq [lit "(", r, lit ")"]

/-- A rule between brackets. -/
def brackets (r : Rule Part) : Rule Part := .seq [lit "[", r, lit "]"]

/-- A name. -/
def identifier : Rule Part := .node "identifier" (.seq [.unless (lit "await"), .kind .word])

/-- The name of a definition. -/
def nameOf (r : Rule Part) : Rule Part := .field "name" r

/-- Attributes in front of something. -/
def attributes : Rule Part := .many (.call .attributeList)

/-- What stands in front of a declaration. -/
def heading : Rule Part := .seq [attributes, .many (.call .modifier)]

/-- Optional parameters for types. -/
def generics : Rule Part := optional (.field "type_parameters" (.call .typeParameters))

/-- Conditions on types. -/
def conditions : Rule Part := .many (.call .constraint)

/-- An initial value. -/
def valued : Rule Part := .seq [lit "=", .alt [.call .expression, .call .initializer]]

/-- A value in parentheses. -/
def condition : Rule Part := parens (.call .expression)

/-- The operators between two expressions. -/
def operator : Rule Part :=
  .alt [
    glue [">", ">", ">", "="], glue [">", ">", ">"], glue [">", ">", "="], glue [">", ">"],
    glue [">", "="],
    .lexeme ["<<=", "??=", "??", "&&", "||", "==", "!=", "<=", "<<", "+=", "-=", "*=", "/=", "%=",
      "&=", "|=", "^=", "=", "<", ">", "+", "-", "*", "/", "%", "&", "|", "^"]]

/-- The operators that a type may define. -/
def definable : Rule Part :=
  .alt [
    glue [">", ">", ">"], glue [">", ">"], glue [">", "="],
    .lexeme ["==", "!=", "<=", "<<", "++", "--", "+", "-", "*", "/", "%", "&", "|", "^", "!", "~",
      "<", ">", "true", "false"]]

/-- The built-in types. -/
def builtin : Rule Part :=
  .node "predefined_type" (.lexeme ["bool", "byte", "char", "decimal", "double", "float", "int",
    "long", "object", "sbyte", "short", "string", "uint", "ulong", "ushort", "void"])

/-- What follows the type arguments of a name in an expression. -/
def afterArguments : Rule Part :=
  .ahead (.lexeme ["(", ")", "[", "]", "\x7b", "\x7d", ":", ";", ",", ".", "?", "==", "!=", "|",
    "^", "&&", "||", "&", "=>"])

/-- What follows a type that may be absent, so that the question mark belongs to it. -/
def afterQuestion : Rule Part :=
  .ahead (.lexeme [")", "]", "\x7d", ",", ";", ":", "=>", "?", "&&", "||", "==", "!=", "??", "=",
    "and", "or", "when"])

/-- A name in an expression, with or without type arguments. -/
def simpleName : Rule Part :=
  .alt [.node "generic_name" (.seq [identifier, .call .typeArguments, afterArguments]), identifier]

/-- A literal. -/
def literal : Rule Part :=
  .node "literal" (.alt [.kind .number, .kind .text, .lexeme ["true", "false", "null"]])

/-- The rule of a symbol. -/
def rule : Part → Rule Part
  | .file =>
    .node "compilation_unit"
      (.many (.alt [.call .usingDirective, .call .declaration,
        .node "global_attribute" (brackets (.seq [.lexeme ["assembly", "module"], lit ":",
          listed (.seq [.call .name, optional (.call .arguments)])])),
        .node "global_statement" (.call .statement), error]))
  | .usingDirective =>
    .alt [
      .node "extern_alias_directive"
        (.seq [lit "extern", lit "alias", identifier, lit ";"]),
      .node "using_directive"
        (.seq [optional (lit "global"), lit "using",
          .alt [
            .seq [optional (lit "unsafe"), .field "name" identifier, lit "=", .call .type],
            .seq [optional (lit "static"), optional (lit "unsafe"), .call .name]],
          lit ";"])]
  | .namespaceItem =>
    .alt [
      .node "namespace_declaration"
        (.seq [lit "namespace", nameOf (.call .name), .field "body" (.call .declarationList),
          optional (lit ";")]),
      .node "file_scoped_namespace_declaration"
        (.seq [lit "namespace", nameOf (.call .name), lit ";"])]
  | .declaration =>
    .alt [.call .namespaceItem, .call .typeDeclaration, .call .enumDeclaration,
      .call .delegateDeclaration]
  | .attributeList =>
    .node "attribute_list"
      (brackets (.seq [
        optional (.seq [.lexeme ["field", "event", "method", "param", "property", "return", "type"],
          lit ":"]),
        listed (.node "attribute" (.seq [.call .name, optional (.call .arguments)]))]))
  | .modifier =>
    .node "modifier" (.alt [
      .lexeme ["abstract", "const", "extern", "fixed", "internal", "new", "override", "private",
        "protected", "public", "readonly", "sealed", "static", "unsafe", "virtual", "volatile"],
      .seq [.lexeme ["async", "file", "partial", "required"],
        .unless (.lexeme ["=", "(", ")", ";", ",", ".", "=>", "\x7b", "\x7d", "[", "<", ":",
          "?"])]])
  | .typeDeclaration =>
    let after : Rule Part :=
      .seq [nameOf identifier, generics, optional (.call .parameters), optional (.call .bases),
        conditions,
        .alt [.seq [.field "body" (.call .declarationList), optional (lit ";")], lit ";"]]
    .alt [
      .node "class_declaration" (.seq [heading, lit "class", after]),
      .node "struct_declaration"
        (.seq [heading, optional (lit "ref"), optional (lit "partial"), lit "struct", after]),
      .node "interface_declaration" (.seq [heading, lit "interface", after]),
      .node "record_declaration"
        (.seq [heading, lit "record", optional (.lexeme ["class", "struct"]), after])]
  | .enumDeclaration =>
    let one : Rule Part := .seq [attributes, nameOf identifier, optional valued]
    .node "enum_declaration"
      (.seq [heading, lit "enum", nameOf identifier, optional (.call .bases),
        .field "body" (.node "enum_member_declaration_list"
          (braces (listed (.node "enum_member_declaration" one)))),
        optional (lit ";")])
  | .delegateDeclaration =>
    .node "delegate_declaration"
      (.seq [heading, lit "delegate", .call .type, nameOf identifier, generics, .call .parameters,
        conditions, lit ";"])
  | .declarationList =>
    .node "declaration_list"
      (braces (.many (.alt [.call .usingDirective, .call .declaration, .call .member,
        .seq [.unless (lit "\x7d"), error]])))
  | .memberName =>
    let owner : Rule Part :=
      .node "explicit_interface_specifier"
        (.seq [separated (.seq [identifier, optional (.call .typeArguments), .ahead (lit ".")])
          (.seq [lit ".", .ahead (.seq [.kind .word, optional (.call .typeArguments), lit "."])]),
          lit "."])
    optional owner
  | .member =>
    let start : Rule Part := .call .baseType
    .alt [
      .node "constructor_declaration"
        (.seq [heading, nameOf identifier, .field "parameters" (.call .parameters),
          optional (.node "constructor_initializer"
            (.seq [lit ":", .lexeme ["base", "this"], .call .arguments])),
          .call .body]),
      .node "destructor_declaration"
        (.seq [heading, lit "~", nameOf identifier, lit "(", lit ")", .call .body]),
      .node "conversion_operator_declaration"
        (.seq [heading, .lexeme ["implicit", "explicit"], .call .memberName, lit "operator",
          optional (lit "checked"), .call .type, .call .parameters, .call .body]),
      .node "event_declaration"
        (.seq [heading, lit "event", .call .type, .call .memberName, nameOf identifier,
          .call .accessors]),
      .node "event_field_declaration"
        (.seq [heading, lit "event", .call .declarators, lit ";"]),
      .node "operator_declaration"
        (.seq [heading, .call .type, .call .memberName, lit "operator", optional (lit "checked"),
          definable, .call .parameters, .call .body]),
      .node "indexer_declaration"
        (.seq [heading, .call .type, .call .memberName, lit "this",
          brackets (listed (.call .parameter)),
          .alt [.call .accessors, .seq [lit "=>", .call .expression, lit ";"]]]),
      .node "method_declaration"
        (.seq [heading, .field "returns" (.call .type), .call .memberName, nameOf identifier,
          generics, .field "parameters" (.call .parameters), conditions, .call .body]),
      .node "property_declaration"
        (.seq [heading, .field "type" (.call .type), .call .memberName, nameOf identifier,
          .alt [
            .seq [.call .accessors, optional (.seq [valued, lit ";"])],
            .seq [lit "=>", .call .expression, lit ";"]]]),
      .node "field_declaration" (.seq [heading, .ahead start, .call .declarators, lit ";"]),
      .node "empty_declaration" (lit ";")]
  | .body =>
    .alt [
      .field "body" (.call .block),
      .seq [.field "body" (.node "arrow_expression_clause" (.seq [lit "=>", .call .expression])),
        lit ";"],
      lit ";"]
  | .accessors =>
    .node "accessor_list" (braces (.many (.node "accessor_declaration"
      (.seq [heading, .lexeme ["get", "set", "init", "add", "remove"], .call .body]))))
  | .declarators =>
    let one : Rule Part :=
      .node "variable_declarator"
        (.seq [nameOf identifier,
          optional (.node "bracketed_argument_list" (brackets (listed (.call .argument)))),
          optional valued])
    .node "variable_declaration"
      (.seq [.field "type" (.call .type), separated one (lit ",")])
  | .parameters => .node "parameter_list" (parens (listed (.call .parameter)))
  | .parameter =>
    .node "parameter"
      (.seq [attributes,
        .many (.alt [.lexeme ["this", "ref", "out", "in", "params", "readonly"],
          .seq [lit "scoped", .ahead (.alt [.kind .word, .kind .keyword])]]),
        .field "type" (.call .type), nameOf identifier, optional valued])
  | .typeParameters =>
    .node "type_parameter_list"
      (.seq [lit "<",
        listed (.node "type_parameter"
          (.seq [attributes, optional (.lexeme ["in", "out"]), nameOf identifier])),
        lit ">"])
  | .constraint =>
    let one : Rule Part :=
      .alt [
        .seq [.lexeme ["class", "struct"], optional (lit "?")],
        .lexeme ["notnull", "unmanaged", "default"],
        .seq [lit "new", lit "(", lit ")"],
        .seq [lit "allows", lit "ref", lit "struct"],
        .call .type]
    .node "type_parameter_constraints_clause"
      (.seq [lit "where", identifier, lit ":", separated one (lit ",")])
  | .bases =>
    .node "base_list"
      (.seq [lit ":", separated (.seq [.call .type, optional (.call .arguments)]) (lit ",")])
  | .name =>
    .chain
      (.alt [
        .node "alias_qualified_name"
          (.seq [identifier, lit "::", identifier, optional (.call .typeArguments)]),
        .node "generic_name" (.seq [identifier, .call .typeArguments]),
        identifier])
      [("qualified_name", "qualifier",
        .seq [lit ".", nameOf (.alt [
          .node "generic_name" (.seq [identifier, .call .typeArguments]), identifier])])]
  | .type =>
    .chain (.call .baseType) [
      ("array_type", "type", brackets (.many (lit ","))),
      ("nullable_type", "type", lit "?"),
      ("pointer_type", "type", lit "*")]
  | .testedType =>
    .chain (.call .baseType) [
      ("array_type", "type", brackets (.many (lit ","))),
      ("nullable_type", "type", .seq [lit "?", afterQuestion])]
  | .baseType =>
    .alt [
      builtin,
      .node "function_pointer_type"
        (.seq [lit "delegate", lit "*",
          optional (.seq [.lexeme ["managed", "unmanaged"],
            optional (brackets (separated identifier (lit ",")))]),
          lit "<", separated (.seq [.many (.lexeme ["ref", "out", "in"]), .call .type]) (lit ","),
          lit ">"]),
      .node "ref_type" (.seq [lit "ref", optional (lit "readonly"), .call .type]),
      .node "scoped_type"
        (.seq [lit "scoped", .ahead (.alt [lit "ref", .seq [.kind .word, .kind .word],
          .seq [.kind .word, .call .typeArguments, .kind .word]]), .call .type]),
      .node "tuple_type"
        (parens (.seq [.call .type, optional identifier,
          repeated (.seq [lit ",", .call .type, optional identifier])])),
      .call .name]
  | .typeArguments =>
    .node "type_argument_list"
      (.seq [lit "<", .alt [separated (.call .type) (lit ","), .many (lit ",")], lit ">"])
  | .statement =>
    let inner : Rule Part := .call .statement
    .alt [
      .call .block,
      .node "empty_statement" (lit ";"),
      .node "if_statement"
        (.seq [lit "if", condition, inner, optional (.seq [lit "else", inner])]),
      .call .switchStatement,
      .node "while_statement" (.seq [lit "while", condition, inner]),
      .node "do_statement" (.seq [lit "do", inner, lit "while", condition, lit ";"]),
      .node "for_statement"
        (.seq [lit "for", lit "(",
          optional (.alt [.seq [.call .declarators, .ahead (lit ";")],
            separated (.call .expression) (lit ",")]), lit ";",
          optional (.call .expression), lit ";",
          optional (separated (.call .expression) (lit ",")), lit ")", inner]),
      .node "foreach_statement"
        (.seq [optional (lit "await"), lit "foreach", lit "(",
          .alt [
            .seq [.call .type, identifier, lit "in"],
            .seq [.call .expression, lit "in"]],
          .call .expression, lit ")", inner]),
      .call .tryStatement,
      .node "using_statement"
        (.seq [optional (lit "await"), lit "using", lit "(", .call .resource, lit ")", inner]),
      .node "lock_statement" (.seq [lit "lock", condition, inner]),
      .node "fixed_statement" (.seq [lit "fixed", parens (.call .declarators), inner]),
      .node "unsafe_statement" (.seq [lit "unsafe", .call .block]),
      .node "checked_statement" (.seq [.lexeme ["checked", "unchecked"], .call .block]),
      .node "return_statement" (.seq [lit "return", optional (.call .expression), lit ";"]),
      .node "throw_statement" (.seq [lit "throw", optional (.call .expression), lit ";"]),
      .node "yield_statement"
        (.seq [lit "yield", .alt [.seq [lit "return", .call .expression], lit "break"], lit ";"]),
      .node "break_statement" (.seq [.lexeme ["break", "continue"], lit ";"]),
      .node "goto_statement"
        (.seq [lit "goto", .alt [.seq [lit "case", .call .expression], lit "default", identifier],
          lit ";"]),
      .node "labeled_statement" (.seq [identifier, lit ":", inner]),
      .call .localFunction,
      .seq [.call .localDeclaration, lit ";"],
      .node "expression_statement" (.seq [.call .expression, lit ";"])]
  | .block =>
    .node "block"
      (braces (.many (.alt [.call .statement, .call .declaration,
        .seq [.unless (lit "\x7d"), error]])))
  | .localFunction =>
    .node "local_function_statement"
      (.seq [heading, .field "type" (.call .type), nameOf identifier, generics, .call .parameters,
        conditions, .call .body])
  | .localDeclaration =>
    .node "local_declaration_statement"
      (.seq [optional (.seq [optional (lit "await"), lit "using"]), .many (.call .modifier),
        .call .declarators, .ahead (.lexeme [";", ")"])])
  | .resource =>
    .alt [.seq [.call .declarators, .ahead (lit ")")], .call .expression]
  | .switchStatement =>
    let guard : Rule Part := optional (.seq [lit "when", .call .expression])
    let label : Rule Part :=
      .alt [.seq [lit "case", .call .pattern, guard, lit ":"], .seq [lit "default", lit ":"]]
    let chosen : Rule Part :=
      .seq [.unless (.alt [lit "case", .seq [lit "default", lit ":"], lit "\x7d"]),
        .alt [.call .statement, error]]
    .node "switch_statement"
      (.seq [lit "switch", parens (separated (.call .expression) (lit ",")),
        .node "switch_body" (braces (.many (.node "switch_section"
          (.seq [repeated label, .many chosen]))))])
  | .tryStatement =>
    let caught : Rule Part :=
      .node "catch_clause"
        (.seq [lit "catch",
          optional (.node "catch_declaration"
            (parens (.seq [.call .type, optional identifier]))),
          optional (.node "catch_filter_clause" (.seq [lit "when", condition])),
          .call .block])
    .node "try_statement"
      (.seq [lit "try", .call .block, .many caught,
        optional (.node "finally_clause" (.seq [lit "finally", .call .block]))])
  | .expression =>
    .alt [
      .call .query,
      .seq [
        .call .operand,
        .many (.alt [
          .seq [lit "is", .call .pattern],
          .seq [lit "as", .call .testedType],
          .seq [lit "..", optional (.call .operand)],
          .seq [operator, .alt [.call .query, .call .operand]],
          .seq [lit "?", .call .expression, lit ":", .call .expression]])]]
  | .operand =>
    .alt [
      .call .lambda,
      .node "range_expression" (.seq [lit "..", optional (.call .operand)]),
      .node "await_expression" (.seq [lit "await", .call .operand]),
      .node "throw_expression" (.seq [lit "throw", .call .expression]),
      .node "ref_expression" (.seq [lit "ref", .call .expression]),
      .node "prefix_unary_expression"
        (.seq [.lexeme ["++", "--", "+", "-", "!", "~", "^", "&", "*"], .call .operand]),
      .node "cast_expression"
        (.seq [parens (.field "type" (.call .type)),
          .alt [
            .seq [.ahead (.alt [.kind .word, .kind .number, .kind .text, .kind .quoteOpen,
                .lexeme ["(", "!", "~"],
                .seq [.unless (.lexeme ["is", "as", "in", "switch"]), .kind .keyword]]),
              .field "value" (.call .operand)]]]),
      .call .suffixed]
  | .suffixed =>
    .chain (.call .primary) [
      ("member_access_expression", "expression",
        .seq [.lexeme [".", "->"], nameOf simpleName]),
      ("conditional_access_expression", "condition",
        .seq [lit "?", .alt [
          .node "member_binding_expression" (.seq [.joint ".", nameOf simpleName]),
          .seq [
            .node "element_binding_expression"
              (.seq [.joint "[", listed (.call .argument), lit "]"]),
            .unless (.seq [.call .expression, lit ":"])]]]),
      ("invocation_expression", "function", .field "arguments" (.call .arguments)),
      ("element_access_expression", "expression", brackets (listed (.call .argument))),
      ("postfix_unary_expression", "expression",
        .alt [.lexeme ["++", "--"], .seq [lit "!", .unless (.joint "=")]]),
      ("switch_expression", "value", .seq [lit "switch", .call .switchArms]),
      ("with_expression", "value", .seq [lit "with", .call .initializer])]
  | .primary =>
    .alt [
      literal,
      .call .interpolated,
      .call .creation,
      .node "typeof_expression" (.seq [.lexeme ["typeof", "sizeof"], parens (.call .type)]),
      .node "default_expression" (.seq [lit "default", optional (parens (.call .type))]),
      .node "checked_expression" (.seq [.lexeme ["checked", "unchecked"], condition]),
      .node "anonymous_method_expression"
        (.seq [.many (.lexeme ["async", "static"]), lit "delegate", optional (.call .parameters),
          .call .block]),
      .node "parenthesized_expression" (parens (listed (.call .argument))),
      .node "collection_expression"
        (brackets (listed (.call .expression))),
      .node "this" (.lexeme ["this", "base"]),
      .node "declaration_expression"
        (.seq [lit "var", .ahead (lit "("),
          .unless (.seq [.call .arguments, .unless (.lexeme ["=", "in"])]), .call .arguments]),
      builtin,
      .node "alias_qualified_name" (.seq [identifier, lit "::", simpleName]),
      simpleName]
  | .creation =>
    let rank : Rule Part := brackets (optional (separated (.call .expression) (lit ",")))
    .alt [
      .node "implicit_array_creation_expression"
        (.seq [lit "new", brackets (.many (lit ",")), .call .initializer]),
      .node "anonymous_object_creation_expression"
        (.seq [lit "new", braces (listed (.call .expression))]),
      .node "implicit_object_creation_expression"
        (.seq [lit "new", .call .arguments, optional (.call .initializer)]),
      .node "object_creation_expression"
        (.seq [lit "new", .field "type" (.call .type),
          .alt [
            .seq [.field "arguments" (.call .arguments), optional (.call .initializer)],
            .field "initializer" (.call .initializer)]]),
      .node "array_creation_expression"
        (.seq [lit "new", .call .baseType, optional (lit "?"), repeated rank,
          optional (.call .initializer)]),
      .node "stackalloc_expression"
        (.seq [lit "stackalloc", optional (.call .baseType), repeated rank,
          optional (.call .initializer)])]
  | .initializer =>
    let one : Rule Part :=
      .alt [
        .call .initializer,
        .seq [brackets (listed (.call .argument)), lit "=",
          .alt [.call .initializer, .call .expression]],
        .seq [identifier, lit "=", .call .initializer],
        .call .expression]
    .node "initializer_expression" (braces (listed one))
  | .lambda =>
    let free : Rule Part := parens (listed (.seq [attributes, .node "parameter" identifier]))
    .node "lambda_expression"
      (.seq [attributes, .many (.seq [.lexeme ["async", "static"], .unless (lit "=>")]),
        .alt [
          .seq [.node "implicit_parameter" identifier, lit "=>"],
          .seq [free, lit "=>"],
          .seq [.call .parameters, lit "=>"],
          .seq [.call .type, .call .parameters, lit "=>"]],
        .field "body" (.alt [.call .block, .call .expression])])
  | .query =>
    .node "query_expression"
      (.seq [
        .node "from_clause"
          (.seq [lit "from", .alt [
              .seq [identifier, lit "in"],
              .seq [.call .type, identifier, lit "in"]],
            .call .expression]),
        .many (.call .clause)])
  | .clause =>
    let value : Rule Part := .call .expression
    let member : Rule Part :=
      .alt [.seq [identifier, lit "in"], .seq [.call .type, identifier, lit "in"]]
    .alt [
      .node "from_clause" (.seq [lit "from", member, value]),
      .node "where_clause" (.seq [lit "where", value]),
      .node "let_clause" (.seq [lit "let", identifier, lit "=", value]),
      .node "join_clause"
        (.seq [lit "join", member, value, lit "on", value, lit "equals", value,
          optional (.seq [lit "into", identifier])]),
      .node "order_by_clause"
        (.seq [lit "orderby",
          separated (.seq [value, optional (.lexeme ["ascending", "descending"])]) (lit ",")]),
      .node "group_clause" (.seq [lit "group", value, lit "by", value]),
      .node "select_clause" (.seq [lit "select", value]),
      .seq [lit "into", identifier]]
  | .arguments => .node "argument_list" (parens (listed (.call .argument)))
  | .argument =>
    .node "argument"
      (.seq [optional (.seq [nameOf identifier, lit ":", .unless (lit ":")]),
        optional (.lexeme ["ref", "out", "in"]),
        .alt [
          .node "declaration_expression"
            (.seq [.call .type, identifier, .ahead (.lexeme [",", ")"])]),
          .seq [.call .expression, optional valued]]])
  | .pattern =>
    separated (.call .plainPattern) (.lexeme ["and", "or"])
  | .plainPattern =>
    let properties : Rule Part :=
      .node "property_pattern_clause"
        (braces (listed (.seq [
          separated identifier (lit "."), lit ":", .call .pattern])))
    let positions : Rule Part :=
      .node "positional_pattern_clause"
        (parens (listed (.seq [optional (.seq [identifier, lit ":"]), .call .pattern])))
    let designation : Rule Part :=
      .seq [.unless (.lexeme ["and", "or", "when"]), identifier]
    .alt [
      .node "negated_pattern" (.seq [lit "not", .call .plainPattern]),
      .node "relational_pattern"
        (.seq [.alt [glue [">", "="], .lexeme ["<", "<=", ">"]], .call .operand]),
      .node "var_pattern"
        (.seq [lit "var", .alt [.call .arguments, identifier]]),
      .node "discard" (.seq [lit "_", .unless (.lexeme [".", "("])]),
      .node "slice_pattern" (.seq [lit "..", optional (.call .pattern)]),
      .node "list_pattern"
        (.seq [brackets (listed (.call .pattern)), optional designation]),
      .node "recursive_pattern"
        (.seq [optional (.call .testedType),
          .alt [.seq [positions, properties], properties], optional designation]),
      .node "recursive_pattern" (.seq [.call .testedType, positions, designation]),
      .node "declaration_pattern" (.seq [.call .testedType, designation]),
      .node "recursive_pattern" (.seq [positions, optional designation]),
      .seq [.node "type_pattern" (.call .testedType),
        .ahead (.lexeme [")", "]", "\x7d", ",", ";", ":", "=>", "?", "&&", "||", "and", "or",
          "when"])],
      .node "constant_pattern" (.seq [.call .operand,
        .many (.seq [.lexeme ["+", "-", "*", "/", "%", "|", "&", "<<"], .call .operand])])]
  | .switchArms =>
    .node "switch_expression_arms"
      (braces (listed (.node "switch_expression_arm"
        (.seq [.call .pattern, optional (.seq [lit "when", .call .expression]), lit "=>",
          .call .expression]))))
  | .interpolated =>
    let hole : Rule Part :=
      .node "interpolation"
        (.seq [lit "\x7b", .call .expression, optional (.seq [lit ",", .call .expression]),
          optional (lit ":"), lit "\x7d"])
    .node "interpolated_string_expression"
      (.seq [.kind .quoteOpen, .many hole, .kind .quoteClose])

/-- The grammar of C#. -/
def grammar : Grammar Part := ⟨rule, .file⟩

end SourceAtlas.CSharp
