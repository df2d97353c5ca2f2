import SourceAtlas.Syntax.Grammar

/-!
# The grammar of Rust

A name is a `type_identifier` where a type stands, a `field_identifier` after a dot, and an
`identifier` elsewhere. The arguments of macros and attributes are trees of tokens in which every
name is an `identifier`. Operators join expressions without a node of their own.

* `Rust.Part`: the symbols; `lit` tells whether a name may be followed by the fields of a literal,
  which is not so in the head of a statement;
* `Rust.rule`, **`Rust.grammar`**.
-/

namespace SourceAtlas.Rust

open Rule

/-- The symbols of the grammar. -/
inductive Part where
  | file
  | statement
  | item
  | declarations
  | attribute
  | visibility
  | modItem
  | functionItem
  | parameters
  | parameter
  | structItem
  | enumItem
  | typeItem
  | constItem
  | traitItem
  | implItem
  | useItem
  | useClause
  | externItem
  | macroDefinition
  | macroInvocation
  | tokenTree
  | patternTree
  | fields
  | tupleFields
  | typeParameters
  | whereClause
  | bounds
  | bound
  | letDeclaration
  | block
  | path
  | pathHead
  | pathStem
  | type
  | plainType
  | pathType
  | typeArguments
  | lifetime
  | label
  | pattern
  | plainPattern
  | expression (lit : Bool)
  | operand (lit : Bool)
  | upTo (lit : Bool)
  | suffixed (lit : Bool)
  | primary (lit : Bool)
  | blockLike
  | closure (lit : Bool)
  | matchArm
  | arguments
  | structName
  | initializers
deriving DecidableEq, Repr, Hashable

/-- The names of the built-in types. -/
def primitives : List String :=
  ["u8", "i8", "u16", "i16", "u32", "i32", "u64", "i64", "u128", "i128", "isize", "usize", "f32",
    "f64", "bool", "str", "char"]

/-- The words that keep their meaning in a tree of tokens. -/
def tokenWords : List String :=
  ["as", "async", "await", "break", "const", "continue", "default", "enum", "fn", "for", "gen",
    "if", "impl", "let", "loop", "match", "mod", "pub", "return", "static", "struct", "trait",
    "type", "union", "unsafe", "use", "where", "while", "self", "super", "crate", "mut", "true",
    "false"]

/-- A rule between braces. -/
def braces (r : Rule Part) : Rule Part := .seq [lit "\x7b", r, lit "\x7d"]

/-- A rule between parentheses. -/
def parens (r : Rule Part) : Rule Part := .seq [lit "(", r, lit ")"]

/-- A name. -/
def identifier : Rule Part := named "identifier"

/-- The name of a type. -/
def typeIdentifier : Rule Part := named "type_identifier"

/-- The name of a field. -/
def fieldIdentifier : Rule Part := anyWord "field_identifier"

/-- The name of a definition. -/
def nameOf (r : Rule Part) : Rule Part := .field "name" r

/-- Attributes in front of something. -/
def attributes : Rule Part := .many (.call .attribute)

/-- Who may use a definition. -/
def visible : Rule Part := optional (.call .visibility)

/-- What a definition yields. -/
def returning : Rule Part := optional (.seq [lit "->", .field "return_type" (.call .type)])

/-- The words in front of a function. -/
def modifiers : Rule Part :=
  optional (.node "function_modifiers" (repeated (.alt [
    .lexeme ["async", "default", "const", "unsafe"], .seq [lit "extern", optional (.kind .text)]])))

/-- An optional list of parameters for types. -/
def generics : Rule Part := optional (.field "type_parameters" (.call .typeParameters))

/-- Optional conditions on types. -/
def conditions : Rule Part := optional (.call .whereClause)

/-- An initial value. -/
def valued : Rule Part := .seq [lit "=", .field "value" (.call (.expression true))]

/-- The operators between two expressions. -/
def operator : Rule Part :=
  .alt [
    glue ["<", "<", "="], glue [">", ">", "="], glue ["=", "="], glue ["!", "="], glue ["<", "="],
    glue [">", "="], glue ["&", "&"], glue ["|", "|"], glue ["<", "<"], glue [">", ">"],
    glue ["+", "="], glue ["-", "="], glue ["*", "="], glue ["/", "="], glue ["%", "="],
    glue ["^", "="], glue ["&", "="], glue ["|", "="],
    .lexeme ["=", "<", ">", "+", "-", "*", "/", "%", "^", "&", "|"]]

/-- The marks of a range. -/
def rangeMarks : List String := ["..", "..=", "..."]

/-- The self value. -/
def selfValue : Rule Part := .node "self" (lit "self")

/-- A separator of a path in front of another. -/
def separatorAhead : Rule Part := .ahead (lit "::")

/-- A literal. -/
def literal : Rule Part :=
  .node "literal" (.alt [.kind .number, .kind .text, .lexeme ["true", "false"]])

/-- The words in front of a lifetime. -/
def forLifetimes : Rule Part := .seq [lit "for", .call .typeParameters]

/-- The rule of a symbol. -/
def rule : Part → Rule Part
  | .file => .node "source_file" (.many (.alt [.call .statement, error]))
  | .statement =>
    let goesOn : Rule Part := .lexeme [".", "?"]
    .alt [
      .call .attribute,
      .node "empty_statement" (lit ";"),
      .call .letDeclaration,
      .call .item,
      .node "expression_statement"
        (.seq [.call .blockLike, .unless goesOn, optional (lit ";")]),
      .node "expression_statement" (.seq [.call (.expression true), optional (lit ";")])]
  | .item =>
    .alt [.call .functionItem, .call .modItem, .call .structItem, .call .enumItem, .call .typeItem,
      .call .constItem, .call .traitItem, .call .implItem, .call .useItem, .call .externItem,
      .call .macroDefinition]
  | .declarations =>
    .node "declaration_list"
      (braces (.many (.alt [.call .attribute, .node "empty_statement" (lit ";"), .call .item,
        .seq [.call .macroInvocation, optional (lit ";")],
        .seq [.unless (lit "\x7d"), error]])))
  | .attribute =>
    .node "attribute_item"
      (.seq [lit "#", optional (lit "!"), lit "[", optional (lit "unsafe"),
        .alt [
          .seq [.call .path,
            optional (.alt [.seq [lit "=", .call (.expression true)], .call .tokenTree])],
          .call .tokenTree],
        lit "]"])
  | .visibility =>
    let place : Rule Part := .alt [.lexeme ["self", "super", "crate"], .seq [lit "in", .call .path]]
    .node "visibility_modifier" (.seq [lit "pub", optional (parens place)])
  | .modItem =>
    .node "mod_item"
      (.seq [visible, lit "mod", nameOf identifier,
        .alt [lit ";", .field "body" (.call .declarations)]])
  | .functionItem =>
    let head : Rule Part :=
      .seq [visible, modifiers, lit "fn", nameOf (.alt [identifier, .kind .placeholder]), generics,
        .field "parameters" (.call .parameters), returning, conditions]
    .alt [
      .node "function_item" (.seq [head, .field "body" (.call .block)]),
      .node "function_signature_item" (.seq [head, lit ";"])]
  | .parameters => .node "parameters" (parens (listed (.call .parameter)))
  | .parameter =>
    let mutable : Rule Part := optional (lit "mut")
    .seq [attributes, .alt [
      .node "parameter"
        (.seq [mutable, .field "pattern" (.alt [selfValue, .call .plainPattern]), lit ":",
          .field "type" (.call .type)]),
      .node "self_parameter"
        (.seq [optional (.seq [lit "&", optional (.call .lifetime)]), mutable, selfValue]),
      .node "variadic_parameter" (lit "..."),
      .call .type]]
  | .structItem =>
    let record : Rule Part := .seq [conditions, .field "body" (.call .fields)]
    let tuple : Rule Part := .seq [.field "body" (.call .tupleFields), conditions, lit ";"]
    .alt [
      .node "struct_item"
        (.seq [visible, lit "struct", nameOf typeIdentifier, generics,
          .alt [record, tuple, .seq [conditions, lit ";"]]]),
      .node "union_item"
        (.seq [visible, lit "union", nameOf typeIdentifier, generics, record])]
  | .enumItem =>
    let variant : Rule Part :=
      .node "enum_variant"
        (.seq [visible, nameOf identifier,
          optional (.field "body" (.alt [.call .fields, .call .tupleFields])), optional valued])
    .node "enum_item"
      (.seq [visible, lit "enum", nameOf typeIdentifier, generics, conditions,
        .field "body" (.node "enum_variant_list" (braces (listed (.seq [attributes, variant]))))])
  | .typeItem =>
    .alt [
      .node "type_item"
        (.seq [visible, lit "type", nameOf typeIdentifier, generics, conditions, lit "=",
          .field "type" (.call .type), conditions, lit ";"]),
      .node "associated_type"
        (.seq [visible, lit "type", nameOf typeIdentifier, generics, optional (.call .bounds),
          conditions, optional (.seq [lit "=", .call .type]), conditions, lit ";"])]
  | .constItem =>
    .alt [
      .node "const_item"
        (.seq [visible, lit "const", nameOf identifier, lit ":", .field "type" (.call .type),
          optional valued, lit ";"]),
      .node "static_item"
        (.seq [visible, optional (lit "unsafe"), lit "static", optional (lit "ref"),
          optional (lit "mut"), nameOf identifier, lit ":", .field "type" (.call .type),
          optional valued, lit ";"])]
  | .traitItem =>
    .node "trait_item"
      (.seq [visible, optional (lit "unsafe"), lit "trait", nameOf typeIdentifier, generics,
        optional (.call .bounds), conditions, .field "body" (.call .declarations)])
  | .implItem =>
    let trait : Rule Part :=
      .seq [optional (lit "!"), .field "trait" (.call .pathType), lit "for"]
    .node "impl_item"
      (.seq [optional (lit "default"), optional (lit "unsafe"), lit "impl", generics,
        optional (lit "const"), optional trait, .field "type" (.call .type), conditions,
        .alt [.field "body" (.call .declarations), lit ";"]])
  | .useItem =>
    .node "use_declaration"
      (.seq [visible, lit "use", .field "argument" (.call .useClause), lit ";"])
  | .useClause =>
    let list : Rule Part := .node "use_list" (braces (listed (.call .useClause)))
    .alt [
      .node "scoped_use_list"
        (.seq [optional (.field "path" (.call .path)), lit "::", .field "list" list]),
      list,
      .node "use_wildcard"
        (.seq [optional (.seq [optional (.call .path), lit "::"]), lit "*"]),
      .node "use_as_clause"
        (.seq [.field "path" (.call .path), lit "as", .field "alias" identifier]),
      .call .path]
  | .externItem =>
    .alt [
      .node "extern_crate_declaration"
        (.seq [visible, lit "extern", lit "crate", nameOf (.alt [identifier, selfValue]),
          optional (.seq [lit "as", .field "alias" identifier]), lit ";"]),
      .node "foreign_mod_item"
        (.seq [visible, optional (lit "unsafe"), lit "extern", optional (.kind .text),
          .alt [.field "body" (.call .declarations), lit ";"]])]
  | .macroDefinition =>
    let one : Rule Part := .seq [.call .patternTree, lit "=>", .call .tokenTree]
    let all : Rule Part :=
      optional (.seq [separated one (lit ";"), optional (lit ";")])
    .node "macro_definition"
      (.seq [lit "macro_rules", lit "!", nameOf identifier,
        .alt [braces all, .seq [parens all, lit ";"], .seq [lit "[", all, lit "]", lit ";"]]])
  | .macroInvocation =>
    .node "macro_invocation"
      (.seq [.field "macro" (.call .path), lit "!", .call .tokenTree])
  | .tokenTree =>
    let one : Rule Part :=
      .alt [.call .tokenTree, .lexeme (tokenWords ++ primitives),
        .node "identifier" (.alt [.kind .word, .kind .keyword]),
        .seq [.unless (.lexeme ["(", ")", "[", "]", "\x7b", "\x7d"]), .any]]
    .node "token_tree"
      (.alt [parens (.many one), braces (.many one), .seq [lit "[", .many one, lit "]"]])
  | .patternTree =>
    let one : Rule Part :=
      .alt [.call .patternTree,
        .seq [.kind .placeholder, lit ":", .alt [.kind .word, .kind .keyword]],
        .lexeme (tokenWords ++ primitives),
        .node "identifier" (.alt [.kind .word, .kind .keyword]),
        .seq [.unless (.lexeme ["(", ")", "[", "]", "\x7b", "\x7d"]), .any]]
    .node "token_tree_pattern"
      (.alt [parens (.many one), braces (.many one), .seq [lit "[", .many one, lit "]"]])
  | .fields =>
    let one : Rule Part :=
      .node "field_declaration"
        (.seq [visible, nameOf fieldIdentifier, lit ":", .field "type" (.call .type)])
    .node "field_declaration_list" (braces (listed (.seq [attributes, one])))
  | .tupleFields =>
    .node "ordered_field_declaration_list"
      (parens (listed (.seq [attributes, visible, .field "type" (.call .type)])))
  | .typeParameters =>
    let standard : Rule Part := optional (.seq [lit "=", .field "default_type" (.call .type)])
    let one : Rule Part :=
      .alt [
        .node "const_parameter"
          (.seq [lit "const", nameOf identifier, lit ":", .field "type" (.call .type),
            optional (.seq [lit "=",
              .alt [.call .block, .seq [optional (lit "-"), literal], identifier]])]),
        .seq [.call .lifetime, optional (.call .bounds)],
        .seq [typeIdentifier, optional (.call .bounds), standard],
        .kind .placeholder]
    .node "type_parameters" (.seq [lit "<", listed (.seq [attributes, one]), lit ">"])
  | .whereClause =>
    let one : Rule Part :=
      .seq [optional forLifetimes, .alt [.call .lifetime, .call .plainType], .call .bounds]
    .node "where_clause" (.seq [lit "where", listed one])
  | .bounds =>
    .node "trait_bounds" (.seq [lit ":", optional (separated (.call .bound) (lit "+"))])
  | .bound =>
    .alt [
      .call .lifetime,
      .node "removed_trait_bound" (.seq [lit "?", .call .plainType]),
      .node "higher_ranked_trait_bound" (.seq [forLifetimes, .call .plainType]),
      .seq [lit "~", lit "const", .call .plainType],
      .call .plainType]
  | .letDeclaration =>
    .node "let_declaration"
      (.seq [lit "let", optional (lit "mut"), .field "pattern" (.call .pattern),
        optional (.seq [lit ":", .field "type" (.call .type)]), optional valued,
        optional (.seq [lit "else", .field "alternative" (.call .block)]), lit ";"])
  | .block =>
    .node "block"
      (braces (.many (.alt [.call .statement, .seq [.unless (lit "\x7d"), error]])))
  | .path =>
    .chain (.call .pathHead) [
      ("scoped_identifier", "path",
        .seq [lit "::", nameOf (.alt [identifier, .node "super" (lit "super")])]),
      ("generic_type", "type", .seq [lit "::", .call .typeArguments, separatorAhead])]
  | .pathHead =>
    .alt [
      .node "generic_type"
        (.seq [.field "type" typeIdentifier, lit "::", .call .typeArguments, separatorAhead]),
      .node "bracketed_type"
        (.seq [lit "<", .call .type, optional (.seq [lit "as", .call .type]), lit ">",
          separatorAhead]),
      .node "scoped_identifier" (.seq [lit "::", nameOf identifier]),
      selfValue, .node "super" (lit "super"), .node "crate" (lit "crate"),
      .node "metavariable" (.kind .placeholder),
      identifier]
  | .pathStem =>
    .seq [
      .chain (.call .pathHead) [
        ("scoped_identifier", "path",
          .seq [lit "::", nameOf (.alt [identifier, .node "super" (lit "super")]), separatorAhead]),
        ("generic_type", "type", .seq [lit "::", .call .typeArguments, separatorAhead])],
      separatorAhead]
  | .type =>
    separated (.alt [.call .lifetime, .call .plainType]) (lit "+")
  | .plainType =>
    .alt [
      .node "reference_type"
        (.seq [lit "&", optional (.call .lifetime), optional (lit "mut"), .call .plainType]),
      .node "pointer_type" (.seq [lit "*", .lexeme ["const", "mut"], .call .plainType]),
      .node "never_type" (lit "!"),
      .node "tuple_type" (parens (listed (.call .type))),
      .node "array_type"
        (.seq [lit "[", .field "element" (.call .type),
          optional (.seq [lit ";", .field "length" (.call (.expression true))]), lit "]"]),
      .node "function_type"
        (.seq [optional forLifetimes, modifiers, lit "fn", .field "parameters" (.call .parameters),
          returning]),
      .node "higher_ranked_trait_bound" (.seq [forLifetimes, .call .plainType]),
      .node "abstract_type"
        (.seq [lit "impl", separated (.call .bound) (lit "+")]),
      .node "dynamic_type"
        (.seq [lit "dyn", separated (.call .bound) (lit "+")]),
      .call .macroInvocation,
      .call .pathType]
  | .pathType =>
    .chain
      (.alt [
        .node "scoped_type_identifier"
          (.seq [.field "path" (.call .pathStem), lit "::", nameOf typeIdentifier]),
        .node "scoped_type_identifier" (.seq [lit "::", nameOf typeIdentifier]),
        .node "metavariable" (.kind .placeholder),
        .node "primitive_type" (.lexeme primitives),
        typeIdentifier])
      [("generic_type", "type", .seq [optional (lit "::"), .call .typeArguments]),
        ("scoped_type_identifier", "path", .seq [lit "::", nameOf typeIdentifier]),
        ("function_type", "trait", .seq [.field "parameters" (.call .parameters), returning])]
  | .typeArguments =>
    let binding : Rule Part :=
      .node "type_binding"
        (.seq [nameOf typeIdentifier, optional (.call .typeArguments), lit "=", .call .type])
    let one : Rule Part :=
      .alt [binding, .seq [.call .type, optional (.call .bounds)],
        .seq [optional (lit "-"), literal], .call .block]
    .node "type_arguments" (.seq [lit "<", listed one, lit ">"])
  | .lifetime => .node "lifetime" (.seq [lit "'", anyWord "identifier"])
  | .label => .node "label" (.seq [lit "'", anyWord "identifier"])
  | .pattern => .seq [optional (lit "|"), separated (.call .plainPattern) (lit "|")]
  | .plainPattern =>
    let mutable : Rule Part := optional (lit "mut")
    let bound : Rule Part := .alt [.seq [optional (lit "-"), literal], .call .path]
    let entry : Rule Part :=
      .seq [attributes, .alt [
        .node "remaining_field_pattern" (lit ".."),
        .node "field_pattern"
          (.seq [nameOf (.alt [fieldIdentifier, .kind .number]), lit ":",
            .field "pattern" (.call .pattern)]),
        .node "field_pattern"
          (.seq [optional (lit "ref"), mutable, nameOf (named "shorthand_field_identifier")])]]
    .alt [
      .node "ref_pattern" (.seq [lit "ref", .call .plainPattern]),
      .node "mut_pattern" (.seq [lit "mut", .call .plainPattern]),
      .node "reference_pattern" (.seq [lit "&", mutable, .call .plainPattern]),
      .node "tuple_pattern" (parens (listed (.call .pattern))),
      .node "slice_pattern" (.seq [lit "[", listed (.call .pattern), lit "]"]),
      .node "range_pattern"
        (.seq [bound, .lexeme rangeMarks, optional bound]),
      .node "range_pattern" (.seq [.lexeme ["..=", ".."], bound]),
      .node "remaining_field_pattern" (lit ".."),
      .node "const_block" (.seq [lit "const", .call .block]),
      .seq [optional (lit "-"), literal],
      .call .macroInvocation,
      .node "captured_pattern" (.seq [identifier, lit "@", .call .plainPattern]),
      .node "tuple_struct_pattern"
        (.seq [.field "type" (.call .path), parens (listed (.call .pattern))]),
      .node "struct_pattern"
        (.seq [.field "type" (.call .structName), braces (listed entry)]),
      .seq [.node "wildcard" (lit "_")],
      .call .path]
  | .expression s =>
    .seq [.call (.operand s), .many (.alt [
      .call (.upTo s),
      .seq [lit "as", .call .plainType],
      .seq [operator, .call (.operand s)]])]
  | .upTo s =>
    let bound : Rule Part := .call (.operand s)
    .seq [.lexeme rangeMarks, optional (if s then bound else .seq [.unless (lit "\x7b"), bound])]
  | .operand s =>
    let prefixed : Rule Part :=
      .alt [.lexeme ["-", "*", "!"],
        .seq [lit "&", optional (.seq [lit "raw", .ahead (.lexeme ["const", "mut"])]),
          optional (.lexeme ["mut", "const"])]]
    .seq [.many prefixed, .alt [
      .node "let_condition"
        (.seq [lit "let", .field "pattern" (.call .pattern), lit "=",
          .field "value" (.call (.operand s))]),
      .call (.upTo s),
      .call (.suffixed s)]]
  | .suffixed s =>
    .chain (.call (.primary s)) [
      ("await_expression", "value", .seq [lit ".", lit "await"]),
      ("field_expression", "value",
        .seq [lit ".",
          .field "field" (.alt [fieldIdentifier, .node "integer_literal" (.kind .number)])]),
      ("generic_function", "function", .seq [lit "::", .call .typeArguments]),
      ("call_expression", "function", .field "arguments" (.call .arguments)),
      ("index_expression", "value", .seq [lit "[", .call (.expression true), lit "]"]),
      ("try_expression", "value", lit "?")]
  | .primary s =>
    let value : Rule Part := optional (.call (.expression s))
    let inside : Rule Part := .call (.expression true)
    .alt ([
      literal,
      .call .blockLike,
      .call (.closure s),
      .node "return_expression" (.seq [.lexeme ["return", "yield"], value]),
      .node "break_expression"
        (.seq [lit "break", optional (.call .label),
          if s then value else optional (.seq [.unless (lit "\x7b"), inside])]),
      .node "continue_expression" (.seq [lit "continue", optional (.call .label)]),
      .node "parenthesized_expression" (parens (listed (.seq [attributes, inside]))),
      .node "array_expression"
        (.seq [lit "[", attributes,
          .alt [.seq [inside, lit ";", inside], listed (.seq [attributes, inside])], lit "]"]),
      .call .macroInvocation] ++
      (if s then
        [.node "struct_expression"
          (.seq [nameOf (.call .structName), .field "body" (.call .initializers)])]
      else []) ++ [.call .path])
  | .blockLike =>
    let condition : Rule Part := .field "condition" (.call (.expression false))
    let body : Rule Part := .field "body" (.call .block)
    let ifExpression : Rule Part := .alt [.call .blockLike, .call .block]
    let labeled : Rule Part := optional (.seq [.call .label, lit ":"])
    .alt [
      .node "if_expression"
        (.seq [lit "if", condition, .field "consequence" (.call .block),
          optional (.node "else_clause" (.seq [lit "else", ifExpression]))]),
      .node "match_expression"
        (.seq [lit "match", .field "value" (.call (.expression false)),
          .field "body" (.node "match_block" (braces (.many (.call .matchArm))))]),
      .node "while_expression" (.seq [labeled, lit "while", condition, body]),
      .node "loop_expression" (.seq [labeled, lit "loop", body]),
      .node "for_expression"
        (.seq [labeled, lit "for", .field "pattern" (.call .pattern), lit "in",
          .field "value" (.call (.expression false)), body]),
      .node "unsafe_block" (.seq [.lexeme ["unsafe", "const", "try"], .call .block]),
      .node "async_block"
        (.seq [.lexeme ["async", "gen"], optional (lit "move"), .call .block]),
      .node "block" (.seq [.call .label, lit ":",
        braces (.many (.alt [.call .statement, .seq [.unless (lit "\x7d"), error]]))]),
      .call .block]
  | .closure s =>
    .node "closure_expression"
      (.seq [optional (lit "static"), optional (lit "async"), optional (lit "move"),
        .field "parameters" (.node "closure_parameters"
          (.seq [lit "|",
            listed (.seq [attributes, .alt [
              .node "parameter"
                (.seq [optional (lit "mut"), .field "pattern" (.call .plainPattern), lit ":",
                  .field "type" (.call .plainType)]),
              .call .plainPattern]]),
            lit "|"])),
        .alt [
          .seq [lit "->", .field "return_type" (.call .plainType), .field "body" (.call .block)],
          .field "body" (.call (.expression s))]])
  | .matchArm =>
    let goesOn : Rule Part := .lexeme [".", "?"]
    .seq [attributes,
      .node "match_arm"
        (.seq [.field "pattern" (.node "match_pattern"
            (.seq [.call .pattern, optional (.seq [lit "if", .call (.expression true)])])),
          lit "=>",
          .alt [.seq [.field "value" (.call .blockLike), .unless goesOn, optional (lit ",")],
            .seq [.field "value" (.call (.expression true)), optional (lit ",")]]])]
  | .arguments =>
    .node "arguments" (parens (listed (.seq [attributes, .call (.expression true)])))
  | .structName =>
    .alt [
      .node "generic_type"
        (.seq [.field "type" (.alt [
            .node "scoped_type_identifier"
              (.seq [.field "path" (.call .pathStem), lit "::", nameOf typeIdentifier]),
            typeIdentifier]),
          lit "::", .call .typeArguments, .ahead (lit "\x7b")]),
      .node "scoped_type_identifier"
        (.seq [.field "path" (.call .pathStem), lit "::", nameOf typeIdentifier]),
      .node "scoped_type_identifier" (.seq [lit "::", nameOf typeIdentifier]),
      typeIdentifier]
  | .initializers =>
    let one : Rule Part :=
      .alt [
        .node "base_field_initializer" (.seq [lit "..", optional (.call (.expression true))]),
        .node "field_initializer"
          (.seq [.field "field" (.alt [fieldIdentifier, .kind .number]), lit ":",
            .field "value" (.call (.expression true))]),
        .node "shorthand_field_initializer" identifier]
    .node "field_initializer_list" (braces (listed (.seq [attributes, one])))

/-- The grammar of Rust. -/
def grammar : Grammar Part := ⟨rule, .file⟩

end SourceAtlas.Rust
