import SourceAtlas.Outline.Patterns
import SourceAtlas.Scope.Kind

/-!
# What opens scopes, binds names and uses names

For each language the patterns of its scopes, bindings and uses. A scope is captured as `scope.` and
a binding as `definition.` with its kind; a use is captured as `reference`. The bound or used name
is captured as `name`, a member as `member`, a declared type as `type` and what is imported as
`path`.

* **`Language.bindings`**;
* `Role`, `Role.ofCapture`: what a capture says.
-/

namespace SourceAtlas

open Pattern

/-- A scope. -/
def opening (label kind : String) : Pattern := leaf label ("scope." ++ kind)

/-- A use of a member of a name. -/
def memberUse (label place memberPlace memberLabel : String) : Pattern :=
  captured label "reference"
    [nameIn place "identifier", (leaf memberLabel "member").within memberPlace]

/-- A binding of a name that stands in a place of a child. -/
def boundInside (label place child kind : String) : Pattern :=
  captured label ("definition." ++ kind) [(holding child [leaf "identifier" "name"]).within place]

/-- The scopes, bindings and uses of a language. -/
def Language.bindings : Language → List Pattern
  | .go =>
    [opening "function_declaration" "function", opening "method_declaration" "function",
      opening "func_literal" "function", opening "block" "block", opening "if_statement" "block",
      opening "for_statement" "block", opening "expression_switch_statement" "block",
      opening "type_switch_statement" "block",
      definedBy "function_declaration" "identifier" "function",
      definedBy "method_declaration" "field_identifier" "method",
      captured "parameter_declaration" "definition.param"
        [nameIn "name" "identifier", (anything "type").within "type"],
      definedBy "variadic_parameter_declaration" "identifier" "param",
      definedBy "type_spec" "type_identifier" "type",
      captured "type_spec" "definition.interface"
        [nameIn "name" "type_identifier", (holding "interface_type" []).within "type"],
      captured "type_spec" "definition.class"
        [nameIn "name" "type_identifier", (holding "struct_type" []).within "type"],
      definedBy "var_spec" "identifier" "variable",
      definedBy "const_spec" "identifier" "constant",
      boundInside "short_var_declaration" "left" "expression_list" "variable",
      boundInside "range_clause" "left" "expression_list" "variable",
      captured "import_spec" "definition.import"
        [(nameIn "name" "package_identifier").maybe, (anything "path").within "path"],
      memberUse "selector_expression" "operand" "field" "field_identifier",
      leaf "identifier" "reference", leaf "type_identifier" "reference"]
  | .python =>
    [opening "function_definition" "function", opening "lambda" "function",
      opening "class_definition" "class",
      definedBy "function_definition" "identifier" "function",
      definedBy "class_definition" "identifier" "class",
      captured "parameters" "definition.param" [leaf "identifier" "name"],
      definedBy "default_parameter" "identifier" "param",
      captured "typed_parameter" "definition.param"
        [leaf "identifier" "name", (anything "type").within "type"],
      captured "typed_default_parameter" "definition.param"
        [nameIn "name" "identifier", (anything "type").within "type"],
      captured "assignment" "definition.variable"
        [nameIn "left" "identifier", ((anything "type").within "type").maybe],
      captured "for_statement" "definition.variable" [nameIn "left" "identifier"],
      captured "import_statement" "definition.import"
        [(leaf "dotted_name" "path").within "name"],
      captured "import_statement" "definition.import"
        [(holding "aliased_import"
          [(leaf "dotted_name" "path").within "name", nameIn "alias" "identifier"]).within "name"],
      captured "import_from_statement" "definition.import"
        [(leaf "dotted_name" "path").within "module_name", nameIn "name" "dotted_name"],
      memberUse "attribute" "object" "attribute" "identifier",
      leaf "identifier" "reference"]
  | .rust =>
    [opening "function_item" "function", opening "closure_expression" "function",
      opening "block" "block", opening "impl_item" "class", opening "trait_item" "class",
      opening "mod_item" "module",
      definedBy "function_item" "identifier" "function",
      definedBy "struct_item" "type_identifier" "class",
      definedBy "enum_item" "type_identifier" "type",
      definedBy "type_item" "type_identifier" "type",
      definedBy "trait_item" "type_identifier" "interface",
      definedBy "const_item" "identifier" "constant",
      definedBy "static_item" "identifier" "variable",
      captured "parameter" "definition.param"
        [nameIn "pattern" "identifier", (anything "type").within "type"],
      captured "closure_parameters" "definition.param" [leaf "identifier" "name"],
      captured "let_declaration" "definition.variable" [nameIn "pattern" "identifier"],
      captured "use_declaration" "definition.import"
        [(captured "scoped_identifier" "path" [nameIn "name" "identifier"]).within "argument"],
      captured "use_declaration" "definition.import" [nameIn "argument" "identifier"],
      captured "use_as_clause" "definition.import"
        [(anything "path").within "path", nameIn "alias" "identifier"],
      memberUse "scoped_identifier" "path" "name" "identifier",
      memberUse "field_expression" "value" "field" "field_identifier",
      leaf "identifier" "reference", leaf "type_identifier" "reference"]
  | .csharp => []

/-- What a capture says about its node. -/
inductive Role where
  | scope (kind : ScopeKind)
  | definition (kind : DefinitionKind)
  | reference
  | name
  | member
  | type
  | path
  | ignored
deriving DecidableEq, Repr

/-- What a capture of this name says. -/
def Role.ofCapture (capture : String) : Role :=
  match capture with
  | "reference" => .reference
  | "name" => .name
  | "member" => .member
  | "type" => .type
  | "path" => .path
  | _ =>
    match ScopeKind.ofCapture? capture, DefinitionKind.ofCapture? capture with
    | some k, _ => .scope k
    | none, some k => .definition k
    | none, none => .ignored

end SourceAtlas
