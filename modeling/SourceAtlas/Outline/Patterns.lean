import SourceAtlas.Language
import SourceAtlas.Syntax.Pattern

/-!
# What counts as a definition, a use and an import

For each language the patterns of its definitions and uses (`Language.tags`) and of its imports
(`Language.imports`). The name of a definition or use is captured as `name`; the definition itself
as `definition.` and the use as `reference.` with what it is.
-/

namespace SourceAtlas

open Pattern

/-- A name with this label in the named place. -/
def nameIn (field label : String) : Pattern := (leaf label "name").within field

/-- A definition that has its name in the place `name`. -/
def definedBy (label nameLabel kind : String) : Pattern :=
  captured label ("definition." ++ kind) [nameIn "name" nameLabel]

/-- A use of the name in a place of a node. -/
def usedIn (label place nameLabel kind : String) : Pattern :=
  captured label ("reference." ++ kind) [nameIn place nameLabel]

/-- A use of the name in a member that stands in a place of a node. -/
def usedMember (label place member memberPlace nameLabel kind : String) : Pattern :=
  captured label ("reference." ++ kind)
    [(holding member [nameIn memberPlace nameLabel]).within place]

namespace Language

/-- The definitions and uses of a language. -/
def tags : Language → List Pattern
  | .go =>
    [definedBy "function_declaration" "identifier" "function",
      definedBy "method_declaration" "field_identifier" "method",
      definedBy "type_spec" "type_identifier" "type",
      usedIn "call_expression" "function" "identifier" "call",
      usedMember "call_expression" "function" "selector_expression" "field" "field_identifier"
        "call",
      usedIn "composite_literal" "type" "type_identifier" "class"]
  | .rust =>
    [definedBy "struct_item" "type_identifier" "class",
      definedBy "enum_item" "type_identifier" "class",
      definedBy "union_item" "type_identifier" "class",
      definedBy "type_item" "type_identifier" "class",
      definedBy "trait_item" "type_identifier" "interface",
      definedBy "mod_item" "identifier" "module",
      definedBy "macro_definition" "identifier" "macro",
      holding "impl_item"
        [(holding "declaration_list" [definedBy "function_item" "identifier" "method"]).within
          "body"],
      definedBy "function_item" "identifier" "function",
      usedIn "call_expression" "function" "identifier" "call",
      usedMember "call_expression" "function" "field_expression" "field" "field_identifier" "call",
      usedMember "call_expression" "function" "scoped_identifier" "name" "identifier" "call",
      usedIn "macro_invocation" "macro" "identifier" "call",
      usedIn "struct_expression" "name" "type_identifier" "class"]
  | .python =>
    let method := definedBy "function_definition" "identifier" "method"
    [definedBy "class_definition" "identifier" "class",
      holding "class_definition" [(holding "block" [method]).within "body"],
      holding "class_definition"
        [(holding "block" [holding "decorated_definition" [method.within "definition"]]).within
          "body"],
      definedBy "function_definition" "identifier" "function",
      usedIn "call" "function" "identifier" "call",
      usedMember "call" "function" "attribute" "attribute" "identifier" "call"]
  | .csharp =>
    [definedBy "class_declaration" "identifier" "class",
      definedBy "struct_declaration" "identifier" "class",
      definedBy "interface_declaration" "identifier" "interface",
      definedBy "enum_declaration" "identifier" "enum",
      definedBy "method_declaration" "identifier" "method",
      definedBy "constructor_declaration" "identifier" "constructor",
      usedIn "invocation_expression" "function" "identifier" "call",
      usedMember "invocation_expression" "function" "member_access_expression" "name" "identifier"
        "call",
      usedIn "object_creation_expression" "type" "identifier" "class"]

/-- The imports of a language. -/
def imports : Language → List Pattern
  | .go => [holding "import_spec" [(anything "import").within "path"]]
  | .rust => [holding "use_declaration" [(anything "import").within "argument"]]
  | .python =>
    [holding "import_statement" [(leaf "dotted_name" "import").within "name"],
      holding "import_statement"
        [(holding "aliased_import" [(leaf "dotted_name" "import").within "name"]).within "name"],
      holding "import_from_statement" [(anything "import").within "module_name"]]
  | .csharp =>
    [holding "using_directive" [leaf "qualified_name" "import"],
      holding "using_directive" [leaf "identifier" "import"]]

/-- The nodes whose name or type a method of the language belongs to, and the place of that name. -/
def owners : Language → List String × String
  | .go => ([], "")
  | .rust => (["impl_item"], "type")
  | .python => (["class_definition"], "name")
  | .csharp =>
    (["class_declaration", "struct_declaration", "interface_declaration", "record_declaration"],
      "name")

end Language

end SourceAtlas
