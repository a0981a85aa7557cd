import TestConversion.Java.Lexeme

/-!
# The grammar of Java

The rules of compilation units down to types. It is wider than the language: a text may hold
statements and methods at its top level, and a word that is no keyword where it stands is read as
an identifier.
-/

namespace TestConversion.Java

open Syntax
open Syntax.Rule (seqs choices optional many many1 sepBy1 commas commas1 field relabel level weight sym)

/-- Binding levels, from loose to tight. -/
inductive Binding where
  | assignment | declaration | elementValue | ternary | or | and | bitOr | bitXor | bitAnd
  | equality | generic | relation | shift | sum | product | cast | creation | unary
  | classLiteral

def Binding.value : Binding → Int
  | .assignment => 1
  | .declaration => 2
  | .elementValue => 2
  | .ternary => 3
  | .or => 4
  | .and => 5
  | .bitOr => 6
  | .bitXor => 7
  | .bitAnd => 8
  | .equality => 9
  | .generic => 10
  | .relation => 10
  | .shift => 11
  | .sum => 12
  | .product => 13
  | .cast => 14
  | .creation => 14
  | .unary => 15
  | .classLiteral => 17

private def binds (b : Binding) (r : Rule) : Rule := level none b.value r

private def leftward (b : Binding) (r : Rule) : Rule := level (some .left) b.value r

private def rightward (b : Binding) (r : Rule) : Rule := level (some .right) b.value r

/-- Groups to the right at the level of rules without one. -/
private def rightmost (r : Rule) : Rule := level (some .right) 0 r

/-- An identifier or one of the words that are keywords in some places only. -/
private def name : Rule := .choice (sym "identifier") (sym "_reserved_identifier")

private def typeName : Rule := relabel "type_identifier" (sym "identifier")

private def annotations : Rule := many (sym "_annotation")

private def modifiers : Rule := optional (sym "modifiers")

/-! ## Literals -/

private def literals : List (String × Rule) := [
  ("program", many (sym "_toplevel_statement")),
  ("_toplevel_statement", .choice (sym "statement") (sym "method_declaration")),
  ("_literal", choices [
    sym "decimal_integer_literal", sym "hex_integer_literal", sym "octal_integer_literal",
    sym "binary_integer_literal", sym "decimal_floating_point_literal",
    sym "hex_floating_point_literal", sym "true", sym "false", sym "character_literal",
    sym "string_literal", sym "null_literal"]),
  ("string_literal", .choice (sym "_string_literal") (sym "_multiline_string_literal")),
  ("_string_literal", seqs [
    "\"",
    many (choices [sym "string_fragment", sym "escape_sequence", sym "string_interpolation"]),
    "\""]),
  ("_multiline_string_literal", seqs [
    "\"\"\"",
    many (choices [
      relabel "multiline_string_fragment" (sym "_multiline_string_fragment"),
      sym "_escape_sequence", sym "string_interpolation"]),
    "\"\"\""]),
  ("string_interpolation", seqs ["\\\x7b", sym "expression", "\x7d"]),
  ("_multiline_string_fragment", .choice (sym "_text_block_run") (sym "_text_block_quote")),
  ("_escape_sequence", .choice
    (level none 2 (sym "_text_block_escape"))
    (level none 1 (sym "escape_sequence")))]

/-! ## Expressions -/

private def binaryOperators : List (String × Binding) := [
  (">", .relation), ("<", .relation), (">=", .relation), ("<=", .relation),
  ("==", .equality), ("!=", .equality), ("&&", .and), ("||", .or), ("+", .sum), ("-", .sum),
  ("*", .product), ("/", .product), ("&", .bitAnd), ("|", .bitOr), ("^", .bitXor),
  ("%", .product), ("<<", .shift), (">>", .shift), (">>>", .shift)]

private def assignmentOperators : List String :=
  ["=", "+=", "-=", "*=", "/=", "&=", "|=", "^=", "%=", "<<=", ">>=", ">>>="]

private def expressions : List (String × Rule) := [
  ("expression", choices [
    sym "assignment_expression", sym "binary_expression", sym "instanceof_expression",
    sym "lambda_expression", sym "ternary_expression", sym "update_expression",
    sym "primary_expression", sym "unary_expression", sym "cast_expression",
    sym "switch_expression"]),
  ("cast_expression", binds .cast (.choice
    (seqs ["(", field "type" (sym "_type"), ")", field "value" (sym "expression")])
    (seqs ["(", sepBy1 (field "type" (sym "_type")) "&", ")",
      field "value" (.choice (sym "primary_expression") (sym "lambda_expression"))]))),
  ("assignment_expression", rightward .assignment (seqs [
    field "left" (choices [sym "identifier", sym "_reserved_identifier", sym "field_access",
      sym "array_access"]),
    field "operator" (choices (assignmentOperators.map Rule.token)),
    field "right" (sym "expression")])),
  ("binary_expression", choices (binaryOperators.map fun o =>
    leftward o.2 (seqs [field "left" (sym "expression"), field "operator" (.token o.1),
      field "right" (sym "expression")]))),
  ("instanceof_expression", binds .relation (seqs [
    field "left" (sym "expression"), "instanceof", optional "final",
    .choice
      (.seq (field "right" (sym "_type")) (optional (field "name" name)))
      (field "pattern" (sym "record_pattern"))])),
  ("lambda_expression", seqs [
    field "parameters" (choices [sym "identifier", sym "_reserved_identifier",
      sym "formal_parameters", sym "inferred_parameters"]),
    "->",
    field "body" (.choice (sym "expression") (sym "block"))]),
  ("inferred_parameters", seqs ["(", commas1 name, ")"]),
  ("ternary_expression", rightward .ternary (seqs [
    field "condition" (sym "expression"), "?", field "consequence" (sym "expression"), ":",
    field "alternative" (sym "expression")])),
  ("unary_expression", choices (["+", "-", "!", "~"].map fun o =>
    leftward .unary (.seq (field "operator" (.token o)) (field "operand" (sym "expression"))))),
  ("update_expression", leftward .unary (choices [
    .seq (sym "expression") "++", .seq (sym "expression") "--",
    .seq "++" (sym "expression"), .seq "--" (sym "expression")])),
  ("primary_expression", choices [
    sym "_literal", sym "class_literal", sym "this", sym "identifier",
    sym "_reserved_identifier", sym "parenthesized_expression",
    sym "object_creation_expression", sym "field_access", sym "array_access",
    sym "method_invocation", sym "method_reference", sym "array_creation_expression",
    sym "template_expression"]),
  ("array_creation_expression", rightmost (seqs [
    "new", annotations, field "type" (sym "_simple_type"),
    .choice
      (.seq (field "dimensions" (many1 (sym "dimensions_expr")))
        (field "dimensions" (optional (sym "dimensions"))))
      (.seq (field "dimensions" (sym "dimensions")) (field "value" (sym "array_initializer")))])),
  ("dimensions_expr", seqs [annotations, "[", sym "expression", "]"]),
  ("parenthesized_expression", seqs ["(", sym "expression", ")"]),
  ("class_literal", weight 17 (seqs [sym "_unannotated_type", ".", "class"])),
  ("object_creation_expression", .choice
    (sym "_unqualified_object_creation_expression")
    (seqs [sym "primary_expression", ".", sym "_unqualified_object_creation_expression"])),
  ("_unqualified_object_creation_expression", rightmost (seqs [
    "new",
    .choice
      (seqs [annotations, field "type_arguments" (sym "type_arguments"), annotations])
      annotations,
    field "type" (sym "_simple_type"), field "arguments" (sym "argument_list"),
    optional (sym "class_body")])),
  ("field_access", seqs [
    field "object" (.choice (sym "primary_expression") (sym "super")),
    optional (.seq "." (sym "super")),
    ".",
    field "field" (choices [sym "identifier", sym "_reserved_identifier", sym "this"])]),
  ("template_expression", seqs [
    field "template_processor" (sym "primary_expression"), ".",
    field "template_argument" (sym "string_literal")]),
  ("array_access", seqs [
    field "array" (sym "primary_expression"), "[", field "index" (sym "expression"), "]"]),
  ("method_invocation", .seq
    (.choice
      (field "name" name)
      (seqs [
        field "object" (.choice (sym "primary_expression") (sym "super")), ".",
        optional (.seq (sym "super") "."),
        field "type_arguments" (optional (sym "type_arguments")),
        field "name" name]))
    (field "arguments" (sym "argument_list"))),
  ("argument_list", seqs ["(", commas (sym "expression"), ")"]),
  ("method_reference", seqs [
    choices [sym "_type", sym "primary_expression", sym "super"], "::",
    optional (sym "type_arguments"), .choice "new" (sym "identifier")]),
  ("type_arguments", seqs ["<", commas (.choice (sym "_type") (sym "wildcard")), ">"]),
  ("wildcard", seqs [annotations, "?", optional (sym "_wildcard_bounds")]),
  ("_wildcard_bounds", .choice
    (.seq "extends" (sym "_type"))
    (.seq (sym "super") (sym "_type"))),
  ("dimensions", rightmost (many1 (seqs [annotations, "[", "]"]))),
  ("switch_expression", seqs [
    "switch", field "condition" (sym "parenthesized_expression"),
    field "body" (sym "switch_block")]),
  ("switch_block", seqs [
    "\x7b",
    .choice (many (sym "switch_block_statement_group")) (many (sym "switch_rule")),
    "\x7d"]),
  ("switch_block_statement_group", level (some .left) 0 (.seq
    (many1 (.seq (sym "switch_label") ":"))
    (many (sym "statement")))),
  ("switch_rule", seqs [
    sym "switch_label", "->",
    choices [sym "expression_statement", sym "throw_statement", sym "block"]]),
  ("switch_label", .choice
    (seqs ["case", .choice (sym "pattern") (commas1 (sym "expression")), optional (sym "guard")])
    "default"),
  ("pattern", .choice (sym "type_pattern") (sym "record_pattern")),
  ("type_pattern", .seq (sym "_unannotated_type") name),
  ("record_pattern", .seq
    (choices [sym "identifier", sym "_reserved_identifier", sym "generic_type"])
    (sym "record_pattern_body")),
  ("record_pattern_body", seqs [
    "(", commas (.choice (sym "record_pattern_component") (sym "record_pattern")), ")"]),
  ("record_pattern_component", .choice
    (sym "underscore_pattern")
    (.seq (sym "_unannotated_type") name)),
  ("guard", .seq "when" (sym "expression"))]

/-! ## Statements -/

private def statements : List (String × Rule) := [
  ("statement", choices [
    sym "declaration", sym "expression_statement", sym "labeled_statement", sym "if_statement",
    sym "while_statement", sym "for_statement", sym "enhanced_for_statement", sym "block", ";",
    sym "assert_statement", sym "do_statement", sym "break_statement", sym "continue_statement",
    sym "return_statement", sym "yield_statement", sym "switch_expression",
    sym "synchronized_statement", sym "local_variable_declaration", sym "throw_statement",
    sym "try_statement", sym "try_with_resources_statement"]),
  ("block", seqs ["\x7b", many (sym "statement"), "\x7d"]),
  ("expression_statement", .seq (sym "expression") ";"),
  ("labeled_statement", seqs [sym "identifier", ":", sym "statement"]),
  ("assert_statement", .choice
    (seqs ["assert", sym "expression", ";"])
    (seqs ["assert", sym "expression", ":", sym "expression", ";"])),
  ("do_statement", seqs [
    "do", field "body" (sym "statement"), "while",
    field "condition" (sym "parenthesized_expression"), ";"]),
  ("break_statement", seqs ["break", optional (sym "identifier"), ";"]),
  ("continue_statement", seqs ["continue", optional (sym "identifier"), ";"]),
  ("return_statement", seqs ["return", optional (sym "expression"), ";"]),
  ("yield_statement", seqs ["yield", sym "expression", ";"]),
  ("synchronized_statement", seqs [
    "synchronized", sym "parenthesized_expression", field "body" (sym "block")]),
  ("throw_statement", seqs ["throw", sym "expression", ";"]),
  ("try_statement", seqs [
    "try", field "body" (sym "block"),
    .choice
      (many1 (sym "catch_clause"))
      (.seq (many (sym "catch_clause")) (sym "finally_clause"))]),
  ("catch_clause", seqs [
    "catch", "(", sym "catch_formal_parameter", ")", field "body" (sym "block")]),
  ("catch_formal_parameter", seqs [modifiers, sym "catch_type", sym "_variable_declarator_id"]),
  ("catch_type", sepBy1 (sym "_unannotated_type") "|"),
  ("finally_clause", .seq "finally" (sym "block")),
  ("try_with_resources_statement", seqs [
    "try", field "resources" (sym "resource_specification"), field "body" (sym "block"),
    many (sym "catch_clause"), optional (sym "finally_clause")]),
  ("resource_specification", seqs ["(", sepBy1 (sym "resource") ";", optional ";", ")"]),
  ("resource", choices [
    seqs [modifiers, field "type" (sym "_unannotated_type"), sym "_variable_declarator_id", "=",
      field "value" (sym "expression")],
    sym "identifier", sym "field_access"]),
  ("if_statement", rightmost (seqs [
    "if", field "condition" (sym "parenthesized_expression"),
    field "consequence" (sym "statement"),
    optional (.seq "else" (field "alternative" (sym "statement")))])),
  ("while_statement", seqs [
    "while", field "condition" (sym "parenthesized_expression"),
    field "body" (sym "statement")]),
  ("for_statement", seqs [
    "for", "(",
    .choice
      (field "init" (sym "local_variable_declaration"))
      (.seq (commas (field "init" (sym "expression"))) ";"),
    field "condition" (optional (sym "expression")), ";",
    commas (field "update" (sym "expression")), ")",
    field "body" (sym "statement")]),
  ("enhanced_for_statement", seqs [
    "for", "(", modifiers, field "type" (sym "_unannotated_type"),
    sym "_variable_declarator_id", ":", field "value" (sym "expression"), ")",
    field "body" (sym "statement")])]

/-! ## Annotations and declarations -/

private def modifierWords : List String :=
  ["public", "protected", "private", "abstract", "static", "final", "strictfp", "default",
    "synchronized", "native", "transient", "volatile", "sealed", "non-sealed"]

private def members : List Rule := [
  sym "field_declaration", sym "record_declaration", sym "method_declaration",
  sym "compact_constructor_declaration", sym "class_declaration", sym "interface_declaration",
  sym "annotation_type_declaration", sym "enum_declaration", sym "block",
  sym "static_initializer", sym "constructor_declaration", ";"]

private def exporting (word : String) : Rule :=
  seqs [
    .token word, field "package" (sym "_name"),
    optional (seqs ["to", field "modules" (sym "_name"),
      many (.seq "," (field "modules" (sym "_name")))]),
    ";"]

private def declarations : List (String × Rule) := [
  ("_annotation", .choice (sym "marker_annotation") (sym "annotation")),
  ("marker_annotation", .seq "@" (field "name" (sym "_name"))),
  ("annotation", seqs [
    "@", field "name" (sym "_name"), field "arguments" (sym "annotation_argument_list")]),
  ("annotation_argument_list", seqs [
    "(", .choice (sym "_element_value") (commas (sym "element_value_pair")), ")"]),
  ("element_value_pair", seqs [
    field "key" name, "=", field "value" (sym "_element_value")]),
  ("_element_value", binds .elementValue (choices [
    sym "expression", sym "element_value_array_initializer", sym "_annotation"])),
  ("element_value_array_initializer", seqs [
    "\x7b", commas (sym "_element_value"), optional ",", "\x7d"]),
  ("declaration", binds .declaration (choices [
    sym "module_declaration", sym "package_declaration", sym "import_declaration",
    sym "class_declaration", sym "record_declaration", sym "interface_declaration",
    sym "annotation_type_declaration", sym "enum_declaration"])),
  ("module_declaration", seqs [
    annotations, optional "open", "module", field "name" (sym "_name"),
    field "body" (sym "module_body")]),
  ("module_body", seqs ["\x7b", many (sym "module_directive"), "\x7d"]),
  ("module_directive", choices [
    sym "requires_module_directive", sym "exports_module_directive",
    sym "opens_module_directive", sym "uses_module_directive",
    sym "provides_module_directive"]),
  ("requires_module_directive", seqs [
    "requires", many (field "modifiers" (sym "requires_modifier")),
    field "module" (sym "_name"), ";"]),
  ("requires_modifier", .choice "transitive" "static"),
  ("exports_module_directive", exporting "exports"),
  ("opens_module_directive", exporting "opens"),
  ("uses_module_directive", seqs ["uses", field "type" (sym "_name"), ";"]),
  ("provides_module_directive", seqs [
    "provides", field "provided" (sym "_name"), "with", sym "_name",
    many (.seq "," (field "provider" (sym "_name"))), ";"]),
  ("package_declaration", seqs [annotations, "package", sym "_name", ";"]),
  ("import_declaration", seqs [
    "import", optional "static", sym "_name", optional (.seq "." (sym "asterisk")), ";"]),
  ("asterisk", "*"),
  ("enum_declaration", seqs [
    modifiers, "enum", field "name" (sym "identifier"),
    field "interfaces" (optional (sym "super_interfaces")), field "body" (sym "enum_body")]),
  ("enum_body", seqs [
    "\x7b", commas (sym "enum_constant"), optional ",", optional (sym "enum_body_declarations"),
    "\x7d"]),
  ("enum_body_declarations", .seq ";" (many (sym "_class_body_declaration"))),
  ("enum_constant", seqs [
    modifiers, field "name" (sym "identifier"),
    field "arguments" (optional (sym "argument_list")),
    field "body" (optional (sym "class_body"))]),
  ("class_declaration", seqs [
    modifiers, "class", field "name" (sym "identifier"),
    optional (field "type_parameters" (sym "type_parameters")),
    optional (field "superclass" (sym "superclass")),
    optional (field "interfaces" (sym "super_interfaces")),
    optional (field "permits" (sym "permits")),
    field "body" (sym "class_body")]),
  ("modifiers", many1 (choices (sym "_annotation" :: modifierWords.map Rule.token))),
  ("type_parameters", seqs ["<", commas1 (sym "type_parameter"), ">"]),
  ("type_parameter", seqs [annotations, typeName, optional (sym "type_bound")]),
  ("type_bound", seqs ["extends", sym "_type", many (.seq "&" (sym "_type"))]),
  ("superclass", .seq "extends" (sym "_type")),
  ("super_interfaces", .seq "implements" (sym "type_list")),
  ("type_list", sepBy1 (sym "_type") ","),
  ("permits", .seq "permits" (sym "type_list")),
  ("class_body", seqs ["\x7b", many (sym "_class_body_declaration"), "\x7d"]),
  ("_class_body_declaration", choices members),
  ("static_initializer", .seq "static" (sym "block")),
  ("constructor_declaration", seqs [
    modifiers, sym "_constructor_declarator", optional (sym "throws"),
    field "body" (sym "constructor_body")]),
  ("_constructor_declarator", seqs [
    field "type_parameters" (optional (sym "type_parameters")),
    field "name" (sym "identifier"), field "parameters" (sym "formal_parameters")]),
  ("constructor_body", seqs [
    "\x7b", optional (sym "explicit_constructor_invocation"), many (sym "statement"), "\x7d"]),
  ("explicit_constructor_invocation", seqs [
    .choice
      (.seq
        (field "type_arguments" (optional (sym "type_arguments")))
        (field "constructor" (.choice (sym "this") (sym "super"))))
      (seqs [
        field "object" (sym "primary_expression"), ".",
        field "type_arguments" (optional (sym "type_arguments")),
        field "constructor" (sym "super")]),
    field "arguments" (sym "argument_list"), ";"]),
  ("_name", choices [sym "identifier", sym "_reserved_identifier", sym "scoped_identifier"]),
  ("scoped_identifier", seqs [
    field "scope" (sym "_name"), ".", field "name" (sym "identifier")]),
  ("field_declaration", seqs [
    modifiers, field "type" (sym "_unannotated_type"), sym "_variable_declarator_list", ";"]),
  ("record_declaration", seqs [
    modifiers, "record", field "name" (sym "identifier"),
    optional (field "type_parameters" (sym "type_parameters")),
    field "parameters" (sym "formal_parameters"),
    optional (field "interfaces" (sym "super_interfaces")),
    field "body" (sym "class_body")]),
  ("annotation_type_declaration", seqs [
    modifiers, "@interface", field "name" (sym "identifier"),
    field "body" (sym "annotation_type_body")]),
  ("annotation_type_body", seqs [
    "\x7b",
    many (choices [
      sym "annotation_type_element_declaration", sym "constant_declaration",
      sym "class_declaration", sym "interface_declaration", sym "enum_declaration",
      sym "annotation_type_declaration", ";"]),
    "\x7d"]),
  ("annotation_type_element_declaration", seqs [
    modifiers, field "type" (sym "_unannotated_type"), field "name" name, "(", ")",
    field "dimensions" (optional (sym "dimensions")), optional (sym "_default_value"), ";"]),
  ("_default_value", .seq "default" (field "value" (sym "_element_value"))),
  ("interface_declaration", seqs [
    modifiers, "interface", field "name" (sym "identifier"),
    field "type_parameters" (optional (sym "type_parameters")),
    optional (sym "extends_interfaces"), optional (field "permits" (sym "permits")),
    field "body" (sym "interface_body")]),
  ("extends_interfaces", .seq "extends" (sym "type_list")),
  ("interface_body", seqs [
    "\x7b",
    many (choices [
      sym "constant_declaration", sym "enum_declaration", sym "method_declaration",
      sym "class_declaration", sym "interface_declaration", sym "record_declaration",
      sym "annotation_type_declaration", ";"]),
    "\x7d"]),
  ("constant_declaration", seqs [
    modifiers, field "type" (sym "_unannotated_type"), sym "_variable_declarator_list", ";"]),
  ("_variable_declarator_list", commas1 (field "declarator" (sym "variable_declarator"))),
  ("variable_declarator", .seq
    (sym "_variable_declarator_id")
    (optional (.seq "=" (field "value" (sym "_variable_initializer"))))),
  ("_variable_declarator_id", .seq
    (field "name" (choices [sym "identifier", sym "_reserved_identifier",
      sym "underscore_pattern"]))
    (field "dimensions" (optional (sym "dimensions")))),
  ("_variable_initializer", .choice (sym "expression") (sym "array_initializer")),
  ("array_initializer", seqs [
    "\x7b", commas (sym "_variable_initializer"), optional ",", "\x7d"])]

/-! ## Types and members -/

private def typesAndMembers : List (String × Rule) := [
  ("_type", .choice (sym "_unannotated_type") (sym "annotated_type")),
  ("_unannotated_type", .choice (sym "_simple_type") (sym "array_type")),
  ("_simple_type", choices [
    sym "void_type", sym "integral_type", sym "floating_point_type", sym "boolean_type",
    typeName, sym "scoped_type_identifier", sym "generic_type"]),
  ("annotated_type", .seq (many1 (sym "_annotation")) (sym "_unannotated_type")),
  ("scoped_type_identifier", seqs [
    choices [typeName, sym "scoped_type_identifier", sym "generic_type"], ".", annotations,
    typeName]),
  ("generic_type", weight 10 (.seq
    (.choice typeName (sym "scoped_type_identifier"))
    (sym "type_arguments"))),
  ("array_type", .seq
    (field "element" (sym "_unannotated_type"))
    (field "dimensions" (sym "dimensions"))),
  ("integral_type", choices ["byte", "short", "int", "long", "char"]),
  ("floating_point_type", .choice "float" "double"),
  ("_method_header", seqs [
    optional (.seq (field "type_parameters" (sym "type_parameters")) annotations),
    field "type" (sym "_unannotated_type"), sym "_method_declarator",
    optional (sym "throws")]),
  ("_method_declarator", seqs [
    field "name" name, field "parameters" (sym "formal_parameters"),
    field "dimensions" (optional (sym "dimensions"))]),
  ("formal_parameters", seqs [
    "(",
    .choice
      (sym "receiver_parameter")
      (.seq
        (optional (.seq (sym "receiver_parameter") ","))
        (commas (.choice (sym "formal_parameter") (sym "spread_parameter")))),
    ")"]),
  ("formal_parameter", seqs [
    modifiers, field "type" (sym "_unannotated_type"), sym "_variable_declarator_id"]),
  ("receiver_parameter", seqs [
    annotations, sym "_unannotated_type", many (.seq (sym "identifier") "."), sym "this"]),
  ("spread_parameter", seqs [
    modifiers, sym "_unannotated_type", "...", annotations, sym "variable_declarator"]),
  ("throws", .seq "throws" (commas1 (sym "_type"))),
  ("local_variable_declaration", seqs [
    modifiers, field "type" (sym "_unannotated_type"), sym "_variable_declarator_list", ";"]),
  ("method_declaration", seqs [
    modifiers, sym "_method_header", .choice (field "body" (sym "block")) ";"]),
  ("compact_constructor_declaration", seqs [
    modifiers, field "name" (sym "identifier"), field "body" (sym "block")]),
  ("_reserved_identifier", .choice
    (level none (-3) (relabel "identifier" (choices ["open", "module", "record", "with", "sealed"])))
    (relabel "identifier" "yield"))]

/-- The grammar of Java texts. -/
def grammar : Grammar where
  lexemes := Lexeme.all
  rules := literals ++ expressions ++ statements ++ declarations ++ typesAndMembers
  extras := ["line_comment", "block_comment"]
  silent := ["expression", "declaration", "statement", "primary_expression", "module_directive"]
  inlined := ["_name", "_simple_type", "_class_body_declaration", "_variable_initializer"]
  word := "identifier"

end TestConversion.Java
