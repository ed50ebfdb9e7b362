/-! # The words of patterns
A pattern may name the kinds of nodes and the roles of children that trees of the grammar have.
Main definitions:
* **`Query.ruleKinds`** — the kinds of named nodes;
* **`Query.roles`** — the roles of children. -/

namespace Seams.Query

/-- The kinds of named nodes that trees may have. -/
def ruleKinds : List String :=
  ["abstract_modifier", "anonymous_class", "anonymous_function", "anonymous_function_use_clause",
   "argument", "arguments", "array_creation_expression", "array_element_initializer",
   "arrow_function", "assignment_expression", "attribute", "attribute_group", "attribute_list",
   "augmented_assignment_expression", "base_clause", "binary_expression", "boolean", "bottom_type",
   "break_statement", "by_ref", "case_statement", "cast_expression", "cast_type", "catch_clause",
   "class_constant_access_expression", "class_declaration", "class_interface_clause",
   "clone_expression", "colon_block", "comment", "compound_statement", "conditional_expression",
   "const_declaration", "const_element", "continue_statement", "declaration_list",
   "declare_directive", "declare_statement", "default_statement", "disjunctive_normal_form_type",
   "do_statement", "dynamic_variable_name", "echo_statement", "else_clause", "else_if_clause",
   "empty_statement", "encapsed_string", "enum_case", "enum_declaration",
   "enum_declaration_list", "error_suppression_expression", "escape_sequence", "exit_statement",
   "expression", "expression_statement", "final_modifier", "finally_clause", "float",
   "for_statement", "foreach_statement", "formal_parameters", "function_call_expression",
   "function_definition", "function_static_declaration", "global_declaration", "goto_statement",
   "heredoc", "heredoc_body", "heredoc_end", "heredoc_start", "if_statement",
   "include_expression", "include_once_expression", "integer", "interface_declaration",
   "intersection_type", "list_literal", "literal", "match_block", "match_condition_list",
   "match_conditional_expression", "match_default_expression", "match_expression",
   "member_access_expression", "member_call_expression", "method_declaration", "name",
   "named_label_statement", "named_type", "namespace_definition", "namespace_name",
   "namespace_use_clause", "namespace_use_declaration", "namespace_use_group", "nowdoc",
   "nowdoc_body", "nowdoc_string", "null", "nullsafe_member_access_expression",
   "nullsafe_member_call_expression", "object_creation_expression", "operation", "optional_type",
   "pair", "parenthesized_expression", "php_tag", "primary_expression", "primitive_type",
   "print_intrinsic", "program", "property_declaration", "property_element", "property_hook",
   "property_hook_list", "property_promotion_parameter", "qualified_name", "readonly_modifier",
   "reference_assignment_expression", "reference_modifier", "relative_scope",
   "require_expression", "require_once_expression", "return_statement", "scoped_call_expression",
   "scoped_property_access_expression", "sequence_expression", "shell_command_expression",
   "simple_parameter", "statement", "static_modifier", "static_variable_declaration", "string",
   "string_content", "subscript_expression", "switch_block", "switch_statement", "text",
   "text_interpolation", "throw_expression", "trait_declaration", "try_statement", "type",
   "type_list", "unary_op_expression", "union_type", "unset_statement", "update_expression",
   "use_as_clause", "use_declaration", "use_instead_of_clause", "use_list", "var_modifier",
   "variable_name", "variadic_parameter", "variadic_placeholder", "variadic_unpacking",
   "visibility_modifier", "while_statement", "yield_expression", "ERROR", "_"]

/-- The roles that children may play in their parent. -/
def roles : List String :=
  ["alias", "alternative", "arguments", "attributes", "body", "condition",
   "conditional_expressions", "default_value", "end_tag", "final", "function", "identifier",
   "initialize", "left", "name", "object", "operator", "parameters", "prefix", "readonly",
   "reference_modifier", "return_expression", "return_type", "right", "scope", "static_modifier",
   "type", "update", "value", "visibility"]

end Seams.Query
