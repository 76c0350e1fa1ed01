/-!
# The queries of the grammar

The three queries that pick definitions, references and completion scopes out of a tree of the
Umple grammar, in their text form, line by line.  Comments in the queries explain the patterns.
-/

namespace ModelAssist.Grammar

/-- The text of some lines, a line feed after each of them. -/
def ofLines (lines : List String) : String :=
  String.join (lines.map (· ++ "\n"))

/-- The query for definitions, which captures their names. -/
def definitionsText : String :=
  ofLines [
    "; Symbol definitions. Capture names are @definition.<kind>; the captured",
    "; node is the name identifier of the definition.",
    "",
    "; Class-like entities",
    "(class_definition name: (identifier) @definition.class)",
    "(association_class_definition name: (identifier) @definition.class)",
    "(external_definition name: (identifier) @definition.class)",
    "(interface_definition name: (identifier) @definition.interface)",
    "(trait_definition name: (identifier) @definition.trait)",
    "(enum_definition name: (identifier) @definition.enum)",
    "",
    "; Top-level named blocks",
    "(mixset_definition name: (identifier) @definition.mixset)",
    "(requirement_definition name: (identifier) @definition.requirement)",
    "(association_definition name: (identifier) @definition.association)",
    "",
    "; Members of class-like entities",
    "(attribute_declaration name: (identifier) @definition.attribute)",
    "(const_declaration name: (identifier) @definition.attribute)",
    "(method_declaration name: (identifier) @definition.method)",
    "(method_signature name: (identifier) @definition.method)",
    "(emit_method name: (identifier) @definition.method)",
    "(template_attribute name: (identifier) @definition.template)",
    "",
    "; State machines and states",
    "(state_machine name: (identifier) @definition.statemachine)",
    "(statemachine_definition name: (identifier) @definition.statemachine)",
    "(referenced_statemachine name: (identifier) @definition.statemachine)",
    "(state name: (identifier) @definition.state)"]

/-- The query for references, which captures the names that refer to something. -/
def referencesText : String :=
  ofLines [
    "; Reference positions. Capture names are @reference.<kind>_<kind>...; the",
    "; captured node is the referencing identifier. When several patterns capture",
    "; the same identifier, the smallest span wins, then the fewest kinds.",
    "",
    "; Any type position: attribute types, return types, parameters, generics",
    "(type_name (qualified_name (identifier) @reference.class_interface_trait_enum))",
    "",
    "; Inheritance only names class-like entities",
    "(isa_declaration",
    "  (type_list (type_name (qualified_name (identifier) @reference.class_interface_trait))))",
    "",
    "; Association ends name classes",
    "(association_inline right_type: (identifier) @reference.class)",
    "(association_member left_type: (identifier) @reference.class)",
    "(association_member right_type: (identifier) @reference.class)",
    "(single_association_end type: (identifier) @reference.class)",
    "(new_expression (qualified_name (identifier) @reference.class))",
    "",
    "; Transitions name states of the same root state machine",
    "(transition target: (identifier) @reference.state)",
    "(standalone_transition from_state: (identifier) @reference.state)",
    "(standalone_transition to_state: (identifier) @reference.state)",
    "",
    "; Reused state machine definitions",
    "(referenced_statemachine definition: (identifier) @reference.statemachine)",
    "",
    "; Members named from inside a class",
    "(key_definition (identifier) @reference.attribute)",
    "(constraint (identifier) @reference.attribute)",
    "(before_after (identifier) @reference.method)",
    "(action_code (identifier) @reference.method)",
    "(template_list template_name: (identifier) @reference.template)",
    "",
    "; Requirements and mixsets",
    "(req_implementation (identifier) @reference.requirement)",
    "(use_statement path: (use_path) @reference.mixset)"]

/-- The query for completion scopes, which captures the nodes in which symbols are offered. -/
def completionsText : String :=
  ofLines [
    "; Completion scopes. The innermost captured node containing the cursor",
    "; decides which symbols are offered:",
    ";   @scope.<kind>_<kind>...  symbols of these kinds",
    ";   @scope.suppress          no completions at all",
    ";   @scope.use_path          file names for `use`",
    ";   @scope.own_attribute     attributes declared directly in the enclosing class",
    ";   @scope.none              keywords only",
    "",
    "; Bodies of class-like entities accept type names",
    "(class_definition) @scope.class_interface_trait_enum",
    "(interface_definition) @scope.class_interface_trait_enum",
    "(trait_definition) @scope.class_interface_trait_enum",
    "(association_class_definition) @scope.class_interface_trait_enum",
    "",
    "(isa_declaration) @scope.class_interface_trait",
    "",
    "(association_definition) @scope.class",
    "(association_inline) @scope.class",
    "(association_member) @scope.class",
    "(single_association_end) @scope.class",
    "",
    "; State machines: keywords, except where a transition names a state",
    "(state_machine) @scope.none",
    "(statemachine_definition) @scope.none",
    "(state) @scope.none",
    "(transition) @scope.state",
    "(standalone_transition) @scope.state",
    "(guard) @scope.attribute",
    "(referenced_statemachine) @scope.statemachine",
    "",
    "; Embedded target-language code and free text",
    "(code_content) @scope.suppress",
    "(code_block) @scope.suppress",
    "(action_code) @scope.suppress",
    "(entry_exit_action) @scope.suppress",
    "(do_activity) @scope.suppress",
    "(template_attribute) @scope.suppress",
    "(enum_definition) @scope.suppress",
    "(requirement_definition) @scope.suppress",
    "(depend_statement) @scope.suppress",
    "",
    "(use_statement) @scope.use_path",
    "(constraint) @scope.own_attribute",
    "",
    "(key_definition) @scope.attribute",
    "(before_after) @scope.method",
    "(template_list) @scope.template",
    "(req_implementation) @scope.requirement",
    "",
    "(mixset_definition) @scope.none",
    "(namespace_declaration) @scope.none"]

end ModelAssist.Grammar
