import Mathlib.Data.List.Forall2
import Mathlib.Data.List.TakeWhile
import ModelAssist.Grammar.Basic
import ModelAssist.Proofs.Tree.Query
import ModelAssist.Tree.Enclosing

/-!
# The patterns of references

The text of a query is read line by line (`Query.tokens_ofLines`), so the patterns for references
can be read off their text (`Grammar.ofText_referencesText`).  All of them capture nothing but a
word, their innermost node (`Grammar.captures_references`), and only two of them capture the names
of parents in `isA` declarations (`Grammar.names_of_parentPath`).
-/

namespace ModelAssist

open ModelAssist.Tree

namespace Tree.Query

/-! ### Queries line by line -/

/-- Taking characters that fit stops at the end of a line. -/
private theorem takeWhile_line {fits : Char → Bool} (stops : fits '\n' = false)
    (line rest : List Char) : (line ++ '\n' :: rest).takeWhile fits = line.takeWhile fits := by
  induction line with
  | nil => rw [List.nil_append, List.takeWhile_cons_of_neg (by simp [stops]), List.takeWhile_nil]
  | cons char line ih => rw [List.cons_append, List.takeWhile_cons, List.takeWhile_cons, ih]

/-- Dropping characters that fit stops at the end of a line. -/
private theorem dropWhile_line {fits : Char → Bool} (stops : fits '\n' = false)
    (line rest : List Char) :
    (line ++ '\n' :: rest).dropWhile fits = line.dropWhile fits ++ '\n' :: rest := by
  induction line with
  | nil => rw [List.nil_append, List.dropWhile_cons_of_neg (by simp [stops]), List.dropWhile_nil,
      List.nil_append]
  | cons char line ih =>
      rw [List.cons_append, List.dropWhile_cons, List.dropWhile_cons, ih]
      split <;> rfl

/-- Comments, names and capture names end with their line. -/
theorem tokens_line (line rest : List Char) :
    tokens (line ++ '\n' :: rest) = tokens line ++ tokens rest := by
  have noName : isNameChar '\n' = false := by decide
  fun_induction tokens line with
  | case1 => simp [tokens, noName]
  | case2 line ih => rw [List.cons_append, tokens, ih, List.cons_append]
  | case3 line ih => rw [List.cons_append, tokens, ih, List.cons_append]
  | case4 line ih => rw [List.cons_append, tokens, ih, List.cons_append]
  | case5 line ih => rw [List.cons_append, tokens, dropWhile_line (by decide), ih]
  | case6 line ih =>
      rw [List.cons_append, tokens, dropWhile_line noName, takeWhile_line noName, ih,
        List.cons_append]
  | case7 char line _ _ _ _ _ named ih =>
      rw [List.cons_append, tokens, if_pos named, dropWhile_line noName, takeWhile_line noName, ih,
        List.cons_append]
      all_goals assumption
  | case8 char line _ _ _ _ _ other ih =>
      rw [List.cons_append, tokens, if_neg other, ih]
      all_goals assumption

/-- The tokens of a text are those of its lines. -/
theorem tokens_ofLines (lines : List String) :
    tokens (Grammar.ofLines lines).toList = lines.flatMap fun line => tokens line.toList := by
  induction lines with
  | nil => simp [Grammar.ofLines, tokens]
  | cons line lines ih =>
      rw [List.flatMap_cons, ← ih, ← tokens_line]
      simp [Grammar.ofLines]

/-- The query of some lines is read from the characters that spell them. -/
theorem ofText_ofLines {lines : List String} {spelled : List (List Char)} {query : Query}
    (chars : List.Forall₂ (fun line chars => line = String.ofList chars) lines spelled)
    (reads : readPatterns ((spelled.flatMap tokens).length + 1) (spelled.flatMap tokens) = query) :
    ofText (Grammar.ofLines lines) = query := by
  have same : (lines.flatMap fun line => tokens line.toList) = spelled.flatMap tokens := by
    clear reads
    induction chars with
    | nil => rfl
    | cons spells _ ih =>
        rw [List.flatMap_cons, List.flatMap_cons, ih, spells, String.toList_ofList]
  rw [ofText, tokens_ofLines, same]
  exact reads

end Tree.Query

namespace Grammar

/-- The pattern for the names of parents. -/
def parentPattern : Pattern :=
  .withChild "isa_declaration" none (.withChild "type_list" none (.withChild "type_name" none
    (.withChild "qualified_name" none
      (.leaf "identifier" ["reference.class_interface_trait"]) []) []) []) []

/-- The patterns for references. -/
def referencePatterns : Query := [
  .withChild "type_name" none (.withChild "qualified_name" none
    (.leaf "identifier" ["reference.class_interface_trait_enum"]) []) [],
  parentPattern,
  .withChild "association_inline" (some "right_type") (.leaf "identifier" ["reference.class"]) [],
  .withChild "association_member" (some "left_type") (.leaf "identifier" ["reference.class"]) [],
  .withChild "association_member" (some "right_type") (.leaf "identifier" ["reference.class"]) [],
  .withChild "single_association_end" (some "type") (.leaf "identifier" ["reference.class"]) [],
  .withChild "new_expression" none (.withChild "qualified_name" none
    (.leaf "identifier" ["reference.class"]) []) [],
  .withChild "transition" (some "target") (.leaf "identifier" ["reference.state"]) [],
  .withChild "standalone_transition" (some "from_state")
    (.leaf "identifier" ["reference.state"]) [],
  .withChild "standalone_transition" (some "to_state") (.leaf "identifier" ["reference.state"]) [],
  .withChild "referenced_statemachine" (some "definition")
    (.leaf "identifier" ["reference.statemachine"]) [],
  .withChild "key_definition" none (.leaf "identifier" ["reference.attribute"]) [],
  .withChild "constraint" none (.leaf "identifier" ["reference.attribute"]) [],
  .withChild "before_after" none (.leaf "identifier" ["reference.method"]) [],
  .withChild "action_code" none (.leaf "identifier" ["reference.method"]) [],
  .withChild "template_list" (some "template_name") (.leaf "identifier" ["reference.template"]) [],
  .withChild "req_implementation" none (.leaf "identifier" ["reference.requirement"]) [],
  .withChild "use_statement" (some "path") (.leaf "use_path" ["reference.mixset"]) []]

/-- **The text of the query for references writes these patterns.** -/
theorem ofText_referencesText : Query.ofText referencesText = referencePatterns := by
  simp only [referencesText]
  apply Query.ofText_ofLines
  -- Unification spells the lines; to compute their characters is slow.
  · repeat (apply List.Forall₂.cons; exact rfl)
    exact .nil
  · decide +kernel

/-- All of these patterns capture nothing but a word. -/
theorem captures_references {pattern : Pattern} (member : pattern ∈ referencePatterns) :
    pattern.isInmost ∧ ∃ kind ∈ wordKinds, [kind] <+: pattern.path := by
  have all : referencePatterns.all fun pattern =>
      pattern.isInmost && wordKinds.any fun kind => [kind].isPrefixOf pattern.path := by
    decide +kernel
  have fits := List.all_eq_true.mp all pattern member
  rw [Bool.and_eq_true, List.any_eq_true] at fits
  obtain ⟨inmost, kind, word, starts⟩ := fits
  exact ⟨inmost, kind, word, List.isPrefixOf_iff_prefix.mp starts⟩

/-- The types from the name of a parent up to the `isA` declaration. -/
def parentPath : List String :=
  ["identifier", "qualified_name", "type_name", "type_list", "isa_declaration"]

theorem parentPattern_mem : parentPattern ∈ referencePatterns :=
  .tail _ (.head _)

/-- A name of a parent is captured as that, or as any type. -/
theorem names_of_parentPath {pattern : Pattern} (member : pattern ∈ referencePatterns)
    {rest above : List String} (along : parentPath ++ rest = pattern.path ++ above) {name : String}
    (among : name ∈ pattern.names) :
    name = "reference.class_interface_trait" ∨ name = "reference.class_interface_trait_enum" := by
  have all : referencePatterns.all fun pattern =>
      pattern.path.length ≤ parentPath.length &&
        (!pattern.path.isPrefixOf parentPath || pattern.names.all fun name =>
          name = "reference.class_interface_trait" ||
            name = "reference.class_interface_trait_enum") := by
    decide +kernel
  have fits := List.all_eq_true.mp all pattern member
  simp only [Bool.and_eq_true, Bool.or_eq_true, Bool.not_eq_true', decide_eq_true_eq,
    List.all_eq_true] at fits
  obtain ⟨short, other | fits⟩ := fits
  · have starts : pattern.path <+: parentPath :=
      List.prefix_of_prefix_length_le (List.prefix_append _ above)
        (along ▸ List.prefix_append parentPath rest) short
    rw [List.isPrefixOf_iff_prefix.mpr starts] at other
    cases other
  · exact fits name among

end Grammar

end ModelAssist
