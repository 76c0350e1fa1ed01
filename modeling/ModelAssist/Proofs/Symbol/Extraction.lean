import Mathlib.Data.List.Induction
import ModelAssist.Proofs.Symbol.Inheritance
import ModelAssist.Proofs.Tree.Layout
import ModelAssist.Proofs.Tree.Outermost

/-!
# What a tree says

A definition capture stands for one symbol (`Extraction.symbol?_definition`).  If its node covers
whole characters of one line, the range of the symbol selects exactly its name in the document,
whatever bytes the characters before it have (`Extraction.range_selects_name`).

The `use` statements and the `isA` declarations are read in the order of the text.  Each of the
latter adds the names in its type lists to those of the nearest class-like node above it
(`Extraction.Lists.addDeclaration`).
-/

namespace ModelAssist

open ModelAssist.Text (byteOffset utf8)
open ModelAssist.Tree (Capture Node Place)

namespace Extraction

/-- What follows a tag is the rest of the text. -/
theorem afterTag?_append (tag rest : String) : afterTag? tag (tag ++ rest) = some rest := by
  unfold afterTag?
  rw [String.toList_append, if_pos (by simp), ← String.length_toList, List.drop_left,
    String.ofList_toList]

/-- A text has a rest after a tag exactly if it starts with the tag. -/
theorem afterTag?_eq_some_iff {tag text rest : String} :
    afterTag? tag text = some rest ↔ text = tag ++ rest := by
  constructor
  · intro found
    rw [afterTag?] at found
    split at found
    · next starts =>
        obtain ⟨tail, split⟩ := List.isPrefixOf_iff_prefix.mp starts
        rw [← split, ← String.length_toList, List.drop_left, Option.some_inj] at found
        rw [← String.toList_inj, ← split, String.toList_append, ← found, String.toList_ofList]
    · cases found
  · intro same
    rw [same, afterTag?_append]

variable {file : String} {lines : List (List Char)} {kind : SymbolKind} {place : Place}

/-- A definition that is there and has a text stands for the symbol of its node. -/
theorem symbol?_definition (there : ¬ place.info.isMissing) (named : place.node.text ≠ "") :
    symbol? file lines (definitionTag ++ kind.name) place =
      some ⟨place.node.text, kind, file, position lines place.info.startPoint,
        position lines place.info.endPoint, container? kind place⟩ := by
  simp [symbol?, afterTag?_append, there, named]

/-- The column of a position counts characters of its line. -/
theorem position_eq {row column : Nat} {line : List Char} (found : lines[row]? = some line) :
    position lines ⟨row, column⟩ = ⟨row, Text.charColumn line column⟩ := by
  rw [position, found]

/-- A definition that is there and has a name gives a symbol. -/
theorem symbol?_isSome (there : ¬ place.info.isMissing) (named : place.node.text ≠ "") :
    (symbol? file lines (definitionTag ++ kind.name) place).isSome := by
  rw [symbol?_definition there named]
  rfl

/-- The symbol of a definition says where and what it is and what it belongs to. -/
theorem symbol?_eq_some {symbol : SymbolEntry}
    (built : symbol? file lines (definitionTag ++ kind.name) place = some symbol) :
    symbol.name = place.node.text ∧ symbol.kind = kind ∧ symbol.file = file ∧
      symbol.container = container? kind place := by
  simp only [symbol?, afterTag?_append, SymbolKind.ofName?_name, Option.bind_eq_bind,
    Option.bind_some] at built
  split at built
  · cases built
  · rw [← Option.some.inj built]
    exact ⟨rfl, rfl, rfl, rfl⟩

/-- The container of a member is the class around its parent. -/
theorem container?_of_isMember (member : kind.isMember) :
    container? kind place = place.parent?.bind (·.enclosingClass?) := by
  cases kind <;> first | rfl | cases member

end Extraction

/-! ### Names in the text -/

/-- Holds of a node over some whole characters of one line of a text. -/
structure Tree.Node.IsInLine (node : Node) (text : List Char) : Prop where
  tells : node.Tells text
  start : ∃ offset, node.info.startByte = byteOffset text offset
  finish : ∃ offset, node.info.endByte = byteOffset text offset
  filled : node.info.startByte < node.info.endByte
  single : '\n' ∉ node.text.toList

/-- The text before a node in a line, its own and that after it. -/
theorem Tree.Node.IsInLine.exists_parts {node : Node} {text : List Char}
    (inLine : node.IsInLine text) :
    ∃ before word after, text = before ++ word ++ after ∧
      node.info.startByte = (utf8 before).length ∧
        node.info.endByte = (utf8 (before ++ word)).length := by
  obtain ⟨first, start⟩ := inLine.start
  obtain ⟨last, finish⟩ := inLine.finish
  have ordered : first ≤ last := by
    refine Nat.le_of_not_le fun backwards => ?_
    have less := inLine.filled
    rw [start, finish] at less
    exact absurd (Text.byteOffset_mono text backwards) (Nat.not_le_of_lt less)
  have parts : text.take last = text.take first ++ (text.take last).drop first := by
    conv_lhs => rw [← List.take_append_drop first (text.take last)]
    rw [List.take_take, Nat.min_eq_left ordered]
  refine ⟨text.take first, (text.take last).drop first, text.drop last, ?_, start, ?_⟩
  · rw [← parts, List.take_append_drop]
  · rw [← parts]
    exact finish

namespace Extraction

/-- A symbol of some captures stands between those of the captures before and after its own. -/
theorem symbols_append_cons {file : String} {content : String} {before after : List Capture}
    {capture : Capture} {symbol : SymbolEntry}
    (built : symbol? file (Text.lines content.toList) capture.name capture.place = some symbol) :
    symbols file (before ++ capture :: after) (some content) =
      symbols file before (some content) ++ symbol :: symbols file after (some content) := by
  simp only [symbols, List.filterMap_append, List.filterMap_cons, built]

/-- **The range of a symbol selects exactly its name.**  It lies in one line of the document, and
its columns count characters. -/
theorem range_selects_name (file content : String) (before after : List Capture) {capture : Capture}
    {kind : SymbolKind} (definition : capture.name = definitionTag ++ kind.name)
    (inLine : capture.place.node.IsInLine content.toList)
    (there : ¬ capture.place.info.isMissing) :
    ∃ symbol line,
      symbols file (before ++ capture :: after) (some content) =
        symbols file before (some content) ++ symbol :: symbols file after (some content) ∧
      symbol.name = capture.place.node.text ∧
      symbol.start.line = symbol.stop.line ∧ symbol.start.column ≤ symbol.stop.column ∧
      (Text.lines content.toList)[symbol.start.line]? = some line ∧
      (line.take symbol.stop.column).drop symbol.start.column = symbol.name.toList := by
  obtain ⟨lead, word, rest, split, start, finish⟩ := inLine.exists_parts
  have tells := inLine.tells
  rw [split] at tells
  have own : capture.place.node.text = String.ofList word := tells.text_eq start finish
  have single : '\n' ∉ word := by
    have single := inLine.single
    rwa [own, String.toList_ofList] at single
  have named : capture.place.node.text ≠ "" := by
    rw [own]
    intro empty
    obtain rfl : word = [] := String.ofList_eq_empty_iff.mp empty
    have filled := inLine.filled
    rw [start, finish, List.append_nil] at filled
    exact Nat.lt_irrefl _ filled
  obtain ⟨row, left, right, found, startPoint, endPoint⟩ := Text.exists_line lead single rest
  rw [← split] at found
  rw [← tells.startPoint_eq start] at startPoint
  rw [← tells.endPoint_eq finish] at endPoint
  have startEq : position (Text.lines content.toList) capture.place.info.startPoint =
      ⟨row, left.length⟩ := by
    rw [Place.info, startPoint, position_eq found, List.append_assoc, Text.charColumn_append]
  have stopEq : position (Text.lines content.toList) capture.place.info.endPoint =
      ⟨row, (left ++ word).length⟩ := by
    rw [Place.info, endPoint, position_eq found, Text.charColumn_append]
  have built : symbol? file (Text.lines content.toList) capture.name capture.place =
      some ⟨capture.place.node.text, kind, file, ⟨row, left.length⟩, ⟨row, (left ++ word).length⟩,
        container? kind capture.place⟩ := by
    rw [definition, symbol?_definition there named, startEq, stopEq]
  refine ⟨_, _, symbols_append_cons built, rfl, rfl, ?_, found, ?_⟩
  · rw [List.length_append]
    exact Nat.le_add_right _ _
  · rw [List.take_left, List.drop_left, own, String.toList_ofList]

/-! The name of a class behind two letters of two bytes each, on the second line. -/

private def umlauts : String := "x\néé Ü"

private def umlautName : Place :=
  .root (Node.spanning umlauts.toList "identifier" (some "name") 7 9 [])

private def umlautCapture : Capture := ⟨"definition.class", umlautName⟩

theorem range_selects_name_umlaut :
    umlautCapture.name = definitionTag ++ SymbolKind.class.name ∧
      umlautName.node.IsInLine umlauts.toList ∧ ¬ umlautName.info.isMissing ∧
      ∃ symbol line,
        symbols "/w/a.ump" [umlautCapture] (some umlauts) = [symbol] ∧
        symbol.name = "Ü" ∧
        symbol.start.line = symbol.stop.line ∧ symbol.start.column ≤ symbol.stop.column ∧
        (Text.lines umlauts.toList)[symbol.start.line]? = some line ∧
        (line.take symbol.stop.column).drop symbol.start.column = symbol.name.toList := by
  have definition : umlautCapture.name = definitionTag ++ SymbolKind.class.name := by
    decide +kernel
  have inLine : umlautName.node.IsInLine umlauts.toList :=
    ⟨by decide +kernel, ⟨5, by decide +kernel⟩, ⟨6, by decide +kernel⟩, by decide +kernel,
      by decide +kernel⟩
  have there : ¬ umlautName.info.isMissing := by decide
  have text : umlautName.node.text = "Ü" := by decide +kernel
  obtain ⟨symbol, line, built, name, selected⟩ :=
    range_selects_name "/w/a.ump" umlauts [] [] definition inLine there
  exact ⟨definition, inLine, there, symbol, line, built, name.trans text, selected⟩

/-! ### Statements and declarations -/

/-- The text of the path in a `use` statement, empty without one. -/
def pathText (statement : Node) : String :=
  match statement.childByField? "path" with
  | none => ""
  | some path => path.text

private theorem useStatement?_eq (statement : Node) :
    useStatement? statement =
      if pathText statement ≠ "" then
        some ⟨pathText statement, statement.info.startPoint.row⟩
      else none := by
  rw [useStatement?, pathText]
  cases statement.childByField? "path" with
  | none => rfl
  | some path => simp [ite_not]

/-- The `use` statements of a tree are its outermost ones with a path, in the order of the text. -/
theorem useStatements_eq (tree : Node) :
    useStatements tree =
      ((Place.root tree).subtree.filter fun place =>
        place.isOutermost "use_statement" && pathText place.node ≠ "").map
          fun place => ⟨pathText place.node, place.info.startPoint.row⟩ := by
  rw [useStatements, Place.outermost_root, ← List.filterMap_eq_map, List.filterMap_filter,
    List.filterMap_filter]
  refine List.filterMap_congr fun place _ => ?_
  rw [useStatement?_eq]
  cases place.isOutermost "use_statement" <;> simp [Place.info]

/-- Holds if the nearest class-like node above a place has the given name. -/
def liesIn (child : String) (place : Place) : Bool :=
  ((Place.ancestorsOf place.above).find? Place.isClassLike).bind (·.node.name?) = some child

/-- Holds of the `isA` declarations that count for the class-like entity with the given name. -/
def declares (child : String) (declaration : Place) : Bool :=
  liesIn child declaration && declaration.isOutermost "isa_declaration"

/-- Holds of the names in the type lists of these declarations. -/
def namesParent (child : String) (name : Place) : Bool :=
  name.node.text ≠ "" &&
    name.childOf (Place.childOf (Place.childOf (declares child) (·.kind = "type_list"))
      (·.kind = "type_name")) (·.kind = "qualified_name")

private theorem map_childrenOfKind (kind : String) (places : List Place) :
    (places.flatMap (·.children.filter (·.kind = kind))).map Place.node =
      (places.map Place.node).flatMap (childrenOfKind kind) := by
  rw [List.map_flatMap, List.flatMap_map]
  refine List.flatMap_congr fun place _ => ?_
  rw [childrenOfKind, ← Place.map_node_children, List.filter_map]
  rfl

/-- The names in the type lists below some declarations are those that these name, in turn. -/
private theorem map_names (declarations : List Place) :
    ((((declarations.flatMap (·.children.filter (·.kind = "type_list"))).flatMap
      (·.children.filter (·.kind = "type_name"))).flatMap
        (·.children.filter (·.kind = "qualified_name"))).filter (·.node.text ≠ "")).map
          (·.node.text) = declarations.flatMap (parentNames ·.node) := by
  have filtered (names : List Place) :
      (names.filter (·.node.text ≠ "")).map (·.node.text) =
        ((names.map Place.node).map Node.text).filter (· ≠ "") := by
    rw [List.map_map, List.filter_map]
    rfl
  rw [filtered, map_childrenOfKind, map_childrenOfKind, map_childrenOfKind]
  simp only [parentNames, List.flatMap_map, List.flatMap_assoc, List.map_flatMap,
    List.filter_flatMap]

/-- The names of the parents of a child in the order of the text. -/
private theorem map_namesParent (tree : Node) (child : String) :
    ((Place.root tree).subtree.filter (namesParent child)).map (·.node.text) =
      ((Place.root tree).subtree.filter (declares child)).flatMap (parentNames ·.node) := by
  have declared : Place.Apart (declares child) :=
    (Place.apart_isOutermost "isa_declaration").mono fun place here =>
      (Bool.and_eq_true_iff.mp here).2
  unfold namesParent
  rw [← List.filter_filter, Place.filter_childOf _ (declared.childOf _ |>.childOf _),
    Place.filter_childOf _ (declared.childOf _), Place.filter_childOf _ declared, map_names]

/-- The edges after those of one more declaration. -/
def addDeclaration (edges : InheritanceEdges) (declaration : Place) : InheritanceEdges :=
  match declaration.enclosingClass? with
  | none => edges
  | some child =>
    match parentNames declaration.node with
    | [] => edges
    | parents => Inheritance.extend edges child parents

/-- The inheritance of a tree is collected from its outermost declarations. -/
theorem inheritance_eq (tree : Node) :
    inheritance tree = ((Place.root tree).outermost "isa_declaration").foldl addDeclaration ∅ := rfl

/-- The parents that a declaration names for a child. -/
def added (child : String) (declaration : Place) : List String :=
  if declaration.enclosingClass? = some child then parentNames declaration.node else []

/-- Holds if the edges name exactly the given parents for a child; without any it has no entry. -/
def Lists (edges : InheritanceEdges) (child : String) (parents : List String) : Prop :=
  edges.get? child = if parents = [] then none else some parents

/-- What is listed for a child are its parents. -/
theorem Lists.listed_eq {edges : InheritanceEdges} {child : String} {parents : List String}
    (lists : Lists edges child parents) : Inheritance.listed edges child = parents := by
  rw [Inheritance.listed, lists]
  split
  · next none_ => exact none_.symm
  · rfl

/-- A declaration adds the parents that it names after those that a child had. -/
theorem Lists.addDeclaration {edges : InheritanceEdges} {child : String} {parents : List String}
    (lists : Lists edges child parents) (declaration : Place) :
    Lists (addDeclaration edges declaration) child (parents ++ added child declaration) := by
  unfold Extraction.addDeclaration added
  split
  · next nobody => rwa [nobody, if_neg nofun, List.append_nil]
  · next other owner =>
      split
      · next none_ => rwa [none_, ite_self, List.append_nil]
      · next named =>
          rw [owner, Lists, Inheritance.extend, OrderedMap.modify, OrderedMap.get?_insert]
          by_cases same : child = other
          · subst same
            have old := lists.listed_eq
            rw [Inheritance.listed] at old
            rw [if_pos rfl, if_pos rfl, old, if_neg]
            exact fun empty => named (List.append_eq_nil_iff.mp empty).2
          · rw [if_neg same, if_neg fun owned => same (Option.some.inj owned).symm, List.append_nil]
            exact lists

/-- The parents of a child are listed in the order in which the declarations name them. -/
theorem lists_inheritance (tree : Node) (child : String) :
    Lists (inheritance tree) child
      (((Place.root tree).outermost "isa_declaration").flatMap (added child)) := by
  rw [inheritance_eq]
  generalize (Place.root tree).outermost "isa_declaration" = declarations
  induction declarations using List.reverseRecOn with
  | nil => rfl
  | append_singleton rest last ih =>
      rw [List.foldl_append, List.flatMap_append, List.foldl_cons, List.foldl_nil,
        List.flatMap_singleton]
      exact ih.addDeclaration last

private theorem added_eq {declaration : Place} (kind : declaration.kind = "isa_declaration")
    (child : String) :
    added child declaration =
      if liesIn child declaration then parentNames declaration.node else [] := by
  have other : ¬ declaration.isClassLike := by
    rw [Place.isClassLike, kind]
    decide
  simp only [added, liesIn, Place.enclosingClass?, Place.classPlace?, Place.selfAndAbove,
    List.find?_cons_of_neg other, decide_eq_true_eq]

/-- Only the declarations that count for a child add parents of it. -/
private theorem flatMap_added (tree : Node) (child : String) :
    ((Place.root tree).outermost "isa_declaration").flatMap (added child) =
      ((Place.root tree).subtree.filter (declares child)).flatMap (parentNames ·.node) := by
  unfold declares
  rw [Place.outermost_root, ← List.filter_filter]
  have kinds : ∀ declaration ∈ (Place.root tree).subtree.filter
      (Place.isOutermost "isa_declaration"), declaration.kind = "isa_declaration" :=
    fun declaration member => (Place.isOutermost_iff.mp (List.mem_filter.mp member).2).1
  revert kinds
  generalize (Place.root tree).subtree.filter _ = declarations
  intro kinds
  induction declarations with
  | nil => rfl
  | cons first rest ih =>
      obtain ⟨kind, kinds⟩ := List.forall_mem_cons.mp kinds
      rw [List.flatMap_cons, ih kinds, added_eq kind, List.filter_cons]
      split
      · rw [List.flatMap_cons]
      · rw [List.nil_append]

/-- **A tree is read in the order of its text.**  The walk for a type of nodes recurses on the tree,
and so lists the outermost places of that type, each once and in preorder.  The `use` statements are
those of them that have a path.  A child has an entry exactly if some declaration that counts for it
names a parent, and it lists all names there, repeated ones too. -/
theorem reads_in_order (tree : Node) :
    (∀ place : Place, place.subtree = place :: place.children.flatMap Place.subtree) ∧
    (∀ (kind : String) (place : Place), place.outermost kind =
      if place.kind = kind then [place] else place.children.flatMap (Place.outermost kind)) ∧
    (∀ kind : String,
      (Place.root tree).outermost kind =
        (Place.root tree).subtree.filter (Place.isOutermost kind) ∧
      ((Place.root tree).outermost kind).Nodup) ∧
    useStatements tree =
      ((Place.root tree).subtree.filter fun place =>
        place.isOutermost "use_statement" && pathText place.node ≠ "").map
          (fun place => ⟨pathText place.node, place.info.startPoint.row⟩) ∧
    (inheritance tree).keys.Nodup ∧
    ∀ (child : String) (names : List String),
      (inheritance tree).get? child = some names ↔
        names ≠ [] ∧
          names = ((Place.root tree).subtree.filter (namesParent child)).map (·.node.text) := by
  refine ⟨Place.subtree_eq, Place.outermost_eq, fun kind => ?_, useStatements_eq tree,
    nodup_keys_inheritance tree, fun child names => ?_⟩
  · have walked := Place.outermost_root kind tree
    refine ⟨walked, ?_⟩
    rw [walked]
    exact (Place.nodup_subtree _).filter _
  · have lists := lists_inheritance tree child
    rw [flatMap_added, ← map_namesParent] at lists
    rw [lists]
    split
    · next nobody => exact iff_of_false nofun fun named => named.1 (named.2.trans nobody)
    · next somebody =>
        rw [Option.some_inj]
        exact ⟨fun same => ⟨same ▸ somebody, same.symm⟩, fun named => named.2.symm⟩

end Extraction

end ModelAssist
