import ModelAssist.Proofs.Completion.Item
import ModelAssist.Proofs.Workspace.Lookup
import ModelAssist.Workspace.Completion

/-!
# What is offered at a cursor

Away from comments, new names, suppressed positions and `use` paths the labels that are offered are
those of the keywords and operators of the context, of the builtin types where types may stand, and
of the admitted symbols in the document and in what it reaches, as far as they match what was typed.
A label that several of these have comes from the first of them, in this order, and from the first
kind of the scope if symbols of several kinds have it (`Workspace.completions_offered`).
-/

namespace ModelAssist.Workspace

open Relation (ReflTransGen)

/-- Holds of the symbols that the scope of a context admits, by an index that knows who inherits
from whom. -/
inductive Admits (index : SymbolIndex) (context : CompletionContext) (symbol : SymbolEntry) : Prop
  /-- Symbols that are neither members nor states are admitted from everywhere. -/
  | anywhere {kinds : List SymbolKind} (scope : context.scope = some (.symbols kinds))
      (listed : symbol.kind ∈ kinds) (other : ¬ symbol.kind.isMember)
      (notState : symbol.kind ≠ .state) (contained : symbol.container.isSome)
  /-- Members are admitted from the enclosing class and from those it inherits from. -/
  | member {kinds : List SymbolKind} {enclosing owner : String}
      (scope : context.scope = some (.symbols kinds)) (listed : symbol.kind ∈ kinds)
      (isMember : symbol.kind.isMember) (around : context.enclosingClass = some enclosing)
      (contained : symbol.container = some owner)
      (inherits : ReflTransGen (fun child parent => parent ∈ index.inheritance.parents child)
        enclosing owner)
  /-- States are admitted from the enclosing state machine. -/
  | state {kinds : List SymbolKind} {machine : String}
      (scope : context.scope = some (.symbols kinds)) (listed : symbol.kind ∈ kinds)
      (isState : symbol.kind = .state) (around : context.enclosingStateMachine = some machine)
      (contained : symbol.container = some machine)
  /-- Where only own attributes are admitted, they are those that the enclosing class declares. -/
  | ownAttribute {enclosing : String} (scope : context.scope = some .ownAttribute)
      (isAttribute : symbol.kind = .attribute) (around : context.enclosingClass = some enclosing)
      (contained : symbol.container = some enclosing)

/-- Holds of the items that a context may offer, from an index and some files of it. -/
inductive Offers [Host] (index : SymbolIndex) (files : List Path) (context : CompletionContext) :
    CompletionItem → Prop
  | keyword {word : String} (listed : word ∈ context.keywords) :
      Offers index files context (.ofKeyword word)
  | operator {sign : String} (listed : sign ∈ context.operators) :
      Offers index files context (.ofOperator sign)
  | builtinType {kinds : List SymbolKind} {type : String}
      (scope : context.scope = some (.symbols kinds)) (classes : .class ∈ kinds)
      (enumerations : .enumeration ∈ kinds) (listed : type ∈ builtinTypes) :
      Offers index files context (.ofBuiltinType type)
  | symbol {symbol : SymbolEntry} (known : symbol ∈ index.fileSymbols symbol.file)
      (near : Path.normalized symbol.file ∈ files) (admitted : Admits index context symbol) :
      Offers index files context (.ofSymbol symbol)

/-- The kinds of the scope of a context, in its order. -/
def scopeKinds (context : CompletionContext) : List SymbolKind :=
  context.scope.elim [] (·.kinds)

/-- Where an item stands in the order of its context: keywords, operators, builtin types, and then
the symbols by their kinds. -/
def rank (context : CompletionContext) (item : CompletionItem) : Nat :=
  match item.kind, item.symbolKind with
  | .keyword, _ => 0
  | .operator, _ => 1
  | .builtinType, _ => 2
  | _, some kind => 3 + (scopeKinds context).idxOf kind
  | _, none => 3

@[simp] theorem rank_ofKeyword (context : CompletionContext) (word : String) :
    rank context (.ofKeyword word) = 0 := rfl

@[simp] theorem rank_ofOperator (context : CompletionContext) (sign : String) :
    rank context (.ofOperator sign) = 1 := rfl

@[simp] theorem rank_ofBuiltinType (context : CompletionContext) (type : String) :
    rank context (.ofBuiltinType type) = 2 := rfl

@[simp] theorem rank_ofSymbol (context : CompletionContext) (symbol : SymbolEntry) :
    rank context (.ofSymbol symbol) = 3 + (scopeKinds context).idxOf symbol.kind := rfl

/-- The kind of an admitted symbol is one of the scope, which lists none where only own attributes
are admitted. -/
theorem Admits.kind_mem {index : SymbolIndex} {context : CompletionContext} {symbol : SymbolEntry}
    (admitted : Admits index context symbol) :
    symbol.kind ∈ scopeKinds context ∨
      context.scope = some .ownAttribute ∧ symbol.kind = .attribute := by
  have listed {kinds : List SymbolKind} (scope : context.scope = some (.symbols kinds))
      (member : symbol.kind ∈ kinds) : symbol.kind ∈ scopeKinds context := by
    rw [scopeKinds, scope]
    exact member
  cases admitted with
  | anywhere scope member => exact .inl (listed scope member)
  | member scope member => exact .inl (listed scope member)
  | state scope member => exact .inl (listed scope member)
  | ownAttribute scope isAttribute => exact .inr ⟨scope, isAttribute⟩

section Admitted

variable {index : SymbolIndex} {context : CompletionContext} {symbol : SymbolEntry}
  {kinds : List SymbolKind} (scope : context.scope = some (.symbols kinds))
  (listed : symbol.kind ∈ kinds)
include scope listed

private theorem admits_iff_of_isMember (isMember : symbol.kind.isMember) :
    Admits index context symbol ↔
      ∃ enclosing, context.enclosingClass = some enclosing ∧
        ∃ owner, symbol.container = some owner ∧
          ReflTransGen (fun child parent => parent ∈ index.inheritance.parents child)
            enclosing owner := by
  constructor
  · intro admitted
    cases admitted with
    | anywhere _ _ other => exact absurd isMember other
    | member _ _ _ around contained inherits => exact ⟨_, around, _, contained, inherits⟩
    | state _ _ isState => rw [isState] at isMember; cases isMember
    | ownAttribute scope' => cases scope.symm.trans scope'
  · rintro ⟨enclosing, around, owner, contained, inherits⟩
    exact .member scope listed isMember around contained inherits

private theorem admits_iff_of_isState (isState : symbol.kind = .state) :
    Admits index context symbol ↔
      ∃ machine, context.enclosingStateMachine = some machine ∧
        symbol.container = some machine := by
  constructor
  · intro admitted
    cases admitted with
    | anywhere _ _ _ notState => exact absurd isState notState
    | member _ _ isMember => rw [isState] at isMember; cases isMember
    | state _ _ _ around contained => exact ⟨_, around, contained⟩
    | ownAttribute scope' => cases scope.symm.trans scope'
  · rintro ⟨machine, around, contained⟩
    exact .state scope listed isState around contained

private theorem admits_iff_of_other (other : ¬ symbol.kind.isMember)
    (notState : symbol.kind ≠ .state) :
    Admits index context symbol ↔ symbol.container.isSome := by
  constructor
  · intro admitted
    cases admitted with
    | anywhere _ _ _ _ contained => exact contained
    | member _ _ isMember => exact absurd isMember other
    | state _ _ isState => exact absurd isState notState
    | ownAttribute scope' => cases scope.symm.trans scope'
  · exact .anywhere scope listed other notState

end Admitted

/-- A context does not rank two items of one label alike. -/
theorem eq_of_rank_eq [Host] {index : SymbolIndex} {files : List Path} {context : CompletionContext}
    {first second : CompletionItem} (offered : Offers index files context first)
    (offered' : Offers index files context second) (label : first.label = second.label)
    (same : rank context first = rank context second) : first = second := by
  have kinds {symbol other : SymbolEntry} (admitted : Admits index context symbol)
      (admitted' : Admits index context other)
      (same : (scopeKinds context).idxOf symbol.kind = (scopeKinds context).idxOf other.kind) :
      symbol.kind = other.kind := by
    rcases admitted.kind_mem with listed | ⟨scope, isAttribute⟩
    · exact (List.idxOf_inj listed).mp same
    · rcases admitted'.kind_mem with listed | ⟨_, isAttribute'⟩
      · rw [scopeKinds, scope] at listed
        exact absurd listed List.not_mem_nil
      · exact isAttribute.trans isAttribute'.symm
  cases offered with
  | keyword =>
      cases offered' with
      | keyword => exact congrArg CompletionItem.ofKeyword label
      | operator => cases same
      | builtinType => cases same
      | symbol => simp at same; omega
  | operator =>
      cases offered' with
      | keyword => cases same
      | operator => exact congrArg CompletionItem.ofOperator label
      | builtinType => cases same
      | symbol => simp at same; omega
  | builtinType =>
      cases offered' with
      | keyword => cases same
      | operator => cases same
      | builtinType => exact congrArg CompletionItem.ofBuiltinType label
      | symbol => simp at same; omega
  | symbol _ _ admitted =>
      cases offered' with
      | keyword => simp at same
      | operator => simp at same; omega
      | builtinType => simp at same; omega
      | symbol _ _ admitted' =>
          have sameKind := kinds admitted admitted' (Nat.add_left_cancel same)
          simp only [CompletionItem.ofSymbol] at label ⊢
          rw [label, sameKind]

section Found

variable {index : SymbolIndex} {grammar : Grammar} (reachable : index.Reachable grammar)
  {context : CompletionContext} {symbol : SymbolEntry}
include reachable

private theorem mem_members_iff {container : String} {kind : SymbolKind} :
    symbol ∈ index.registry.members container ⟨some [kind], none⟩ ↔
      symbol ∈ index.fileSymbols symbol.file ∧ symbol.kind = kind ∧
        symbol.container = some container := by
  rw [reachable.mem_members, reachable.fileSymbols_eq, ← SymbolIndex.Declares]
  simp [SymbolFilter.admits]

private theorem mem_symbols_iff {kind : SymbolKind} :
    symbol ∈ index.registry.symbols ⟨some [kind], none⟩ ↔
      symbol ∈ index.fileSymbols symbol.file ∧ symbol.kind = kind ∧ symbol.container.isSome := by
  rw [reachable.mem_symbols, reachable.fileSymbols_eq, ← SymbolIndex.Declares]
  simp [SymbolFilter.admits]

/-- The symbols of one kind of the scope are those that the context admits. -/
theorem mem_symbolsOfKind {kinds : List SymbolKind} {kind : SymbolKind}
    (scope : context.scope = some (.symbols kinds)) (listed : kind ∈ kinds) :
    symbol ∈ symbolsOfKind index context kind ↔
      symbol ∈ index.fileSymbols symbol.file ∧ symbol.kind = kind ∧
        Admits index context symbol := by
  unfold symbolsOfKind
  split
  · next isMember =>
      have admits (same : symbol.kind = kind) : Admits index context symbol ↔ _ :=
        admits_iff_of_isMember scope (same ▸ listed) (same ▸ isMember)
      cases around : context.enclosingClass with
      | none => simp +contextual [admits, around]
      | some enclosing =>
          simp only [SymbolIndex.lookup, if_true, Inheritance.inherited, List.mem_flatMap,
            Inheritance.mem_lineage, mem_members_iff reachable]
          constructor
          · rintro ⟨owner, inherits, known, same, contained⟩
            exact ⟨known, same, (admits same).mpr ⟨_, around, owner, contained, inherits⟩⟩
          · rintro ⟨known, same, admitted⟩
            obtain ⟨_, around', owner, contained, inherits⟩ := (admits same).mp admitted
            cases around.symm.trans around'
            exact ⟨owner, inherits, known, same, contained⟩
  · next other =>
      split
      · next isState =>
          have admits (same : symbol.kind = kind) : Admits index context symbol ↔ _ :=
            admits_iff_of_isState scope (same ▸ listed) (same.trans isState)
          cases around : context.enclosingStateMachine with
          | none => simp +contextual [admits, around]
          | some machine =>
              simp only [SymbolIndex.lookup, Bool.false_eq_true, if_false,
                mem_members_iff reachable]
              refine and_congr_right fun _ => and_congr_right fun same => ?_
              rw [admits same, around]
              simp
      · next notState =>
          simp only [SymbolIndex.lookup, mem_symbols_iff reachable]
          refine and_congr_right fun _ => and_congr_right fun same => ?_
          exact (admits_iff_of_other scope (same ▸ listed) (same ▸ other) (same ▸ notState)).symm

/-- The symbols of the scope are those that the context admits. -/
theorem mem_scopeSymbols :
    symbol ∈ scopeSymbols index context ↔
      symbol ∈ index.fileSymbols symbol.file ∧ Admits index context symbol := by
  unfold scopeSymbols
  split
  · next enclosing scope around =>
      simp only [SymbolIndex.lookup, Bool.false_eq_true, if_false, mem_members_iff reachable]
      refine and_congr_right fun _ => ⟨fun ⟨isAttribute, contained⟩ => ?_, fun admitted => ?_⟩
      · exact .ownAttribute scope isAttribute around contained
      · cases admitted with
        | ownAttribute _ isAttribute around' contained =>
            cases around.symm.trans around'
            exact ⟨isAttribute, contained⟩
        | anywhere scope' => cases scope.symm.trans scope'
        | member scope' => cases scope.symm.trans scope'
        | state scope' => cases scope.symm.trans scope'
  · next kinds scope =>
      rw [List.mem_flatMap]
      constructor
      · rintro ⟨kind, listed, member⟩
        obtain ⟨known, _, admitted⟩ := (mem_symbolsOfKind reachable scope listed).mp member
        exact ⟨known, admitted⟩
      · rintro ⟨known, admitted⟩
        have listed : symbol.kind ∈ kinds := by
          rcases admitted.kind_mem with listed | ⟨own, _⟩
          · simpa [scopeKinds, scope, CompletionScope.kinds] using listed
          · cases scope.symm.trans own
        exact ⟨symbol.kind, listed,
          (mem_symbolsOfKind reachable scope listed).mpr ⟨known, rfl, admitted⟩⟩
  · next noKinds noOwn =>
      simp only [List.not_mem_nil, false_iff]
      rintro ⟨_, admitted⟩
      cases admitted with
      | anywhere scope => exact noKinds _ scope
      | member scope => exact noKinds _ scope
      | state scope => exact noKinds _ scope
      | ownAttribute scope _ around => exact noOwn _ scope around

/-- What a context may offer is what is picked from. -/
theorem mem_candidates [Host] {files : List Path} {item : CompletionItem} :
    item ∈ candidates index context files ↔ Offers index files context item := by
  have types : admitsTypes context ↔ ∃ kinds, context.scope = some (.symbols kinds) ∧
      .class ∈ kinds ∧ .enumeration ∈ kinds := by
    unfold admitsTypes
    cases context.scope with
    | none => simp
    | some scope => cases scope <;> simp [CompletionScope.kinds]
  simp only [candidates, List.mem_append, List.mem_map, List.mem_ite_nil_right, visible,
    List.mem_filter, List.contains_iff_mem, mem_scopeSymbols reachable, types]
  constructor
  · rintro (((⟨word, listed, rfl⟩ | ⟨sign, listed, rfl⟩) |
      ⟨⟨kinds, scope, classes, enumerations⟩, type, listed, rfl⟩) |
      ⟨symbol, ⟨⟨known, admitted⟩, near⟩, rfl⟩)
    · exact .keyword listed
    · exact .operator listed
    · exact .builtinType scope classes enumerations listed
    · exact .symbol known near admitted
  · rintro (listed | listed | ⟨scope, classes, enumerations, listed⟩ | ⟨known, near, admitted⟩)
    · exact .inl (.inl (.inl ⟨_, listed, rfl⟩))
    · exact .inl (.inl (.inr ⟨_, listed, rfl⟩))
    · exact .inl (.inr ⟨⟨_, scope, classes, enumerations⟩, _, listed, rfl⟩)
    · exact .inr ⟨_, ⟨⟨known, admitted⟩, near⟩, rfl⟩

private theorem rank_of_mem_symbolsOfKind {kinds : List SymbolKind} {kind : SymbolKind}
    (scope : context.scope = some (.symbols kinds)) (listed : kind ∈ kinds)
    (member : symbol ∈ symbolsOfKind index context kind) :
    rank context (.ofSymbol symbol) = 3 + kinds.idxOf kind := by
  obtain ⟨_, rfl, _⟩ := (mem_symbolsOfKind reachable scope listed).mp member
  rw [rank_ofSymbol, scopeKinds, scope]
  rfl

/-- The candidates stand in the order of the context. -/
theorem firstLeast_candidates [Host] (files : List Path) :
    CompletionItem.FirstLeast (rank context) (candidates index context files) := by
  have keywords : ∀ item ∈ context.keywords.map .ofKeyword, rank context item = 0 := by
    simp
  have operators : ∀ item ∈ context.operators.map .ofOperator, rank context item = 1 := by
    simp
  have types : ∀ item ∈ (if admitsTypes context then builtinTypes.map .ofBuiltinType else []),
      rank context item = 2 := by
    split <;> simp
  have symbols : ∀ item ∈ (visible files (scopeSymbols index context)).map .ofSymbol,
      3 ≤ rank context item := by
    simp only [List.mem_map]
    rintro _ ⟨symbol, -, rfl⟩
    rw [rank_ofSymbol]
    exact Nat.le_add_right _ _
  have ofSymbols : CompletionItem.FirstLeast (rank context)
      ((visible files (scopeSymbols index context)).map .ofSymbol) := by
    unfold scopeSymbols
    split
    · next scope _ =>
        refine .of_const 3 ?_
        simp [scopeKinds, scope, CompletionScope.kinds]
    · next kinds scope =>
        simp only [visible, List.filter_flatMap, List.map_flatMap]
        refine .flatMap 3 fun kind listed item member => ?_
        obtain ⟨symbol, found, rfl⟩ := List.mem_map.mp member
        exact rank_of_mem_symbolsOfKind reachable scope listed (List.mem_of_mem_filter found)
    · exact .of_const 0 (by simp [visible])
  refine ((CompletionItem.FirstLeast.of_const 0 keywords).append (.of_const 1 operators) ?_).append
    (.of_const 2 types) ?_ |>.append ofSymbols ?_
  · intro item member other _
    rw [keywords item member]
    exact Nat.zero_le _
  · intro item member other member'
    rw [types other member']
    rcases List.mem_append.mp member with front | back
    · rw [keywords item front]; decide
    · rw [operators item back]; decide
  · intro item member other member'
    refine Nat.le_trans ?_ (symbols other member')
    rcases List.mem_append.mp member with front | back
    · rcases List.mem_append.mp front with front | back
      · rw [keywords item front]; decide
      · rw [operators item back]; decide
    · rw [types item back]; decide

/-- The first candidate of a label is the one that the context ranks lowest. -/
theorem find?_candidates [Host] {files : List Path} {label : String} {item : CompletionItem} :
    (candidates index context files).find? (·.label = label) = some item ↔
      item.label = label ∧ Offers index files context item ∧
        ∀ other, Offers index files context other → other.label = label →
          rank context item ≤ rank context other := by
  constructor
  · intro found
    refine ⟨by simpa using List.find?_some found,
      (mem_candidates reachable).mp (List.mem_of_find?_eq_some found), fun other offered => ?_⟩
    exact firstLeast_candidates reachable files found other ((mem_candidates reachable).mpr offered)
  · rintro ⟨same, offered, least⟩
    have some_ : ((candidates index context files).find? (·.label = label)).isSome :=
      List.find?_isSome.mpr ⟨item, (mem_candidates reachable).mpr offered, decide_eq_true same⟩
    obtain ⟨first, found⟩ := Option.isSome_iff_exists.mp some_
    have offeredFirst := (mem_candidates reachable).mp (List.mem_of_find?_eq_some found)
    have sameFirst : first.label = label := by simpa using List.find?_some found
    have equal : rank context first = rank context item :=
      Nat.le_antisymm
        (firstLeast_candidates reachable files found item ((mem_candidates reachable).mpr offered)
          same)
        (least first offeredFirst sameFirst)
    rw [found, eq_of_rank_eq offeredFirst offered (sameFirst.trans same.symm) equal]

end Found

theorem not_offers_nothing [Host] {index : SymbolIndex} {files : List Path}
    {item : CompletionItem} : ¬ Offers index files .nothing item := by
  intro offered
  cases offered with
  | keyword listed => cases listed
  | operator listed => cases listed
  | builtinType scope => cases scope
  | symbol _ _ admitted =>
      rcases admitted.kind_mem with listed | ⟨scope, _⟩
      · cases listed
      · cases scope

/-- Where symbols may be typed, the items are picked from candidates: all that the context admits,
each label with its lowest rank first. -/
theorem completions_eq_filtered [Host] {workspace : Workspace} (reachable : workspace.Reachable)
    (path : Path) (text : String) (line column : Nat) :
    let context := (workspace.completionContext path text line column).2.1
    let offers := Offers (workspace.ensureIndexed path.normalize text).1.index
      (workspace.involved path.normalize text) context
    ¬ context.isComment → ¬ context.isDefinitionName → context.scope ≠ some .suppress →
      context.scope ≠ some .usePath →
        ∃ pool, (workspace.completions path text line column).2 =
            CompletionItem.filtered (TypedText.word text line column) pool ∧
          (∀ item, item ∈ pool ↔ offers item) ∧
          ∀ label item, pool.find? (·.label = label) = some item ↔
            item.label = label ∧ offers item ∧
              ∀ other, offers other → other.label = label →
                rank context item ≤ rank context other := by
  intro context offers uncommented unnamed notSuppressed notUsePath
  cases loaded : workspace.grammar with
  | none =>
      have nothing : context = .nothing := by
        simp only [context, completionContext, loaded]
      have none_ (item : CompletionItem) : ¬ offers item := by
        simp only [offers, nothing]
        exact not_offers_nothing
      refine ⟨[], ?_, by simp [none_], by simp [none_]⟩
      simp only [completions, completionContext, loaded]
      rfl
  | some grammar =>
      have current := reachable.index_ensureIndexed loaded path.normalize text
      refine ⟨candidates _ context _, ?_, fun _ => mem_candidates current,
        fun _ _ => find?_candidates current⟩
      have asked : workspace.completionContext path text line column =
          ((workspace.ensureIndexed path.normalize text).1, context,
            workspace.involved path.normalize text) := by
        simp only [context, completionContext, loaded]
        rfl
      simp only [completions, asked, uncommented, unnamed, Bool.or_self, Bool.false_eq_true,
        if_false]

/-- **Offered are the labels of what the context admits and what matches the typed word, each with
the item that the context ranks lowest.** -/
theorem completions_offered [Host] {workspace : Workspace} (reachable : workspace.Reachable)
    (path : Path) (text : String) (line column : Nat) :
    let context := (workspace.completionContext path text line column).2.1
    let offers := Offers (workspace.ensureIndexed path.normalize text).1.index
      (workspace.involved path.normalize text) context
    let typed := TypedText.word text line column
    let items := (workspace.completions path text line column).2
    ¬ context.isComment → ¬ context.isDefinitionName → context.scope ≠ some .suppress →
      context.scope ≠ some .usePath →
        (items.map (·.label)).Nodup ∧
          (∀ label, label ∈ items.map (·.label) ↔
            CompletionItem.matchesTyped typed label ∧ ∃ item, offers item ∧ item.label = label) ∧
          ∀ item, item ∈ items ↔
            CompletionItem.matchesTyped typed item.label ∧ offers item ∧
              ∀ other, offers other → other.label = item.label →
                rank context item ≤ rank context other := by
  intro context offers typed items uncommented unnamed notSuppressed notUsePath
  obtain ⟨pool, itemsEq, mem_pool, find?_pool⟩ := completions_eq_filtered reachable path text line
    column uncommented unnamed notSuppressed notUsePath
  change items = CompletionItem.filtered typed pool at itemsEq
  refine ⟨itemsEq ▸ CompletionItem.nodup_labels_filtered typed pool, fun label => ?_,
    fun item => ?_⟩
  · rw [itemsEq, CompletionItem.mem_labels_filtered, and_comm, List.mem_map]
    simp only [mem_pool]
    rfl
  · rw [itemsEq, CompletionItem.mem_filtered_iff, find?_pool]
    simp [offers, context]

section Clash

/-- A node of a text of one line. -/
private def span (kind : String) (field : Option String) (start stop : Nat) (content : String)
    (children : List Tree.Node) : Tree.Node :=
  .node ⟨kind, field, start, stop, ⟨0, start⟩, ⟨0, stop⟩, some content.toUTF8.toList, false, false,
    0, 0⟩ children

private def attributeName : Tree.Node := span "name" (some "name") 2 3 "s" []

private def attributeNode : Tree.Node := span "attribute_declaration" none 2 3 "s" [attributeName]

private def clashClass : Tree.Node :=
  span "class_definition" none 0 4 "C s;"
    [span "name" (some "name") 0 1 "C" [], attributeNode, span ";" none 3 4 ";" []]

private def clashFile : Tree.Node := span "source_file" none 0 4 "C s;" [clashClass]

private def attributePlace : Tree.Place :=
  ⟨attributeName, [⟨attributeNode, 0⟩, ⟨clashClass, 1⟩, ⟨clashFile, 0⟩]⟩

/-- A grammar in which `String` is a keyword as well as a builtin type. -/
private def clashing : Grammar where
  parse := fun _ => clashFile
  nextSymbols := fun _ => [⟨"String", false⟩]
  definitions := [.withChild "attribute_declaration" (some "name")
    (.leaf "name" ["definition.attribute"]) []]
  references := []
  completions := [.leaf "class_definition" ["scope.class_enum_attribute"]]

section

open scoped Trial

private def oneClass : Workspace := ⟨some clashing, ∅, .initial .allowed, ∅⟩

end

private def classContext : CompletionContext where
  keywords := ["String"]
  operators := []
  scope := some (.symbols [.class, .enumeration, .attribute])
  isDefinitionName := false
  isComment := false
  typed := ""
  enclosingClass := some "C"
  enclosingStateMachine := none

private theorem classContext_eq :
    CompletionContext.atPosition clashing clashFile "C s;" 0 3 = classContext := by
  have found : Tree.Capture.grouped (clashing.completions.found (Tree.Place.root clashFile)) =
      [⟨"scope.class_enum_attribute", ⟨clashClass, [⟨clashFile, 0⟩]⟩⟩] := by rfl
  have column : Text.byteColumn (Text.lineAt "C s;".toList 0) 3 = 3 := by decide +kernel
  have scope : CompletionScope.atPoint? clashing clashFile ⟨0, 3⟩ = classContext.scope := by
    rw [CompletionScope.atPoint?, Tree.Query.captures, found, List.mergeSort_singleton]
    decide +kernel
  unfold CompletionContext.atPosition
  simp only [column, scope]
  decide +kernel

/-- The attribute of the class. -/
private def ownAttribute : SymbolEntry := ⟨"s", .attribute, "/w/a.ump", ⟨0, 2⟩, ⟨0, 3⟩, some "C"⟩

private theorem mem_symbolsOf_clashFile :
    ownAttribute ∈ SymbolIndex.symbolsOf clashing "/w/a.ump" "C s;" clashFile := by
  have found : ⟨"definition.attribute", attributePlace⟩ ∈
      clashing.definitions.captures (Tree.Place.root clashFile) := by
    rw [Tree.Query.captures, List.mem_mergeSort]
    exact List.mem_of_getElem? (i := 0) (by rfl)
  exact List.mem_filterMap.mpr ⟨_, found, by decide +kernel⟩

section

open scoped Trial

/-- What is a keyword as well as a type is offered as a keyword. -/
theorem completions_offered_clash :
    let items := (oneClass.completions (Path.ofText "/w/a.ump") "C s;" 0 3).2
    .ofKeyword "String" ∈ items ∧ .ofBuiltinType "String" ∉ items ∧
      "s" ∈ items.map (·.label) := by
  have reachable : oneClass.Reachable := fun grammar _ => SymbolIndex.Reachable.empty grammar
  have loaded : oneClass.grammar = some clashing := rfl
  have current := reachable.index_ensureIndexed loaded (Path.ofText "/w/a.ump").normalize "C s;"
  have context : (oneClass.completionContext (Path.ofText "/w/a.ump") "C s;" 0 3).2.1 =
      classContext := by
    rw [← classContext_eq]
    exact congrArg (CompletionContext.atPosition clashing · "C s;" 0 3) (current.treeFor_eq _ _)
  have known : ownAttribute ∈
      (oneClass.ensureIndexed (Path.ofText "/w/a.ump").normalize "C s;").1.index.fileSymbols
        ownAttribute.file := by
    have last := @text?_ensureIndexed_self _ _ _ "C s;" _ loaded (Path.isNormal_normalize _)
      (Path.isPlain_ofText "/w/a.ump").normalize
    have named : (Path.ofText "/w/a.ump").normalize.text = "/w/a.ump" := by decide +kernel
    rw [named] at last
    rw [current.fileSymbols_eq, Indexing.symbolsIn, show ownAttribute.file = "/w/a.ump" from rfl,
      last]
    exact mem_symbolsOf_clashFile
  have near : Path.normalized ownAttribute.file ∈
      oneClass.involved (Path.ofText "/w/a.ump").normalize "C s;" := mem_involved.mpr (.inl rfl)
  have offered := completions_offered reachable (Path.ofText "/w/a.ump") "C s;" 0 3
  simp only [context] at offered
  obtain ⟨-, labels, offered⟩ := offered (by decide) (by decide) (by decide) (by decide)
  refine ⟨(offered _).mpr ⟨by decide +kernel, .keyword (by decide), fun _ _ _ => Nat.zero_le _⟩,
    fun wrong => ?_, (labels _).mpr ⟨by decide +kernel, .ofSymbol ownAttribute, ?_, rfl⟩⟩
  · have least := ((offered _).mp wrong).2.2 (.ofKeyword "String") (.keyword (by decide)) rfl
    exact absurd least (by decide)
  · exact .symbol known near (.member rfl (by decide) (by decide) rfl rfl .refl)

end

end Clash

end ModelAssist.Workspace
