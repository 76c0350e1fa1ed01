import ModelAssist.Proofs.Symbol.Extraction
import ModelAssist.Proofs.Tree.Enclosing
import ModelAssist.Proofs.Workspace.Independence

/-!
# Definitions that are found from their bodies

What is indexed in the body of a class or a state machine is found from a word in that body, since
the container that a definition gets is the one in which the word is looked up.  A member of an
ancestor of the class is found as well, whether or not the class has one of that name itself
(`Workspace.definitions_of_body`).
-/

namespace ModelAssist

open Relation (ReflTransGen)
open SymbolIndex (Answers Declares Links)
open ModelAssist.Tree (Place)

/-- What is found at a position is a word. -/
theorem Reference.isWord_of_wordPlace? {root : Tree.Node} {content : String} {line column : Nat}
    {word : Place} (selected : wordPlace? root content line column = some word) : word.isWord := by
  simp only [wordPlace?] at selected
  split at selected
  · next isWord => exact Option.some.inj selected ▸ isWord
  · split at selected
    · cases selected
    · split at selected
      · next isWord => exact Option.some.inj selected ▸ isWord
      · cases selected

namespace Workspace

/-- Holds if a definition of a kind lies in the same body as a word: in the same class with a name
for members, and in the same outermost named state machine for states. -/
def SameBody (kind : SymbolKind) (word definition : Place) : Prop :=
  (kind.isMember ∧ ∃ owner, word.ClassAbove owner ∧ definition.ClassAbove owner ∧
      owner.node.name?.isSome) ∨
    kind = .state ∧ ∃ machine, word.MachineAbove machine ∧ definition.MachineAbove machine

section Scoped

variable {grammar : Grammar} {index : SymbolIndex} (reachable : index.Reachable grammar)
  {reference : Reference} {symbol : SymbolEntry} (declared : Declares grammar index.text? symbol)
  (asked : symbol.kind ∈ reference.kinds.getD []) (named : symbol.name = reference.word)
include reachable declared asked named

/-- A member of an ancestor of the class around a word is looked up. -/
theorem mem_scopedDefinitions_of_ancestor (member : symbol.kind.isMember) {container owner : String}
    (around : reference.enclosingClass = some container) (owned : symbol.container = some owner)
    (ancestor : ReflTransGen (fun child parent => parent ∈ index.inheritance.parents child)
      container owner) : symbol ∈ scopedDefinitions index reference := by
  have kind : symbol.kind ∈ (reference.kinds.getD []).filter (·.isMember) :=
    List.mem_filter.mpr ⟨asked, member⟩
  have linked : ReflTransGen (Links grammar index.text?) container owner :=
    ReflTransGen.mono (fun _ _ => (reachable.mem_parents _ _).mp) _ _ ancestor
  have some_ : ((reference.kinds.getD []).filter (·.isMember)).isEmpty = false := by
    rw [List.isEmpty_eq_false_iff]
    exact List.ne_nil_of_mem kind
  simp only [scopedDefinitions, around, some_, Bool.false_eq_true, if_false]
  apply List.mem_append_left
  rw [reachable.mem_lookup]
  refine ⟨declared, ?_, owner, owned, linked⟩
  simpa [SymbolFilter.admits, named] using ⟨asked, member⟩

/-- A state of the state machine around is defined in scope. -/
theorem mem_scopedDefinitions_of_state (state : symbol.kind = .state) {container : String}
    (around : reference.enclosingStateMachine = some container)
    (owned : symbol.container = some container) : symbol ∈ scopedDefinitions index reference := by
  have kind : (reference.kinds.getD []).contains .state = true := by
    rw [List.contains_iff_mem, ← state]
    exact asked
  simp only [scopedDefinitions, around, kind, if_true]
  apply List.mem_append_right
  rw [reachable.mem_lookup]
  exact ⟨declared, by simp [SymbolFilter.admits, state, named], container, owned, rfl⟩

/-- A definition in the body around a word is looked up. -/
theorem mem_scopedDefinitions_of_sameBody {word definition : Place} (isWord : word.isWord)
    (around : reference.enclosingClass = word.enclosingClass?)
    (aroundState : reference.enclosingStateMachine = word.rootStateMachine?)
    (sameBody : SameBody symbol.kind word definition)
    (owned : symbol.container = Extraction.container? symbol.kind definition) :
    symbol ∈ scopedDefinitions index reference := by
  obtain ⟨notClass, notMachine⟩ := Place.not_isBody_of_isWord isWord
  rcases sameBody with ⟨member, owner, above, own, isNamed⟩ | ⟨state, machine, above, own⟩
  · obtain ⟨container, isNamed⟩ := Option.isSome_iff_exists.mp isNamed
    apply mem_scopedDefinitions_of_ancestor reachable declared asked named member
    · exact around.trans ((above.enclosingClass?_eq notClass).trans isNamed)
    · rw [owned, Extraction.container?_of_isMember member, own.enclosingClass?_parent, isNamed]
    · exact .refl
  · obtain ⟨container, isNamed⟩ := Option.isSome_iff_exists.mp own.isSome_name?
    rw [state] at owned
    apply mem_scopedDefinitions_of_state reachable declared asked named state
    · exact aroundState.trans ((above.rootStateMachine?_eq notMachine).trans isNamed)
    · exact owned.trans (own.rootStateMachine?_parent.trans isNamed)

end Scoped

/-- The symbols that a text itself declares are indexed when something is looked up from it. -/
private theorem declares_of_capture [Host] {workspace : Workspace} {grammar : Grammar}
    (loaded : workspace.grammar = some grammar) {path : Path} (normal : path.IsNormal)
    (plain : path.IsPlain) {text : String} {capture : Tree.Capture}
    (captured : capture ∈ grammar.definitions.captures (Place.root (grammar.parse text)))
    {symbol : SymbolEntry} (own : symbol.file = path.text)
    (built : Extraction.symbol? path.text (Text.lines text.toList) capture.name capture.place =
      some symbol) :
    Declares grammar (workspace.ensureIndexed path text).1.index.text? symbol := by
  rw [Declares, Indexing.symbolsIn, own, text?_ensureIndexed_self loaded normal plain]
  exact List.mem_filterMap.mpr ⟨capture, captured, built⟩

section Loaded

variable {workspace : Workspace} {grammar : Grammar} (loaded : workspace.grammar = some grammar)
  (reachable : workspace.Reachable) {text : String} {line column : Nat} {word : Place}
  {kinds : List SymbolKind}
  (uncommented : ¬ Reference.isCommentAt (grammar.parse text) text line column)
  (selected : Reference.wordPlace? (grammar.parse text) text line column = some word)
  (asked : Reference.kindsAt? grammar (grammar.parse text) word = some kinds)
include loaded reachable uncommented selected asked

/-- What is looked up for a word in the involved files is found. -/
private theorem mem_definitions_of_scoped [Host] {path : Path} {symbol : SymbolEntry}
    (near : Path.normalized symbol.file ∈ workspace.involved path.normalize text)
    (inScope : symbol ∈ scopedDefinitions (workspace.ensureIndexed path.normalize text).1.index
      ⟨word.node.text, some kinds, word.enclosingClass?, word.rootStateMachine?⟩) :
    symbol ∈ (workspace.definitions path text line column).2 := by
  rw [mem_definitions loaded reachable]
  have found : symbol ∈ visible (workspace.involved path.normalize text)
      (scopedDefinitions (workspace.ensureIndexed path.normalize text).1.index
        ⟨word.node.text, some kinds, word.enclosingClass?, word.rootStateMachine?⟩) :=
    List.mem_filter.mpr ⟨inScope, List.contains_iff_mem.mpr near⟩
  refine ⟨uncommented, _, ?_, (mem_definitionsIn_of_scoped found).mpr found⟩
  rw [Reference.atPosition?, selected, Option.map_some, asked]

/-- **What is indexed in a body is found from that body.**  From a word in a body the definitions of
that name and of the kinds that the word may name are found, if they lie in the same body.  Members
that involved files declare in an ancestor of the class around the word are found as well. -/
theorem definitions_of_body [Host] (file : String) :
    (∀ capture ∈ grammar.definitions.captures (Place.root (grammar.parse text)),
      ∀ kind ∈ kinds, capture.name = Extraction.definitionTag ++ kind.name →
        ¬ capture.place.info.isMissing → capture.place.node.text = word.node.text →
          SameBody kind word capture.place →
            let built := Extraction.symbol? (Path.normalized file).text (Text.lines text.toList)
              capture.name capture.place
            (word.node.text ≠ "" → built.isSome) ∧ ∀ symbol ∈ built,
              symbol ∈ (workspace.definitions (Path.ofText file) text line column).2) ∧
    ∀ container, word.enclosingClass? = some container →
      let indexed := workspace.ensureIndexed (Path.normalized file) text
      ∀ name, Path.normalized name ∈ indexed.2 →
        ∀ symbol ∈ indexed.1.index.fileSymbols name, symbol.kind.isMember → symbol.kind ∈ kinds →
          symbol.name = word.node.text → ∀ owner, symbol.container = some owner →
            ReflTransGen (fun child parent => parent ∈ indexed.1.index.inheritance.parents child)
              container owner →
                symbol ∈ (workspace.definitions (Path.ofText file) text line column).2 := by
  have normal : (Path.normalized file).IsNormal := Path.isNormal_normalize _
  have plain : (Path.normalized file).IsPlain := (Path.isPlain_ofText file).normalize
  have current := reachable.index_ensureIndexed loaded (Path.normalized file) text
  constructor
  · intro capture captured kind admitted tagged there sameText sameBody built
    refine ⟨fun named => ?_, fun symbol isBuilt => ?_⟩
    · simp only [built, tagged]
      exact Extraction.symbol?_isSome there (sameText.symm ▸ named)
    · have isBuilt : Extraction.symbol? (Path.normalized file).text (Text.lines text.toList)
          capture.name capture.place = some symbol := isBuilt
      obtain ⟨nameEq, kindEq, fileEq, owned⟩ := Extraction.symbol?_eq_some (tagged ▸ isBuilt)
      have declared := declares_of_capture loaded normal plain captured fileEq isBuilt
      have near : Path.normalized symbol.file ∈ workspace.involved (Path.normalized file) text := by
        rw [fileEq, normal.normalized_text plain]
        exact mem_involved.mpr (Or.inl rfl)
      apply mem_definitions_of_scoped loaded reachable uncommented selected asked near
      exact mem_scopedDefinitions_of_sameBody current declared (kindEq ▸ admitted)
        (nameEq.trans sameText) (Reference.isWord_of_wordPlace? selected) rfl rfl
        (kindEq ▸ sameBody) (kindEq ▸ owned)
  · intro container around indexed name near symbol listed member admitted named owner owned
      ancestor
    rw [current.fileSymbols_eq] at listed
    have fileEq := Indexing.file_of_mem_symbolsIn grammar listed
    have declared : Declares grammar indexed.1.index.text? symbol := by
      rw [Declares, fileEq]
      exact listed
    apply mem_definitions_of_scoped loaded reachable uncommented selected asked (fileEq.symm ▸ near)
    exact mem_scopedDefinitions_of_ancestor current declared admitted named member around owned
      ancestor

end Loaded

section Nested

/-- A node of a text of one line. -/
private def segment (kind : String) (field : Option String) (start stop : Nat) (content : String)
    (children : List Tree.Node) : Tree.Node :=
  .node ⟨kind, field, start, stop, ⟨0, start⟩, ⟨0, stop⟩, some content.toUTF8.toList, false, false,
    0, 0⟩ children

private def stateName : Tree.Node := segment "identifier" (some "name") 2 3 "s" []

private def stateNode : Tree.Node := segment "state" none 2 3 "" [stateName]

private def goal : Tree.Node := segment "identifier" none 6 7 "s" []

private def transition : Tree.Node := segment "transition" none 6 7 "" [goal]

private def innerMachine : Tree.Node :=
  segment "state_machine" none 4 7 "" [segment "identifier" (some "name") 4 5 "n" [], transition]

private def outerMachine : Tree.Node :=
  segment "state_machine" none 0 7 ""
    [segment "identifier" (some "name") 0 1 "m" [], stateNode, innerMachine]

private def machines : Tree.Node := segment "source_file" none 0 7 "m s n s" [outerMachine]

/-- A grammar that knows a state machine with a state and a machine in it that leads to the
state. -/
private def nested : Grammar where
  parse := fun _ => machines
  nextSymbols := fun _ => []
  definitions := [.withChild "state" (some "name") (.leaf "identifier" ["definition.state"]) []]
  references := [.withChild "transition" none (.leaf "identifier" ["reference.state"]) []]
  completions := []

private def outerPlace : Place := ⟨outerMachine, [⟨machines, 0⟩]⟩

private def goalPlace : Place :=
  ⟨goal, [⟨transition, 0⟩, ⟨innerMachine, 1⟩, ⟨outerMachine, 2⟩, ⟨machines, 0⟩]⟩

private def statePlace : Place := ⟨stateName, [⟨stateNode, 0⟩, ⟨outerMachine, 1⟩, ⟨machines, 0⟩]⟩

section

open scoped Trial

private def unindexed : Workspace := ⟨some nested, ∅, .initial .allowed, ∅⟩

/-- A state of the outer machine is found from the inner one. -/
theorem definitions_of_nested_body :
    ⟨"s", .state, "/w/a.ump", ⟨0, 2⟩, ⟨0, 3⟩, some "m"⟩ ∈
      (unindexed.definitions (Path.ofText "/w/a.ump") "m s n s" 0 6).2 := by
  have loaded : unindexed.grammar = some nested := rfl
  have reachable : unindexed.Reachable := fun grammar _ => SymbolIndex.Reachable.empty grammar
  have selected : Reference.wordPlace? machines "m s n s" 0 6 = some goalPlace := by rfl
  have asked : Reference.kindsAt? nested machines goalPlace = some [.state] := by decide +kernel
  have captured : ⟨"definition.state", statePlace⟩ ∈
      nested.definitions.captures (Place.root machines) := by
    rw [Tree.Query.captures, List.mem_mergeSort]
    exact List.mem_of_getElem? (i := 0) (by rfl)
  have sameBody : SameBody .state goalPlace statePlace := by
    have named : outerMachine.name?.isSome := by decide +kernel
    have outermost : ∀ other ∈ [Place.root machines], other.isStateMachine →
        other.node.name? = none := by
      intro other member isMachine
      rw [List.mem_singleton.mp member] at isMachine
      exact absurd isMachine (by decide)
    refine Or.inr ⟨rfl, outerPlace, ?_, ?_⟩
    · exact ⟨[_, _], _, rfl, by decide, named, outermost⟩
    · exact ⟨[_], _, rfl, by decide, named, outermost⟩
  obtain ⟨own, -⟩ := definitions_of_body loaded reachable (by decide +kernel) selected asked
    "/w/a.ump"
  obtain ⟨-, found⟩ := own _ captured .state (by decide) rfl (by decide) rfl sameBody
  exact found _ (by decide +kernel)

end

end Nested

end Workspace

end ModelAssist
