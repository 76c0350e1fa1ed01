import ModelAssist.Proofs.Completion.Item
import ModelAssist.Proofs.Workspace.Lookup
import ModelAssist.Workspace.Completion
import ModelAssist.Workspace.Definition

/-!
# Lookups and what was indexed before

Definitions and completions depend on the grammar, the open documents and the files, but hardly on
what was indexed before.  Since containers are known by their names, an `isA` clause of any indexed
file extends the ancestors of a class, and since files are known by the names that they were indexed
under, a file counts under every spelling of its path.  Nothing else of the past is seen
(`Workspace.lookups_congr`).
-/

namespace ModelAssist

open CompletionItem (mem_labels_filtered)

namespace Workspace

/-- Workspaces that differ at most in what was indexed. -/
structure Twins (first second : Workspace) : Prop where
  grammar : first.grammar = second.grammar
  documents : first.documents = second.documents
  files : first.files = second.files

/-- The class around the identifier at a position of a text. -/
def definitionClass? (grammar : Grammar) (text : String) (line column : Nat) : Option String :=
  (Reference.atPosition? grammar (grammar.parse text) text line column).bind (·.enclosingClass)

/-- The class around a cursor in a text. -/
def completionClass? (grammar : Grammar) (text : String) (line column : Nat) : Option String :=
  (CompletionContext.atPosition grammar (grammar.parse text) text line column).enclosingClass

section

variable [Host]

/-- Holds if no file that a lookup involves is also indexed under another spelling, and the other
indexed files add no ancestors with members in those files to the class around the position. -/
def Undisturbed (workspace : Workspace) (path : Path) (text : String)
    (class? : Grammar → Option String) : Prop :=
  workspace.Unaliased path text ∧ ∀ grammar, workspace.grammar = some grammar →
    ∀ container ∈ class? grammar, workspace.Uninherited path text grammar container

/-- Holds of two indexes that answer alike in some files, as far as ancestors are asked for of one
class only, and only for their members. -/
def Agree (files : List Path) (class? : Option String) (first second : SymbolIndex) : Prop :=
  ∀ query : SymbolQuery,
    (query.inherited → (∀ symbol, query.filter.admits symbol → symbol.kind.isMember) ∧
      query.container = class?) →
    ∀ symbol, symbol ∈ visible files (first.lookup query) ↔
      symbol ∈ visible files (second.lookup query)

namespace Agree

variable {files : List Path} {class? : Option String} {first second : SymbolIndex}

theorem own (agree : Agree files class? first second) (container : Option String)
    (filter : SymbolFilter) (symbol : SymbolEntry) :
    symbol ∈ visible files (first.lookup ⟨container, filter, false⟩) ↔
      symbol ∈ visible files (second.lookup ⟨container, filter, false⟩) :=
  agree ⟨container, filter, false⟩ nofun symbol

theorem members (agree : Agree files class? first second) {container : String}
    (around : class? = some container) {kinds : List SymbolKind}
    (members : ∀ kind ∈ kinds, kind.isMember) (name : Option String) (symbol : SymbolEntry) :
    symbol ∈ visible files (first.lookup ⟨some container, ⟨some kinds, name⟩, true⟩) ↔
      symbol ∈ visible files (second.lookup ⟨some container, ⟨some kinds, name⟩, true⟩) := by
  refine agree ⟨some container, ⟨some kinds, name⟩, true⟩ (fun _ => ⟨?_, around.symm⟩) symbol
  intro symbol admitted
  simp only [SymbolFilter.admits, Bool.and_eq_true, List.contains_iff_mem] at admitted
  exact members symbol.kind admitted.1

theorem scopedDefinitions {reference : Reference}
    (agree : Agree files reference.enclosingClass first second) (symbol : SymbolEntry) :
    symbol ∈ visible files (scopedDefinitions first reference) ↔
      symbol ∈ visible files (scopedDefinitions second reference) := by
  simp only [Workspace.scopedDefinitions, visible, List.filter_append, List.mem_append]
  refine or_congr ?_ ?_
  · cases around : reference.enclosingClass with
    | none => exact Iff.rfl
    | some container =>
        dsimp only
        split
        · exact Iff.rfl
        · exact agree.members around (fun kind member => (List.mem_filter.mp member).2) _ symbol
  · cases reference.enclosingStateMachine with
    | none => exact Iff.rfl
    | some container =>
        dsimp only
        split
        · exact agree.own _ _ symbol
        · exact Iff.rfl

theorem definitionsIn {reference : Reference}
    (agree : Agree files reference.enclosingClass first second) (symbol : SymbolEntry) :
    symbol ∈ definitionsIn first files reference ↔
      symbol ∈ definitionsIn second files reference := by
  have inScope := agree.scopedDefinitions
  unfold Workspace.definitionsIn
  generalize visible files (Workspace.scopedDefinitions first reference) = found at inScope
  generalize visible files (Workspace.scopedDefinitions second reference) = found' at inScope
  cases found with
  | nil =>
      have none_ : found' = [] := List.eq_nil_iff_forall_not_mem.mpr fun other member =>
        List.not_mem_nil ((inScope other).mpr member)
      rw [none_]
      exact agree.own _ _ symbol
  | cons head tail =>
      cases found' with
      | nil => exact absurd ((inScope head).mp List.mem_cons_self) List.not_mem_nil
      | cons head' tail' => exact inScope symbol

theorem symbolsOfKind {context : CompletionContext}
    (agree : Agree files context.enclosingClass first second) (kind : SymbolKind)
    (symbol : SymbolEntry) :
    symbol ∈ visible files (symbolsOfKind first context kind) ↔
      symbol ∈ visible files (symbolsOfKind second context kind) := by
  simp only [Workspace.symbolsOfKind]
  split
  · next isMember =>
      cases around : context.enclosingClass with
      | none => exact Iff.rfl
      | some container =>
          refine agree.members around (fun other member => ?_) none symbol
          rw [List.mem_singleton.mp member]
          exact isMember
  · split
    · cases context.enclosingStateMachine with
      | none => exact Iff.rfl
      | some container => exact agree.own _ _ symbol
    · exact agree.own _ _ symbol

theorem scopeSymbols {context : CompletionContext}
    (agree : Agree files context.enclosingClass first second) (symbol : SymbolEntry) :
    symbol ∈ visible files (scopeSymbols first context) ↔
      symbol ∈ visible files (scopeSymbols second context) := by
  unfold Workspace.scopeSymbols
  split
  · exact agree.own _ _ symbol
  · next kinds _ =>
      have distributed : ∀ index : SymbolIndex,
          symbol ∈ visible files (kinds.flatMap (Workspace.symbolsOfKind index context)) ↔
            ∃ kind ∈ kinds,
              symbol ∈ visible files (Workspace.symbolsOfKind index context kind) := by
        intro index
        simp only [visible, List.mem_filter, List.mem_flatMap]
        constructor
        · rintro ⟨⟨kind, member, found⟩, seen⟩
          exact ⟨kind, member, found, seen⟩
        · rintro ⟨kind, member, found, seen⟩
          exact ⟨⟨kind, member, found⟩, seen⟩
      rw [distributed, distributed]
      exact exists_congr fun kind => and_congr_right fun _ => agree.symbolsOfKind kind symbol
  · exact Iff.rfl

end Agree

/-- The labels that a context admits are the same. -/
theorem Agree.labels_candidates {files : List Path} {context : CompletionContext}
    {first second : SymbolIndex} (agree : Agree files context.enclosingClass first second)
    (label : String) :
    label ∈ (candidates first context files).map (·.label) ↔
      label ∈ (candidates second context files).map (·.label) := by
  simp only [candidates, List.map_append, List.map_map, List.mem_append]
  refine or_congr_right ?_
  simp only [List.mem_map]
  exact exists_congr fun symbol => and_congr_left fun _ => agree.scopeSymbols symbol

theorem Reachable.definitions {workspace : Workspace} (reachable : workspace.Reachable)
    (path : Path) (text : String) (line column : Nat) :
    (workspace.definitions path text line column).1.Reachable := by
  unfold Workspace.definitions
  split
  · exact reachable
  · dsimp only
    split
    · exact reachable
    · split
      · exact reachable
      · exact reachable.ensureIndexed path.normalize text

/-- A completion that is asked for leaves the index reachable. -/
theorem Reachable.completions {workspace : Workspace} (reachable : workspace.Reachable)
    (path : Path) (text : String) (line column : Nat) :
    (workspace.completions path text line column).1.Reachable := by
  change (workspace.completionContext path text line column).1.Reachable
  unfold completionContext
  split
  · exact reachable
  · exact reachable.ensureIndexed path.normalize text

/-- The items that a context admits at a position, from an index of some files. -/
def itemsIn (workspace : Workspace) (path : Path) (text : String) (line column : Nat)
    (context : CompletionContext) (index : SymbolIndex) (files : List Path) :
    List CompletionItem :=
  if context.isComment || context.isDefinitionName then []
  else
    match context.scope with
    | some .suppress => []
    | some .usePath => workspace.fileItems path (TypedText.usePath text line column)
    | _ =>
      CompletionItem.filtered (TypedText.word text line column) (candidates index context files)

section Loaded

variable {workspace : Workspace} {grammar : Grammar} (loaded : workspace.grammar = some grammar)
  (reachable : workspace.Reachable)
include loaded reachable

/-- The definitions at a position are those of the reference there, unless it lies in a comment. -/
theorem mem_definitions {path : Path} {text : String} {line column : Nat} {symbol : SymbolEntry} :
    symbol ∈ (workspace.definitions path text line column).2 ↔
      ¬ Reference.isCommentAt (grammar.parse text) text line column ∧
        ∃ reference, Reference.atPosition? grammar (grammar.parse text) text line column =
            some reference ∧
          symbol ∈ definitionsIn (workspace.ensureIndexed path.normalize text).1.index
            (workspace.involved path.normalize text) reference := by
  have tree := (reachable grammar loaded).treeFor_eq path.normalize.text text
  simp only [definitions, loaded, tree]
  by_cases comment : Reference.isCommentAt (grammar.parse text) text line column = true
  · simp [comment]
  · rw [if_neg comment]
    cases Reference.atPosition? grammar (grammar.parse text) text line column with
    | none => simp
    | some reference => simp [comment, ensureIndexed]

/-- The items at a position are those that its context admits. -/
theorem completions_eq (path : Path) (text : String) (line column : Nat) :
    (workspace.completions path text line column).2 =
      workspace.itemsIn path text line column
        (CompletionContext.atPosition grammar (grammar.parse text) text line column)
        (workspace.ensureIndexed path.normalize text).1.index
        (workspace.involved path.normalize text) := by
  have tree := (reachable.index_ensureIndexed loaded path.normalize text).treeFor_eq
    path.normalize.text text
  have beside : ∀ typed, (workspace.ensureIndexed path.normalize text).1.fileItems path typed =
      workspace.fileItems path typed := by
    intro typed
    obtain ⟨index, indexed⟩ := workspace.ensureIndexed_eq path.normalize text
    rw [indexed]
    rfl
  have pair : workspace.ensureIndexed path.normalize text =
      ((workspace.ensureIndexed path.normalize text).1,
        workspace.involved path.normalize text) := rfl
  simp only [completions, completionContext, loaded]
  rw [pair]
  simp only [tree, beside]
  rfl

end Loaded

end

namespace Twins

variable {first second : Workspace} (twins : first.Twins second) (reachable : first.Reachable)
  (reachable' : second.Reachable)
include twins reachable reachable'

theorem imports_eq : first.imports = second.imports := by
  have statements : first.useStatements = second.useStatements := by
    funext path text
    rw [reachable.useStatements_eq, reachable'.useStatements_eq, twins.grammar]
  rw [imports, imports, statements, twins.documents, twins.files]

/-- The same files are involved in both workspaces. -/
theorem involved_eq [Host] (path : Path) (text : String) :
    first.involved path text = second.involved path text := by
  let listed (graph : ImportGraph) : List Path :=
    let reached := graph.reachable path text path.parent
    Path.sort (if reached.contains path then reached else path :: reached)
  exact congrArg listed (twins.imports_eq reachable reachable')

/-- The same texts are seen from both workspaces. -/
theorem seen?_eq [Host] (path : Path) (text : String) (file : Path) :
    first.seen? path text file = second.seen? path text file := by
  rw [seen?, seen?, twins.imports_eq reachable reachable']

theorem near_eq [Host] (path : Path) (text : String) :
    first.near path text = second.near path text := by
  funext file
  unfold near nearFiles
  rw [twins.involved_eq reachable reachable', twins.seen?_eq reachable reachable']

variable [Host] {grammar : Grammar} (loaded : first.grammar = some grammar) {path : Path}
  (normal : path.IsNormal) (plain : path.IsPlain) {text : String}
  (readable : first.Readable path text)
include loaded normal plain readable

/-- Indexes that are undisturbed around a position answer alike there. -/
theorem agree {class? : Grammar → Option String} (undisturbed : first.Undisturbed path text class?)
    (undisturbed' : second.Undisturbed path text class?) :
    Agree (first.involved path text) (class? grammar) (first.ensureIndexed path text).1.index
      (second.ensureIndexed path text).1.index := by
  intro query inherited symbol
  have loaded' : second.grammar = some grammar := twins.grammar ▸ loaded
  have involved := twins.involved_eq reachable reachable' path text
  have near := twins.near_eq reachable reachable' path text
  have readable' : second.Readable path text := by
    intro file member
    rw [← twins.seen?_eq reachable reachable']
    exact readable file (involved ▸ member)
  rw [mem_visible_lookup loaded reachable normal plain readable undisturbed.1, near, involved,
    mem_visible_lookup loaded' reachable' normal plain readable' undisturbed'.1]
  · intro ancestors
    obtain ⟨members, around⟩ := inherited ancestors
    exact ⟨members, fun container same => undisturbed'.2 grammar loaded' container (around ▸ same)⟩
  · intro ancestors
    obtain ⟨members, around⟩ := inherited ancestors
    exact ⟨members, fun container same => undisturbed.2 grammar loaded container (around ▸ same)⟩

end Twins

/-- **Lookups do not depend on what was indexed before, as far as that is undisturbed.**  In two
workspaces with one grammar, the same open documents and the same files, whatever was indexed
before, a position of a text has the same definitions and is offered the same labels. -/
theorem lookups_congr [Host] {first second : Workspace} (twins : first.Twins second)
    (reachable : first.Reachable) (reachable' : second.Reachable) (file text : String)
    (line column : Nat) (readable : first.Readable (Path.normalized file) text) :
    (first.Undisturbed (Path.normalized file) text (definitionClass? · text line column) →
      second.Undisturbed (Path.normalized file) text (definitionClass? · text line column) →
      ∀ symbol, symbol ∈ (first.definitions (Path.ofText file) text line column).2 ↔
        symbol ∈ (second.definitions (Path.ofText file) text line column).2) ∧
    (first.Undisturbed (Path.normalized file) text (completionClass? · text line column) →
      second.Undisturbed (Path.normalized file) text (completionClass? · text line column) →
      ∀ label, label ∈ (first.completions (Path.ofText file) text line column).2.map (·.label) ↔
        label ∈ (second.completions (Path.ofText file) text line column).2.map (·.label)) := by
  have normal : (Path.normalized file).IsNormal := Path.isNormal_normalize _
  have plain : (Path.normalized file).IsPlain := (Path.isPlain_ofText file).normalize
  cases loaded : first.grammar with
  | none =>
      have loaded' : second.grammar = none := twins.grammar ▸ loaded
      simp [definitions, completions, completionContext, loaded, loaded', candidates, scopeSymbols,
        admitsTypes, visible, CompletionContext.nothing]
  | some grammar =>
      have loaded' : second.grammar = some grammar := twins.grammar ▸ loaded
      have involved := twins.involved_eq reachable reachable' (Path.ofText file).normalize text
      constructor
      · intro undisturbed undisturbed' symbol
        have agree := twins.agree reachable reachable' loaded normal plain readable undisturbed
          undisturbed'
        rw [mem_definitions loaded reachable, mem_definitions loaded' reachable']
        refine and_congr_right fun _ =>
          exists_congr fun reference => and_congr_right fun found => ?_
        have same : definitionClass? grammar text line column = reference.enclosingClass := by
          rw [definitionClass?, found]
          rfl
        rw [same] at agree
        rw [← involved]
        exact agree.definitionsIn symbol
      · intro undisturbed undisturbed' label
        have agree := twins.agree reachable reachable' loaded normal plain readable undisturbed
          undisturbed'
        rw [completions_eq loaded reachable, completions_eq loaded' reachable', itemsIn, itemsIn]
        split
        · exact Iff.rfl
        · split
          · exact Iff.rfl
          · rw [fileItems, fileItems, twins.files]
          · rw [mem_labels_filtered, mem_labels_filtered, ← involved]
            exact and_congr_left fun _ => agree.labels_candidates label

/-- A node of a text of one line. -/
private def lineNode (kind : String) (field : Option String) (start stop : Nat) (content : String)
    (children : List Tree.Node) : Tree.Node :=
  .node ⟨kind, field, start, stop, ⟨0, start⟩, ⟨0, stop⟩, some content.toUTF8.toList, false, false,
    0, 0⟩ children

/-- A named node of one character and what follows in it. -/
private def namedNode (kind : String) (start stop : Nat) (name : String)
    (rest : List Tree.Node) : Tree.Node :=
  lineNode kind none start stop "" (lineNode "identifier" (some "name") start (start + 1) name [] ::
    rest)

private def twoClasses : String := "C m m D m"

private def oneParent : String := "C isA D"

private def twoTexts : Grammar where
  parse := fun text =>
    if text = twoClasses then
      lineNode "source_file" none 0 9 text
        [namedNode "class_definition" 0 5 "C"
            [lineNode "action_code" none 2 3 "" [lineNode "identifier" none 2 3 "m" []],
              namedNode "method_declaration" 4 5 "m" []],
          namedNode "class_definition" 6 9 "D" [namedNode "method_declaration" 8 9 "m" []]]
    else if text = oneParent then
      lineNode "source_file" none 0 7 text
        [namedNode "class_definition" 0 7 "C"
          [lineNode "isa_declaration" none 2 7 "" [lineNode "type_list" none 6 7 ""
            [lineNode "type_name" none 6 7 "" [lineNode "qualified_name" none 6 7 "D" []]]]]]
    else lineNode "source_file" none 0 0 text []
  nextSymbols := fun _ => []
  definitions := [.withChild "method_declaration" (some "name")
    (.leaf "identifier" ["definition.method"]) []]
  references := [.withChild "action_code" none (.leaf "identifier" ["reference.method"]) []]
  completions := []

section

open scoped Trial

private def fresh : Workspace := ⟨some twoTexts, ∅, .initial .allowed, ∅⟩

/-- The workspace after a file got a text. -/
private def after (file text : String) : Workspace := (fresh.indexFile file (some text)).1

end

private def ownPath : Path := ⟨.root, ["w", "a.ump"]⟩

private def methodAt (file : String) (column : Nat) (container : String) : SymbolEntry :=
  ⟨"m", .method, file, ⟨0, column⟩, ⟨0, column + 1⟩, some container⟩

private def ownReference : Reference := ⟨"m", some [.method], some "C", none⟩

private def names : List String := ["/w/a.ump", "/w/./a.ump", "/w/y.ump"]

/-- The methods of the two classes. -/
private theorem mem_symbolsOf_twoClasses {file : String} (named : file ∈ names)
    {symbol : SymbolEntry} :
    symbol ∈ SymbolIndex.symbolsOf twoTexts file twoClasses (twoTexts.parse twoClasses) ↔
      symbol = methodAt file 4 "C" ∨ symbol = methodAt file 8 "D" := by
  have unsorted : ∀ file ∈ names, ((Tree.Capture.grouped (twoTexts.definitions.found
      (Tree.Place.root (twoTexts.parse twoClasses)))).filterMap fun capture =>
        Extraction.symbol? file (Text.lines twoClasses.toList) capture.name capture.place) =
      [methodAt file 4 "C", methodAt file 8 "D"] := by decide +kernel
  simp only [SymbolIndex.symbolsOf, Extraction.symbols, Tree.Query.captures, List.mem_filterMap,
    List.mem_mergeSort]
  rw [← List.mem_filterMap, unsorted file named]
  simp

private theorem not_links {texts : String → Option String}
    (all : ∀ file text, texts file = some text → text = twoClasses) (child parent : String) :
    ¬ SymbolIndex.Links twoTexts texts child parent := by
  rintro ⟨file, named⟩
  have none_ : Extraction.inheritance (twoTexts.parse twoClasses) = ⟨[]⟩ :=
    congrArg OrderedMap.mk
      (show (Extraction.inheritance (twoTexts.parse twoClasses)).entries = [] by decide +kernel)
  unfold Indexing.parentsIn at named
  split at named
  · next text last =>
      rw [all file text last, none_] at named
      cases named
  · cases named

private theorem eq_of_no_links {texts : String → Option String}
    (all : ∀ file text, texts file = some text → text = twoClasses) {child ancestor : String}
    (found : Relation.ReflTransGen (SymbolIndex.Links twoTexts texts) child ancestor) :
    ancestor = child := by
  cases found with
  | refl => rfl
  | tail _ links => exact absurd links (not_links all _ _)

section

open scoped Trial

private theorem reachable_fresh : fresh.Reachable :=
  fun grammar _ => SymbolIndex.Reachable.empty grammar

private theorem reachable_after (file text : String) : (after file text).Reachable :=
  reachable_fresh.indexFile file (some text)

private theorem twins_after (file text : String) : fresh.Twins (after file text) := ⟨rfl, rfl, rfl⟩

private theorem normalized_own : Path.normalized "/w/a.ump" = ownPath := by decide +kernel

private theorem normal_own : ownPath.IsNormal := normalized_own ▸ Path.isNormal_normalize _

private theorem plain_own : ownPath.IsPlain :=
  normalized_own ▸ (Path.isPlain_ofText "/w/a.ump").normalize

private theorem involved_fresh : fresh.involved ownPath twoClasses = [ownPath] := by
  have statements : fresh.useStatements ownPath twoClasses = [] := by
    rw [reachable_fresh.useStatements_eq]
    decide +kernel
  have reached : fresh.reachable ownPath twoClasses = [] := by
    simp only [Workspace.reachable, ImportGraph.reachable, ImportGraph.targets, imports, statements,
      List.filter_nil, List.map_nil, ImportGraph.reachedFrom, Walk.reached, Walk.visit]
  simp [involved, reached, Path.sort]

private theorem readable_fresh : fresh.Readable ownPath twoClasses := by
  intro file member
  rw [involved_fresh, List.mem_singleton] at member
  rw [member, seen?, if_pos rfl]
  rfl

end

theorem mem_definitionsIn_of_scoped [Host] {index : SymbolIndex} {files : List Path}
    {reference : Reference} {inScope symbol : SymbolEntry}
    (found : inScope ∈ visible files (scopedDefinitions index reference)) :
    symbol ∈ definitionsIn index files reference ↔
      symbol ∈ visible files (scopedDefinitions index reference) := by
  unfold definitionsIn
  split
  · next none_ =>
      rw [none_] at found
      cases found
  · exact Iff.rfl

section Past

variable {past : Workspace} (twins : fresh.Twins past) (reachable : past.Reachable)
include twins reachable

section

open scoped Trial

private theorem known_past (file : String) :
    past.known ownPath twoClasses file =
      if file = "/w/a.ump" then some twoClasses else past.index.text? file := by
  have involved := twins.involved_eq reachable_fresh reachable ownPath twoClasses
  have own : ownPath.text = "/w/a.ump" := by decide +kernel
  have read : Path.ofText "/w/a.ump" = ownPath := by decide +kernel
  simp only [known, nearFiles, ← involved, involved_fresh, List.map_singleton, List.mem_singleton,
    own]
  split
  · next same => rw [same, read, seen?, if_pos rfl]
  · rfl

private theorem declares_past {symbol : SymbolEntry}
    (method : symbol = methodAt "/w/a.ump" 4 "C" ∨ symbol = methodAt "/w/a.ump" 8 "D") :
    SymbolIndex.Declares twoTexts (past.known ownPath twoClasses) symbol := by
  have inFile : symbol.file = "/w/a.ump" := by rcases method with rfl | rfl <;> rfl
  have text := known_past twins reachable symbol.file
  rw [if_pos inFile] at text
  unfold SymbolIndex.Declares Indexing.symbolsIn
  rw [text, inFile]
  exact (mem_symbolsOf_twoClasses List.mem_cons_self).mpr method

private theorem mem_scoped_past {symbol : SymbolEntry} :
    symbol ∈ visible (past.involved ownPath twoClasses)
        (scopedDefinitions (past.ensureIndexed ownPath twoClasses).1.index ownReference) ↔
      SymbolIndex.Answers twoTexts (past.known ownPath twoClasses)
          ⟨some "C", ⟨some [.method], some "m"⟩, true⟩ symbol ∧
        Path.normalized symbol.file = ownPath := by
  have loaded : past.grammar = some twoTexts := twins.grammar.symm
  have readable : past.Readable ownPath twoClasses := by
    intro file member
    rw [← twins.involved_eq reachable_fresh reachable] at member
    rw [← twins.seen?_eq reachable_fresh reachable]
    exact readable_fresh file member
  have asked : scopedDefinitions (past.ensureIndexed ownPath twoClasses).1.index ownReference =
      (past.ensureIndexed ownPath twoClasses).1.index.lookup
        ⟨some "C", ⟨some [.method], some "m"⟩, true⟩ := List.append_nil _
  rw [asked, visible, List.mem_filter, List.contains_iff_mem,
    (reachable.index_ensureIndexed loaded ownPath twoClasses).mem_lookup,
    text?_ensureIndexed loaded normal_own plain_own readable,
    ← twins.involved_eq reachable_fresh reachable, involved_fresh, List.mem_singleton]

private theorem mem_definitions_past {symbol : SymbolEntry} :
    symbol ∈ (past.definitions (Path.ofText "/w/a.ump") twoClasses 0 2).2 ↔
      SymbolIndex.Answers twoTexts (past.known ownPath twoClasses)
          ⟨some "C", ⟨some [.method], some "m"⟩, true⟩ symbol ∧
        Path.normalized symbol.file = ownPath := by
  have loaded : past.grammar = some twoTexts := twins.grammar.symm
  have found : Reference.atPosition? twoTexts (twoTexts.parse twoClasses) twoClasses 0 2 =
      some ownReference := by decide +kernel
  have uncommented : ¬ Reference.isCommentAt (twoTexts.parse twoClasses) twoClasses 0 2 := by
    decide +kernel
  have ownMethod : methodAt "/w/a.ump" 4 "C" ∈ visible (past.involved ownPath twoClasses)
      (scopedDefinitions (past.ensureIndexed ownPath twoClasses).1.index ownReference) := by
    refine (mem_scoped_past twins reachable).mpr ⟨⟨?_, by decide, "C", rfl, .refl⟩, normalized_own⟩
    exact declares_past twins reachable (Or.inl rfl)
  have ownPath_ : (Path.ofText "/w/a.ump").normalize = ownPath := normalized_own
  rw [mem_definitions loaded reachable, ownPath_, found, ← mem_scoped_past twins reachable]
  constructor
  · rintro ⟨_, reference, same, defined⟩
    rw [← Option.some.inj same] at defined
    exact (mem_definitionsIn_of_scoped ownMethod).mp defined
  · intro defined
    exact ⟨uncommented, ownReference, rfl, (mem_definitionsIn_of_scoped ownMethod).mpr defined⟩

end

end Past

section

open scoped Trial

private theorem text?_after (file text other : String) :
    (after file text).index.text? other = if other = file then some text else none := by
  have read : (some text <|> fresh.files.readText? (Path.ofText file)) = some text := rfl
  exact SymbolIndex.text?_indexFile ∅ twoTexts fresh.files read other

/-- The texts that are known after one file was indexed. -/
private theorem known_after (file text other : String) :
    (after file text).known ownPath twoClasses other =
      if other = "/w/a.ump" then some twoClasses else if other = file then some text else none := by
  rw [known_past (twins_after file text) (reachable_after file text), text?_after]

private theorem known_fresh (file : String) :
    fresh.known ownPath twoClasses file = if file = "/w/a.ump" then some twoClasses else none :=
  known_past ⟨rfl, rfl, rfl⟩ reachable_fresh file

private theorem all_fresh (file text : String)
    (known : fresh.known ownPath twoClasses file = some text) : text = twoClasses := by
  rw [known_fresh] at known
  split at known
  · exact (Option.some.inj known).symm
  · cases known

/-- **Lookups may depend on what was indexed before.**  An `isA` clause in a file that the document
does not reach adds definitions, and so does the document itself under a second spelling of its
path. -/
theorem lookups_depend_on_past :
    fresh.Reachable ∧ fresh.Readable (Path.normalized "/w/a.ump") twoClasses ∧
      ∀ past ∈ [after "/w/x.ump" oneParent, after "/w/./a.ump" twoClasses],
        fresh.Twins past ∧ past.Reachable ∧
          ¬ ∀ symbol,
            symbol ∈ (fresh.definitions (Path.ofText "/w/a.ump") twoClasses 0 2).2 ↔
              symbol ∈ (past.definitions (Path.ofText "/w/a.ump") twoClasses 0 2).2 := by
  refine ⟨reachable_fresh, normalized_own ▸ readable_fresh, ?_⟩
  simp only [List.forall_mem_cons]
  refine ⟨⟨twins_after _ _, reachable_after _ _, fun same => ?_⟩,
    ⟨twins_after _ _, reachable_after _ _, fun same => ?_⟩,
    fun _ member => absurd member List.not_mem_nil⟩
  · have inherited : methodAt "/w/a.ump" 8 "D" ∈
        ((after "/w/x.ump" oneParent).definitions (Path.ofText "/w/a.ump") twoClasses 0 2).2 := by
      rw [mem_definitions_past (twins_after _ _) (reachable_after _ _)]
      refine ⟨⟨?_, by decide, "D", rfl, .single ⟨"/w/x.ump", ?_⟩⟩, normalized_own⟩
      · exact declares_past (twins_after _ _) (reachable_after _ _) (Or.inr rfl)
      · have text : (after "/w/x.ump" oneParent).known ownPath twoClasses "/w/x.ump" =
            some oneParent := known_after _ _ _
        rw [Indexing.parentsIn, text]
        decide +kernel
    rw [← same, mem_definitions_past ⟨rfl, rfl, rfl⟩ reachable_fresh] at inherited
    obtain ⟨⟨_, _, owner, owned, ancestor⟩, _⟩ := inherited
    rw [eq_of_no_links all_fresh ancestor] at owned
    exact absurd owned (by decide)
  · have aliased : methodAt "/w/./a.ump" 4 "C" ∈
        ((after "/w/./a.ump" twoClasses).definitions (Path.ofText "/w/a.ump") twoClasses
          0 2).2 := by
      rw [mem_definitions_past (twins_after _ _) (reachable_after _ _)]
      refine ⟨⟨?_, by decide, "C", rfl, .refl⟩, by decide +kernel⟩
      have text : (after "/w/./a.ump" twoClasses).known ownPath twoClasses "/w/./a.ump" =
          some twoClasses := known_after _ _ _
      change _ ∈ Indexing.symbolsIn twoTexts _ "/w/./a.ump"
      rw [Indexing.symbolsIn, text]
      exact (mem_symbolsOf_twoClasses (by decide)).mpr (Or.inl rfl)
    rw [← same, mem_definitions_past ⟨rfl, rfl, rfl⟩ reachable_fresh] at aliased
    have text := SymbolIndex.isSome_of_declares aliased.1.1
    rw [known_fresh] at text
    exact absurd text (by decide)

end

/-- Where all known texts are the one with the two classes, no ancestors are added. -/
private theorem uninherited_of_all [Host] {past : Workspace}
    (all : ∀ file text, past.known ownPath twoClasses file = some text → text = twoClasses)
    (container : String) : past.Uninherited ownPath twoClasses twoTexts container := by
  intro symbol _ _ owner _ ancestor
  rw [eq_of_no_links all ancestor]

section

open scoped Trial

/-- A file with the same classes elsewhere changes nothing. -/
theorem lookups_congr_elsewhere :
    fresh.Twins (after "/w/y.ump" twoClasses) ∧
      (∀ symbol, symbol ∈ (fresh.definitions (Path.ofText "/w/a.ump") twoClasses 0 2).2 ↔
        symbol ∈ ((after "/w/y.ump" twoClasses).definitions (Path.ofText "/w/a.ump")
          twoClasses 0 2).2) ∧
      (∀ label, label ∈ (fresh.completions (Path.ofText "/w/a.ump") twoClasses 0 2).2.map
          (·.label) ↔
        label ∈ ((after "/w/y.ump" twoClasses).completions (Path.ofText "/w/a.ump")
          twoClasses 0 2).2.map (·.label)) := by
  have all : ∀ file text, (after "/w/y.ump" twoClasses).known ownPath twoClasses file = some text →
      text = twoClasses := by
    intro file text known
    rw [known_after] at known
    split at known
    · exact (Option.some.inj known).symm
    · split at known
      · exact (Option.some.inj known).symm
      · cases known
  have undisturbed : ∀ class?,
      fresh.Undisturbed (Path.normalized "/w/a.ump") twoClasses class? := by
    intro class?
    rw [normalized_own]
    refine ⟨fun file _ indexed => ?_, fun grammar loaded container _ => ?_⟩
    · cases indexed
    · rw [← Option.some.inj loaded]
      exact uninherited_of_all all_fresh container
  have undisturbed' : ∀ class?, (after "/w/y.ump" twoClasses).Undisturbed
      (Path.normalized "/w/a.ump") twoClasses class? := by
    intro class?
    rw [normalized_own]
    refine ⟨fun file _ indexed => ?_, fun grammar loaded container _ => ?_⟩
    · rw [text?_after] at indexed
      split at indexed
      · next elsewhere =>
          rw [← (twins_after _ _).involved_eq reachable_fresh (reachable_after _ _),
            involved_fresh, elsewhere, List.mem_singleton]
          decide +kernel
      · cases indexed
    · rw [← Option.some.inj loaded]
      exact uninherited_of_all all container
  obtain ⟨definitions, completions⟩ := lookups_congr (twins_after "/w/y.ump" twoClasses)
    reachable_fresh (reachable_after _ _) "/w/a.ump" twoClasses 0 2
    (normalized_own ▸ readable_fresh)
  exact ⟨twins_after _ _, definitions (undisturbed _) (undisturbed' _),
    completions (undisturbed _) (undisturbed' _)⟩

end

end Workspace

end ModelAssist
