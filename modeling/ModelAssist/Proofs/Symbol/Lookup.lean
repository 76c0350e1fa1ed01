import Mathlib.Logic.Relation
import ModelAssist.Proofs.Symbol.Index
import ModelAssist.Proofs.Walk

/-!
# What an index answers

What a lookup finds in an index depends on the last texts of the indexed files alone
(`SymbolIndex.Reachable.mem_lookup`).  It finds the symbols that these texts declare; an inherited
lookup follows the `isA` clauses of all of them.
-/

namespace ModelAssist

open Relation (ReflTransGen)

namespace SymbolIndex

/-- The text with which a file was last indexed. -/
def text? (index : SymbolIndex) (file : String) : Option String :=
  (index.files.get? file).map (·.content)

/-- Holds of the symbols that some texts declare. -/
def Declares (grammar : Grammar) (texts : String → Option String) (symbol : SymbolEntry) : Prop :=
  symbol ∈ Indexing.symbolsIn grammar texts symbol.file

/-- Holds if one of some texts names a parent of a child. -/
def Links (grammar : Grammar) (texts : String → Option String) (child parent : String) : Prop :=
  ∃ file, parent ∈ Indexing.parentsIn grammar texts child file

/-- Holds of the symbols that a query asks for in some texts. -/
def Answers (grammar : Grammar) (texts : String → Option String) (query : SymbolQuery)
    (symbol : SymbolEntry) : Prop :=
  Declares grammar texts symbol ∧ query.filter.admits symbol ∧
    match query.container with
    | none => symbol.container.isSome
    | some container =>
      ∃ owner, symbol.container = some owner ∧
        if query.inherited then ReflTransGen (Links grammar texts) container owner
        else owner = container

private theorem text?_eq {grammar : Grammar} {state : Indexing}
    (sound : Indexing.Sound grammar state) : state.index.text? = state.texts := by
  funext file
  rw [text?, sound.files_get?, Option.map_map]
  exact Option.map_id'

/-- Only texts that are there declare symbols. -/
theorem isSome_of_declares {grammar : Grammar} {texts : String → Option String}
    {symbol : SymbolEntry} (declared : Declares grammar texts symbol) :
    (texts symbol.file).isSome := by
  unfold Declares Indexing.symbolsIn at declared
  split at declared
  · next text last => rw [last]; rfl
  · cases declared

/-- What is declared depends on the text of the file alone. -/
theorem declares_congr {grammar : Grammar} {texts texts' : String → Option String}
    {symbol : SymbolEntry} (same : texts symbol.file = texts' symbol.file) :
    Declares grammar texts symbol ↔ Declares grammar texts' symbol := by
  unfold Declares Indexing.symbolsIn
  rw [same]

/-- Links between classes stay when further texts are added. -/
theorem Links.mono {grammar : Grammar} {texts texts' : String → Option String}
    (kept : ∀ file, (texts file).isSome → texts' file = texts file) {child parent : String}
    (links : Links grammar texts child parent) : Links grammar texts' child parent := by
  obtain ⟨file, named⟩ := links
  refine ⟨file, ?_⟩
  unfold Indexing.parentsIn at named ⊢
  split at named
  · next text last =>
      rw [kept file (last ▸ rfl), last]
      exact named
  · cases named

private theorem isSome_of_mem_parentsIn {grammar : Grammar} {texts : String → Option String}
    {child parent file : String} (named : parent ∈ Indexing.parentsIn grammar texts child file) :
    (texts file).isSome := by
  unfold Indexing.parentsIn at named
  split at named
  · next text last => rw [last]; rfl
  · cases named

/-- What is found file by file is what the last texts of the files declare. -/
private theorem mem_recent_flatMap {state : Indexing} (sound : Indexing.Sound grammar state)
    (owned : SymbolEntry → Bool) (filter : SymbolFilter) (symbol : SymbolEntry) :
    (symbol ∈ state.recent.flatMap fun file =>
        ((Indexing.symbolsIn grammar state.texts file).filter owned).filter filter.admits) ↔
      Declares grammar state.texts symbol ∧ filter.admits symbol ∧ owned symbol := by
  simp only [List.mem_flatMap, List.mem_filter]
  constructor
  · rintro ⟨file, _, ⟨declared, owned⟩, admitted⟩
    rw [← Indexing.file_of_mem_symbolsIn grammar declared] at declared
    exact ⟨declared, admitted, owned⟩
  · rintro ⟨declared, admitted, owned⟩
    have known := isSome_of_declares declared
    exact ⟨symbol.file, (sound.mem_recent _).mpr known, ⟨declared, owned⟩, admitted⟩

namespace Reachable

variable {grammar : Grammar} {index : SymbolIndex} (reachable : index.Reachable grammar)
include reachable

/-- The symbols of a file are those that its last text declares. -/
theorem fileSymbols_eq (file : String) :
    index.fileSymbols file = Indexing.symbolsIn grammar index.text? file := by
  obtain ⟨steps, rfl⟩ := reachable
  have sound := Indexing.sound_run grammar steps
  rw [sound.reflects.fileSymbols_eq, text?_eq sound]

/-- The parents of a name are those that the last texts of the files name. -/
theorem mem_parents (child parent : String) :
    parent ∈ index.inheritance.parents child ↔ Links grammar index.text? child parent := by
  obtain ⟨steps, rfl⟩ := reachable
  have sound := Indexing.sound_run grammar steps
  rw [sound.parents_eq, List.mem_flatMap, text?_eq sound]
  constructor
  · rintro ⟨file, _, named⟩
    exact ⟨file, named⟩
  · rintro ⟨file, named⟩
    have known := isSome_of_mem_parentsIn named
    exact ⟨file, (sound.reflects.mem_indexedFiles file).mpr known, named⟩

/-- The members of a container are those that the last texts of the files declare. -/
theorem mem_members (container : String) (filter : SymbolFilter) (symbol : SymbolEntry) :
    symbol ∈ index.registry.members container filter ↔
      Declares grammar index.text? symbol ∧ filter.admits symbol ∧
        symbol.container = some container := by
  obtain ⟨steps, rfl⟩ := reachable
  have sound := Indexing.sound_run grammar steps
  rw [sound.reflects.members_eq, mem_recent_flatMap sound, text?_eq sound, decide_eq_true_eq]

/-- All symbols with a container are those that the last texts of the files declare. -/
theorem mem_symbols (filter : SymbolFilter) (symbol : SymbolEntry) :
    symbol ∈ index.registry.symbols filter ↔
      Declares grammar index.text? symbol ∧ filter.admits symbol ∧ symbol.container.isSome := by
  obtain ⟨steps, rfl⟩ := reachable
  have sound := Indexing.sound_run grammar steps
  rw [(sound.reflects.symbols_perm filter).mem_iff, mem_recent_flatMap sound, text?_eq sound]

/-- **A lookup finds what the last texts of the files declare.** -/
theorem mem_lookup (query : SymbolQuery) (symbol : SymbolEntry) :
    symbol ∈ index.lookup query ↔ Answers grammar index.text? query symbol := by
  obtain ⟨container, filter, inherited⟩ := query
  unfold lookup Answers
  cases container with
  | none => exact reachable.mem_symbols filter symbol
  | some container =>
      cases inherited with
      | false =>
          simp only [Bool.false_eq_true, if_false]
          rw [reachable.mem_members]
          simp
      | true =>
          have linked : (fun child parent => parent ∈ index.inheritance.parents child) =
              Links grammar index.text? := by
            funext child parent
            exact propext (reachable.mem_parents child parent)
          simp only [if_true, Inheritance.inherited, List.mem_flatMap, Inheritance.mem_lineage,
            reachable.mem_members, linked]
          constructor
          · rintro ⟨owner, ancestor, declared, admitted, owned⟩
            exact ⟨declared, admitted, owner, owned, ancestor⟩
          · rintro ⟨declared, admitted, owner, owned, ancestor⟩
            exact ⟨owner, ancestor, declared, admitted, owned⟩

end Reachable

/-- A file that cannot be read leaves the index as it is. -/
theorem indexFile_eq_self (index : SymbolIndex) (grammar : Grammar) (store : FileStore)
    {file : String} {content : Option String}
    (unread : (content <|> store.readText? (Path.ofText file)) = none) :
    (index.indexFile grammar store file content).1 = index := by
  cases content with
  | some content => cases unread
  | none => simp only [indexFile, show store.readText? (Path.ofText file) = none from unread]

/-- An indexed file has the text that it was indexed with, and the others have theirs. -/
theorem text?_indexFile (index : SymbolIndex) (grammar : Grammar) (store : FileStore)
    {file text : String} {content : Option String}
    (read : (content <|> store.readText? (Path.ofText file)) = some text) (other : String) :
    (index.indexFile grammar store file content).1.text? other =
      if other = file then some text else index.text? other := by
  have indexed : (index.indexFile grammar store file content).1 =
      (index.indexContent grammar file text).1 := by
    cases content with
    | some content => rw [← Option.some.inj read]; rfl
    | none => simp only [indexFile, show store.readText? (Path.ofText file) = some text from read]
  rw [indexed, indexContent]
  split
  · next current =>
      by_cases same : other = file
      · subst same
        rw [if_pos rfl]
        simp only [isCurrent] at current
        split at current
        · next indexed found =>
            rw [text?, found, Option.map_some, of_decide_eq_true current]
        · cases current
      · rw [if_neg same]
  · change ((index.files.insert file _).get? other).map _ = _
    rw [OrderedMap.get?_insert]
    by_cases same : other = file
    · rw [if_pos same, if_pos same]
      rfl
    · rw [if_neg same, if_neg same]
      rfl

/-- A file is indexed exactly if the index holds its text. -/
theorem mem_indexedFiles (index : SymbolIndex) (file : String) :
    file ∈ index.indexedFiles ↔ (index.text? file).isSome := by
  rw [indexedFiles, OrderedMap.mem_keys_iff, text?, Option.isSome_map]

/-- Removing a file takes away its text and no other. -/
theorem text?_removeFile (index : SymbolIndex) (file other : String) :
    (index.removeFile file).text? other = if other = file then none else index.text? other := by
  rw [text?, removeFile, OrderedMap.get?_erase]
  split <;> rfl

end SymbolIndex

end ModelAssist
