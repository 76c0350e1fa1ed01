import Mathlib.Data.List.Induction
import Mathlib.Data.List.Perm.Basic
import Mathlib.Logic.Function.Basic
import ModelAssist.Proofs.Symbol.Inheritance
import ModelAssist.Proofs.Symbol.Registry
import ModelAssist.Symbol.Index

/-!
# What an index holds

An index that files were added to, changed in and removed from holds what the last texts of its
files say, and nothing else.  `Indexing` keeps with an index the last text of every file that is
still indexed, and in which order the files last changed it; `Indexing.Reflects` says what the index
then holds.
-/

namespace ModelAssist

/-- A change of an index. -/
inductive IndexStep where
  /-- A file is indexed with a content, or else with the one that it has in a store. -/
  | index (file : String) (content : Option String) (store : FileStore)
  | remove (file : String)
  | clear

/-- An index and what was done to it. -/
structure Indexing where
  index : SymbolIndex
  /-- The last text of every file that is still indexed. -/
  texts : String → Option String
  /-- The files that are still indexed, by the last time that indexing them changed the index. -/
  recent : List String

namespace Indexing

def initial : Indexing := ⟨∅, fun _ => none, []⟩

/-- The index after one change. -/
def step (grammar : Grammar) (state : Indexing) : IndexStep → Indexing
  | .index file content store =>
    let (index, changed) := state.index.indexFile grammar store file content
    { index
      texts := match content <|> store.readText? (Path.ofText file) with
        | some text => Function.update state.texts file (some text)
        | none => state.texts
      recent := if changed then state.recent.filter (· ≠ file) ++ [file] else state.recent }
  | .remove file =>
    { index := state.index.removeFile file
      texts := Function.update state.texts file none
      recent := state.recent.filter (· ≠ file) }
  | .clear => ⟨∅, fun _ => none, []⟩

def run (grammar : Grammar) (steps : List IndexStep) : Indexing :=
  steps.foldl (step grammar) initial

variable (grammar : Grammar)

/-- The symbols in the last text of a file. -/
def symbolsIn (texts : String → Option String) (file : String) : List SymbolEntry :=
  match texts file with
  | some text => SymbolIndex.symbolsOf grammar file text (grammar.parse text)
  | none => []

/-- The parents of a name in the last text of a file. -/
def parentsIn (texts : String → Option String) (name file : String) : List String :=
  match texts file with
  | some text => Inheritance.listed (Extraction.inheritance (grammar.parse text)) name
  | none => []

/-- Holds of an index that holds what the last texts of its files say. -/
structure Reflects (state : Indexing) : Prop where
  /-- No file is indexed twice. -/
  distinct : state.index.indexedFiles.Nodup
  /-- The indexed files are those that have a last text. -/
  mem_indexedFiles : ∀ file, file ∈ state.index.indexedFiles ↔ (state.texts file).isSome
  /-- The files that changed the index are the indexed ones, each once. -/
  recent_perm : state.recent.Perm state.index.indexedFiles
  /-- The symbols of a file are those in its last text. -/
  fileSymbols_eq : ∀ file, state.index.fileSymbols file = symbolsIn grammar state.texts file
  /-- The symbols of a container come file by file, the file that changed last at the end. -/
  members_eq : ∀ container filter,
    state.index.registry.members container filter =
      state.recent.flatMap fun file =>
        ((symbolsIn grammar state.texts file).filter (·.container = some container)).filter
          filter.admits
  /-- All symbols are those of the files that have a container. -/
  symbols_perm : ∀ filter,
    (state.index.registry.symbols filter).Perm
      (state.recent.flatMap fun file =>
        ((symbolsIn grammar state.texts file).filter (·.container.isSome)).filter filter.admits)
  /-- No container is without symbols. -/
  filled : ∀ symbols ∈ state.index.registry.buckets.values, symbols ≠ []
  /-- The parents of a name are those in the last texts of the files. -/
  parents_eq : ∀ name,
    state.index.inheritance.parents name =
      state.index.indexedFiles.flatMap (parentsIn grammar state.texts name)
  /-- A tree is the tree of the text that it is asked for. -/
  treeFor_eq : ∀ file text, state.index.treeFor grammar file text = grammar.parse text

/-- The symbols of a file name it as their file. -/
theorem file_of_mem_symbolsIn {texts : String → Option String} {file : String}
    {symbol : SymbolEntry} (member : symbol ∈ symbolsIn grammar texts file) :
    symbol.file = file := by
  unfold symbolsIn at member
  split at member
  · obtain ⟨capture, _, found⟩ := List.mem_filterMap.mp member
    simp only [Extraction.symbol?, Option.bind_eq_bind, Option.bind_eq_some_iff] at found
    obtain ⟨tag, _, kind, _, built⟩ := found
    split at built
    · cases built
    · rw [← Option.some.inj built]
  · cases member

/-- What is kept of a file with a text. -/
def indexedFrom (file text : String) : IndexedFile :=
  ⟨text, grammar.parse text, SymbolIndex.symbolsOf grammar file text (grammar.parse text)⟩

/-- All symbols of some files, file by file. -/
def symbolsOfAll (texts : String → Option String) (files : List String) : List SymbolEntry :=
  files.flatMap (symbolsIn grammar texts)

/-- The symbols of a file go when it goes or when its text changes. -/
theorem symbolsOfAll_update (texts : String → Option String) (files : List String) (file : String)
    (text : Option String) :
    symbolsOfAll grammar (Function.update texts file text) (files.filter (· ≠ file)) =
      (symbolsOfAll grammar texts files).filter (·.file ≠ file) := by
  induction files with
  | nil => rfl
  | cons first rest ih =>
      have kept : symbolsOfAll grammar texts (first :: rest) =
          symbolsIn grammar texts first ++ symbolsOfAll grammar texts rest := rfl
      rw [kept, List.filter_append, ← ih, List.filter_cons]
      by_cases same : first = file
      · subst same
        have own : (symbolsIn grammar texts first).filter (·.file ≠ first) = [] := by
          rw [List.filter_eq_nil_iff]
          intro symbol member
          simpa using file_of_mem_symbolsIn grammar member
        rw [own]
        simp
      · have others : (symbolsIn grammar texts first).filter (·.file ≠ file) =
            symbolsIn grammar texts first := by
          rw [List.filter_eq_self]
          intro symbol member
          simpa [file_of_mem_symbolsIn grammar member] using same
        have unchanged : symbolsIn grammar (Function.update texts file text) first =
            symbolsIn grammar texts first := by
          simp only [symbolsIn, Function.update_of_ne same]
        rw [others, if_pos (by simpa using same), ← unchanged]
        rfl

/-- What holds between an index and the last texts of its files. -/
structure Sound (state : Indexing) : Prop where
  distinct : state.index.files.keys.Nodup
  /-- What is kept of a file goes with its last text. -/
  files_get? : ∀ file,
    state.index.files.get? file = (state.texts file).map (indexedFrom grammar file)
  /-- The inheritance edges are those of the kept trees. -/
  inheritance_eq :
    state.index.inheritance.byFile =
      state.index.files.mapValues (Extraction.inheritance ·.tree)
  mem_recent : ∀ file, file ∈ state.recent ↔ (state.texts file).isSome
  recent_nodup : state.recent.Nodup
  tidy : state.index.registry.Tidy
  bucket_eq : ∀ container,
    state.index.registry.bucket container =
      (symbolsOfAll grammar state.texts state.recent).filter (·.container = some container)
  /-- The registry holds all symbols that have a container. -/
  all_perm :
    state.index.registry.all.Perm
      ((symbolsOfAll grammar state.texts state.recent).filter (·.container.isSome))

/-- The empty index is sound. -/
theorem sound_initial : Sound grammar initial where
  distinct := List.nodup_nil
  files_get? _ := rfl
  inheritance_eq := rfl
  mem_recent _ := by simp [initial]
  recent_nodup := List.nodup_nil
  tidy := Registry.tidy_empty
  bucket_eq _ := rfl
  all_perm := List.Perm.refl _

namespace Sound

variable {grammar} {state : Indexing} (sound : Sound grammar state)
include sound

/-- Removing a file keeps the index sound. -/
theorem remove (file : String) : Sound grammar (state.step grammar (.remove file)) where
  distinct := OrderedMap.nodup_keys_erase sound.distinct file
  files_get? other := by
    change (state.index.files.erase file).get? other = _
    rw [OrderedMap.get?_erase, sound.files_get?]
    by_cases same : other = file
    · subst same
      simp [step]
    · simp [step, same]
  inheritance_eq := by
    change state.index.inheritance.byFile.erase file = (state.index.files.erase file).mapValues _
    rw [OrderedMap.mapValues_erase, sound.inheritance_eq]
  mem_recent other := by
    change other ∈ state.recent.filter (· ≠ file) ↔
      (Function.update state.texts file none other).isSome
    rw [List.mem_filter, sound.mem_recent]
    by_cases same : other = file
    · subst same
      simp
    · simp [same]
  recent_nodup := sound.recent_nodup.filter _
  tidy := sound.tidy.retract file
  bucket_eq container := by
    change (state.index.registry.retract file).bucket container = _
    rw [Registry.bucket_retract sound.tidy, sound.bucket_eq, List.filter_comm,
      ← symbolsOfAll_update grammar state.texts state.recent file none]
    rfl
  all_perm := by
    change (state.index.registry.retract file).all.Perm _
    rw [Registry.all_retract]
    have kept := sound.all_perm.filter (·.file ≠ file)
    rw [List.filter_comm, ← symbolsOfAll_update grammar state.texts state.recent file none] at kept
    exact kept

/-- Replacing the text of a file keeps the index sound. -/
theorem replace (file text : String) :
    Sound grammar
      ⟨state.index.replace grammar file text, Function.update state.texts file (some text),
        state.recent.filter (· ≠ file) ++ [file]⟩ := by
  have own : ∀ symbol ∈ (indexedFrom grammar file text).symbols, symbol.file = file := by
    intro symbol member
    have written : symbol ∈ symbolsIn grammar (fun _ => some text) file := member
    exact file_of_mem_symbolsIn grammar written
  have latest : symbolsOfAll grammar (Function.update state.texts file (some text))
        (state.recent.filter (· ≠ file) ++ [file]) =
      (symbolsOfAll grammar state.texts state.recent).filter (·.file ≠ file) ++
        (indexedFrom grammar file text).symbols := by
    rw [← symbolsOfAll_update grammar state.texts state.recent file (some text)]
    simp only [symbolsOfAll, List.flatMap_append, List.flatMap_singleton, symbolsIn,
      Function.update_self]
    rfl
  refine ⟨OrderedMap.nodup_keys_insert sound.distinct _ _, ?_, ?_, ?_, ?_,
    (sound.tidy.retract file).insert _ _, ?_, ?_⟩
  · intro other
    change (state.index.files.insert file (indexedFrom grammar file text)).get? other = _
    rw [OrderedMap.get?_insert, sound.files_get?]
    by_cases same : other = file
    · subst same
      simp
    · simp [same]
  · change state.index.inheritance.byFile.insert file _ =
      (state.index.files.insert file (indexedFrom grammar file text)).mapValues _
    rw [OrderedMap.mapValues_insert, sound.inheritance_eq]
    rfl
  · intro other
    change other ∈ state.recent.filter (· ≠ file) ++ [file] ↔
      (Function.update state.texts file (some text) other).isSome
    rw [List.mem_append, List.mem_filter, sound.mem_recent]
    by_cases same : other = file
    · subst same
      simp
    · simp [same]
  · rw [List.nodup_append]
    refine ⟨sound.recent_nodup.filter _, by simp, ?_⟩
    rintro other member _ last rfl
    rw [List.mem_singleton.mp last] at member
    simp at member
  · intro container
    change ((state.index.registry.retract file).insert file
      (indexedFrom grammar file text).symbols).bucket container = _
    rw [Registry.bucket_insert _ own, Registry.bucket_retract sound.tidy, sound.bucket_eq,
      List.filter_comm, latest, List.filter_append]
  · change ((state.index.registry.retract file).insert file
      (indexedFrom grammar file text).symbols).all.Perm _
    refine (Registry.all_insert _ own).trans ?_
    rw [Registry.all_retract, latest, List.filter_append, List.filter_comm]
    exact (sound.all_perm.filter _).append_right _

/-- A file that gets a text contributes that text and nothing else, be it new or not. -/
theorem indexContent (file text : String) :
    Sound grammar
      ⟨(state.index.indexContent grammar file text).1, Function.update state.texts file (some text),
        if (state.index.indexContent grammar file text).2 then
          state.recent.filter (· ≠ file) ++ [file] else state.recent⟩ := by
  unfold SymbolIndex.indexContent
  by_cases current : state.index.isCurrent file text = true
  · have last : state.texts file = some text := by
      simp only [SymbolIndex.isCurrent, sound.files_get?] at current
      cases known : state.texts file with
      | none => simp [known] at current
      | some old => simpa [known, indexedFrom] using current
    rw [if_pos current, ← last, Function.update_eq_self]
    exact sound
  · rw [if_neg current]
    exact sound.replace file text

/-- Every step keeps the index sound. -/
theorem step (change : IndexStep) : Sound grammar (state.step grammar change) := by
  cases change with
  | index file content store =>
      cases content with
      | some text => exact sound.indexContent file text
      | none =>
          cases read : store.readText? (Path.ofText file) with
          | some text =>
              simp only [Indexing.step, SymbolIndex.indexFile, read]
              exact sound.indexContent file text
          | none =>
              simp only [Indexing.step, SymbolIndex.indexFile, read]
              exact sound
  | remove file => exact sound.remove file
  | clear => exact sound_initial grammar

/-- The files of the index are those indexed, in some order. -/
theorem recent_perm : state.recent.Perm state.index.indexedFiles := by
  refine (List.perm_ext_iff_of_nodup sound.recent_nodup sound.distinct).mpr ?_
  intro file
  rw [sound.mem_recent, OrderedMap.mem_keys_iff, sound.files_get?]
  simp

/-- The parents of a class are those that the texts of the indexed files name. -/
theorem parents_eq (name : String) :
    state.index.inheritance.parents name =
      state.index.indexedFiles.flatMap (parentsIn grammar state.texts name) := by
  have edges : state.index.inheritance.byFile.values =
      state.index.files.values.map (Extraction.inheritance ·.tree) := by
    rw [sound.inheritance_eq, OrderedMap.values_mapValues]
  have distinct : ∀ edges ∈ state.index.inheritance.byFile.values, edges.keys.Nodup := by
    rw [edges]
    intro some_ member
    obtain ⟨indexed, _, rfl⟩ := List.mem_map.mp member
    exact Extraction.nodup_keys_inheritance indexed.tree
  rw [Inheritance.parents_eq distinct, edges]
  simp only [OrderedMap.values, SymbolIndex.indexedFiles, OrderedMap.keys, List.flatMap_map]
  refine List.flatMap_congr ?_
  rintro ⟨file, indexed⟩ member
  have kept := OrderedMap.get?_of_mem_entries sound.distinct member
  rw [sound.files_get?] at kept
  obtain ⟨text, last, rfl⟩ := Option.map_eq_some_iff.mp kept
  simp only [parentsIn, last]
  rfl

/-- A sound index reflects the texts. -/
theorem reflects : Reflects grammar state where
  distinct := sound.distinct
  mem_indexedFiles file := by
    rw [SymbolIndex.indexedFiles, OrderedMap.mem_keys_iff, sound.files_get?]
    simp
  recent_perm := sound.recent_perm
  fileSymbols_eq file := by
    simp only [SymbolIndex.fileSymbols, sound.files_get?, symbolsIn]
    cases state.texts file <;> rfl
  members_eq container filter := by
    rw [Registry.members_eq, sound.bucket_eq, symbolsOfAll, List.filter_flatMap,
      List.filter_flatMap]
  symbols_perm filter := by
    have admitted := sound.all_perm.filter filter.admits
    rw [symbolsOfAll, List.filter_flatMap, List.filter_flatMap] at admitted
    exact admitted
  filled symbols member := by
    obtain ⟨entry, held, rfl⟩ := List.mem_map.mp member
    exact sound.tidy.filled entry held
  parents_eq := sound.parents_eq
  treeFor_eq file text := by
    simp only [SymbolIndex.treeFor, sound.files_get?]
    cases state.texts file with
    | none => rfl
    | some old =>
        simp only [Option.map_some, indexedFrom]
        by_cases same : old = text
        · rw [if_pos same, same]
        · rw [if_neg same]

end Sound

/-- The index and the last texts are together after all changes. -/
theorem sound_run (steps : List IndexStep) : Sound grammar (run grammar steps) := by
  unfold run
  have start := sound_initial grammar
  revert start
  generalize initial = state
  intro sound
  induction steps generalizing state with
  | nil => exact sound
  | cons change rest ih => exact ih _ (sound.step change)

/-- The last texts of the files, indexed from scratch in the order in which they changed the
index. -/
def rebuild (state : Indexing) : Indexing :=
  run grammar (state.recent.map fun file => .index file (state.texts file) default)

/-- Holds of two indexes that answer alike, up to the order of the files. -/
structure Alike (first second : SymbolIndex) : Prop where
  indexedFiles_perm : first.indexedFiles.Perm second.indexedFiles
  fileSymbols_eq : ∀ file, first.fileSymbols file = second.fileSymbols file
  /-- The containers have the same symbols in the same order. -/
  members_eq : ∀ container filter,
    first.registry.members container filter = second.registry.members container filter
  /-- All symbols together are the same. -/
  symbols_perm : ∀ filter, (first.registry.symbols filter).Perm (second.registry.symbols filter)
  parents_perm : ∀ name, (first.inheritance.parents name).Perm (second.inheritance.parents name)

variable {grammar} in
/-- Indexes that reflect the same texts answer alike. -/
theorem Reflects.alike {first second : Indexing} (reflects : Reflects grammar first)
    (reflects' : Reflects grammar second) (texts : first.texts = second.texts)
    (recent : first.recent = second.recent) : Alike first.index second.index := by
  have files : first.index.indexedFiles.Perm second.index.indexedFiles :=
    reflects.recent_perm.symm.trans (recent ▸ reflects'.recent_perm)
  refine ⟨files, ?_, ?_, ?_, ?_⟩
  · intro file
    rw [reflects.fileSymbols_eq, reflects'.fileSymbols_eq, texts]
  · intro container filter
    rw [reflects.members_eq, reflects'.members_eq, texts, recent]
  · intro filter
    have symbols := reflects.symbols_perm filter
    rw [texts, recent] at symbols
    exact symbols.trans (reflects'.symbols_perm filter).symm
  · intro name
    rw [reflects.parents_eq, reflects'.parents_eq, texts]
    exact files.flatMap_right _

/-- Files that are indexed from scratch, each once, have the given texts and come in the given
order. -/
theorem run_map_index (texts : String → Option String) (files : List String)
    (distinct : files.Nodup) (known : ∀ file ∈ files, (texts file).isSome) :
    (run grammar (files.map fun file => .index file (texts file) default)).texts =
        (fun file => if file ∈ files then texts file else none) ∧
      (run grammar (files.map fun file => .index file (texts file) default)).recent = files := by
  induction files using List.reverseRecOn with
  | nil => simp [run, initial]
  | append_singleton files file ih =>
      obtain ⟨distinct, -, fresh⟩ := List.nodup_append.mp distinct
      have absent : file ∉ files := fun member => fresh file member file (by simp) rfl
      obtain ⟨textsEq, recentEq⟩ :=
        ih distinct fun other member => known other (List.mem_append_left _ member)
      obtain ⟨text, last⟩ := Option.isSome_iff_exists.mp (known file (by simp))
      have sound := sound_run grammar (files.map fun file => .index file (texts file) default)
      rw [run, List.map_append, List.foldl_append, ← run]
      generalize run grammar (files.map fun file => .index file (texts file) default) = state at *
      have unknown : state.index.isCurrent file text = false := by
        simp [SymbolIndex.isCurrent, sound.files_get?, textsEq, absent]
      simp only [List.map_cons, List.map_nil, List.foldl_cons, List.foldl_nil, step, last,
        SymbolIndex.indexFile, SymbolIndex.indexContent, unknown, textsEq, recentEq]
      refine ⟨?_, ?_⟩
      · funext other
        by_cases same : other = file
        · subst same
          simp [last]
        · simp [same]
      · have kept : files.filter (· ≠ file) = files := by
          rw [List.filter_eq_self]
          intro other member
          simpa using fun same : other = file => absent (same ▸ member)
        rw [if_neg Bool.false_ne_true, if_pos rfl, kept]

/-- **An index that was changed step by step holds what the last texts of its files say.**  It
answers like an index that is built from these texts from scratch. -/
theorem run_reflects_texts (steps : List IndexStep) :
    Reflects grammar (run grammar steps) ∧
      Alike (run grammar steps).index (rebuild grammar (run grammar steps)).index := by
  have sound := sound_run grammar steps
  have rebuilt : Reflects grammar (rebuild grammar (run grammar steps)) :=
    (sound_run grammar _).reflects
  obtain ⟨texts, recent⟩ := run_map_index grammar (run grammar steps).texts
    (run grammar steps).recent sound.recent_nodup
      fun file member => (sound.mem_recent file).mp member
  refine ⟨sound.reflects, sound.reflects.alike rebuilt ?_ recent.symm⟩
  refine Eq.trans ?_ texts.symm
  funext file
  by_cases member : file ∈ (run grammar steps).recent
  · rw [if_pos member]
  · rw [if_neg member]
    simpa [sound.mem_recent] using member

end Indexing

namespace SymbolIndex

/-- Holds of the indexes that some changes lead to. -/
def Reachable (grammar : Grammar) (index : SymbolIndex) : Prop :=
  ∃ steps, (Indexing.run grammar steps).index = index

namespace Reachable

variable {grammar : Grammar} {index : SymbolIndex}

/-- The empty index can be reached. -/
theorem empty (grammar : Grammar) : (∅ : SymbolIndex).Reachable grammar := ⟨[], rfl⟩

private theorem change (reachable : index.Reachable grammar) (step : IndexStep) :
    ∃ state : Indexing,
      state.index = index ∧ (state.step grammar step).index.Reachable grammar := by
  obtain ⟨steps, rfl⟩ := reachable
  exact ⟨Indexing.run grammar steps, rfl, steps ++ [step], by simp [Indexing.run]⟩

/-- Indexing a file leads to an index that can be reached. -/
theorem indexFile (reachable : index.Reachable grammar) (store : FileStore) (file : String)
    (content : Option String) :
    (index.indexFile grammar store file content).1.Reachable grammar := by
  obtain ⟨state, rfl, changed⟩ := reachable.change (.index file content store)
  exact changed

/-- Removing a file leads to an index that can be reached. -/
theorem removeFile (reachable : index.Reachable grammar) (file : String) :
    (index.removeFile file).Reachable grammar := by
  obtain ⟨state, rfl, changed⟩ := reachable.change (.remove file)
  exact changed

/-- A reachable index yields the tree of a text, whatever it holds. -/
theorem treeFor_eq (reachable : index.Reachable grammar) (file text : String) :
    index.treeFor grammar file text = grammar.parse text := by
  obtain ⟨steps, rfl⟩ := reachable
  exact (Indexing.sound_run grammar steps).reflects.treeFor_eq file text

end Reachable

end SymbolIndex

end ModelAssist
