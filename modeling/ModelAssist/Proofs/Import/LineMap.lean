import ModelAssist.Diagnostic.Placement
import ModelAssist.Proofs.Import.Closure

/-!
# Which imported files have a line

The lines of imports are kept by file name, so a direct import loses what it reaches to a later one
of the same name.  The imports that are not replaced like this (`ImportLines.Lasting`) decide for
which files a line is known, and with that which records of the validator are placed
(`ImportLines.placed_iff_attributed`).
-/

namespace ModelAssist

namespace OrderedMap

variable {Key Value Element : Type} [DecidableEq Key]

/-- Of several elements with one key the last one gives the value. -/
theorem get?_foldl_insert (key : Element → Key) (value : Element → Value) (elements : List Element)
    (map : OrderedMap Key Value) {found : Key} {result : Value} :
    (elements.foldl (fun (map : OrderedMap Key Value) element =>
        map.insert (key element) (value element)) map).get? found = some result ↔
      (∃ before element after, elements = before ++ element :: after ∧ key element = found ∧
        value element = result ∧ ∀ later ∈ after, key later ≠ found) ∨
      (∀ element ∈ elements, key element ≠ found) ∧ map.get? found = some result := by
  induction elements generalizing map with
  | nil => simp
  | cons first rest ih =>
      rw [List.foldl_cons, ih, get?_insert]
      constructor
      · rintro (⟨before, element, after, rfl, own⟩ | ⟨others, given⟩)
        · exact Or.inl ⟨first :: before, element, after, rfl, own⟩
        · by_cases same : found = key first
          · rw [if_pos same] at given
            exact Or.inl ⟨[], first, rest, rfl, same.symm, Option.some.inj given, others⟩
          · rw [if_neg same] at given
            exact Or.inr ⟨List.forall_mem_cons.mpr ⟨Ne.symm same, others⟩, given⟩
      · rintro (⟨before, element, after, split, keyEq, valueEq, others⟩ | ⟨others, given⟩)
        · cases before with
          | nil =>
              obtain ⟨rfl, rfl⟩ := List.cons.inj split
              exact Or.inr ⟨others, by rw [if_pos keyEq.symm, valueEq]⟩
          | cons head before =>
              obtain ⟨rfl, rfl⟩ := List.cons.inj split
              exact Or.inl ⟨before, element, after, rfl, keyEq, valueEq, others⟩
        · obtain ⟨different, others⟩ := List.forall_mem_cons.mp others
          exact Or.inr ⟨others, by rw [if_neg (Ne.symm different), given]⟩

/-- Inserting elements keeps the keys distinct. -/
theorem nodup_keys_foldl_insert (key : Element → Key) (value : Element → Value)
    (elements : List Element) {map : OrderedMap Key Value} (distinct : map.keys.Nodup) :
    (elements.foldl (fun (map : OrderedMap Key Value) element =>
      map.insert (key element) (value element)) map).keys.Nodup := by
  induction elements generalizing map with
  | nil => exact distinct
  | cons first rest ih => exact ih (nodup_keys_insert distinct _ _)

end OrderedMap

namespace ImportLines

open Relation (ReflTransGen)

/-- Holds of a direct import if no later one has the same file name. -/
def Lasting (targets : List (UseStatement × Path)) (target : Path) : Prop :=
  ∃ before statement after, targets = before ++ (statement, target) :: after ∧
    ∀ later ∈ after, later.2.name ≠ target.name

/-- Holds of the names of the files that the lasting imports of a text at a normalized path are or
lead to. -/
def Attributed [Host] (graph : ImportGraph) (path : Path) (text : String) (name : String) : Prop :=
  ∃ target, Lasting (graph.targets path text path.parent) target ∧
    ∃ file, ReflTransGen graph.Edge target file ∧ file.name = name

variable {graph : ImportGraph} {targets : List (UseStatement × Path)} {name : String}

/-- What is lasting is one of the targets. -/
theorem Lasting.mem {target : Path} (lasting : Lasting targets target) :
    target ∈ targets.map (·.2) := by
  obtain ⟨before, statement, after, rfl, -⟩ := lasting
  simp

/-- The names of lasting targets have direct lines. -/
theorem contains_direct_iff :
    (direct targets).contains name ↔ ∃ target, Lasting targets target ∧ target.name = name := by
  rw [OrderedMap.contains, Option.isSome_iff_exists]
  constructor
  · rintro ⟨line, given⟩
    rcases (OrderedMap.get?_foldl_insert (fun pair : UseStatement × Path => pair.2.name)
      (fun pair => pair.1.line) targets ∅).mp given with own | ⟨-, absent⟩
    · obtain ⟨before, ⟨statement, target⟩, after, split, rfl, -, others⟩ := own
      exact ⟨target, ⟨before, statement, after, split, others⟩, rfl⟩
    · cases absent
  · rintro ⟨target, ⟨before, statement, after, split, others⟩, rfl⟩
    exact ⟨statement.line, (OrderedMap.get?_foldl_insert
      (fun pair : UseStatement × Path => pair.2.name) (fun pair => pair.1.line) targets ∅).mpr
      (Or.inl ⟨before, (statement, target), after, split, rfl, rfl, others⟩)⟩

/-- What is reached is listed under the names of lasting targets. -/
theorem mem_entries_reaches_iff [Host] {names : List String} :
    (name, names) ∈ (reaches graph targets).entries ↔
      ∃ target, Lasting targets target ∧ target.name = name ∧
        (graph.reachedFrom [target]).map Path.name = names := by
  have distinct : (reaches graph targets).keys.Nodup :=
    OrderedMap.nodup_keys_foldl_insert (fun pair : UseStatement × Path => pair.2.name)
      (fun pair => (graph.reachedFrom [pair.2]).map Path.name) targets List.nodup_nil
  have given : (reaches graph targets).get? name = some names ↔ _ :=
    OrderedMap.get?_foldl_insert (fun pair : UseStatement × Path => pair.2.name)
      (fun pair => (graph.reachedFrom [pair.2]).map Path.name) targets ∅
  constructor
  · intro member
    rcases given.mp (OrderedMap.get?_of_mem_entries distinct member) with own | ⟨-, absent⟩
    · obtain ⟨before, ⟨statement, target⟩, after, split, rfl, rfl, others⟩ := own
      exact ⟨target, ⟨before, statement, after, split, others⟩, rfl, rfl⟩
    · cases absent
  · rintro ⟨target, ⟨before, statement, after, split, others⟩, rfl, rfl⟩
    exact OrderedMap.mem_entries_of_get? (given.mpr
      (Or.inl ⟨before, (statement, target), after, split, rfl, rfl, others⟩))

/-- A line that is offered counts where none was known. -/
theorem get?_offer (line : Nat) (lines : ImportLines) (offered : String) :
    (offer line lines offered).get? name =
      (lines.get? name).or (if name = offered then some line else none) := by
  unfold offer
  by_cases same : name = offered
  · subst same
    cases known : lines.get? name <;>
      simp [OrderedMap.contains, known, OrderedMap.get?_insert_self]
  · rw [if_neg same, Option.or_none]
    split
    · rfl
    · exact OrderedMap.get?_insert_of_ne lines line same

/-- A line is offered for the names that have none yet. -/
theorem get?_foldl_offer (line : Nat) (names : List String) (lines : ImportLines) :
    (names.foldl (offer line) lines).get? name =
      (lines.get? name).or (if name ∈ names then some line else none) := by
  induction names generalizing lines with
  | nil => simp
  | cons first rest ih =>
      rw [List.foldl_cons, ih, get?_offer]
      cases lines.get? name <;> by_cases same : name = first <;> simp [same]

/-- Of several imports that offer a line for a name the first one counts. -/
theorem get?_foldl_entries (line : String → Nat) (entries : List (String × List String))
    (lines : ImportLines) :
    (entries.foldl (fun lines entry => entry.2.foldl (offer (line entry.1)) lines) lines).get?
        name =
      (lines.get? name).or ((entries.find? (name ∈ ·.2)).map (line ·.1)) := by
  induction entries generalizing lines with
  | nil => simp
  | cons first rest ih =>
      rw [List.foldl_cons, ih, get?_foldl_offer, List.find?_cons]
      cases lines.get? name <;> by_cases inside : name ∈ first.2 <;> simp [inside]

/-- A name has the line of the last direct import of that name, and else that of the first entry
of what the direct imports reach. -/
theorem get?_of [Host] {path : Path} {text : String} :
    let targets := graph.targets path text path.parent
    (of graph path text).get? name =
      ((direct targets).get? name).or (((reaches graph targets).entries.find? (name ∈ ·.2)).map
        fun entry => ((direct targets).get? entry.1).getD 0) :=
  get?_foldl_entries (fun name => ((direct _).get? name).getD 0) _ _

/-- What a direct import reaches are the names of the files that it is or leads to. -/
theorem mem_names_iff [Host] {target : Path} :
    name ∈ (graph.reachedFrom [target]).map Path.name ↔
      ∃ file, ReflTransGen graph.Edge target file ∧ file.name = name := by
  simp [ImportGraph.mem_reachedFrom_iff]

/-- A line is known for the names that lasting imports account for, and for no others. -/
theorem contains_of_iff [Host] {path : Path} {text : String} :
    (of graph path text).contains name ↔ Attributed graph path text name := by
  rw [OrderedMap.contains, get?_of, Option.isSome_or, Option.isSome_map, Bool.or_eq_true,
    List.find?_isSome, ← OrderedMap.contains, contains_direct_iff]
  simp only [decide_eq_true_eq]
  constructor
  · rintro (⟨target, lasting, rfl⟩ | ⟨⟨own, names⟩, member, named⟩)
    · exact ⟨target, lasting, target, .refl, rfl⟩
    · obtain ⟨target, lasting, rfl, rfl⟩ := mem_entries_reaches_iff.mp member
      exact ⟨target, lasting, mem_names_iff.mp named⟩
  · rintro ⟨target, lasting, leads⟩
    exact Or.inr ⟨_, mem_entries_reaches_iff.mpr ⟨target, lasting, rfl, rfl⟩,
      mem_names_iff.mpr leads⟩

/-- What is lasting stays so when an import is put in front. -/
theorem Lasting.cons {target : Path} (first : UseStatement × Path)
    (lasting : Lasting targets target) : Lasting (first :: targets) target := by
  obtain ⟨before, statement, after, rfl, others⟩ := lasting
  exact ⟨first :: before, statement, after, rfl, others⟩

/-- Every target has a lasting one of its name. -/
theorem exists_lasting {target : Path} (member : target ∈ targets.map (·.2)) :
    ∃ last, Lasting targets last ∧ last.name = target.name := by
  induction targets generalizing target with
  | nil => cases member
  | cons first rest ih =>
      rcases List.mem_cons.mp member with rfl | member
      · -- A first import that is replaced hands over to one that is not, further down.
        by_cases again : ∃ other ∈ rest, other.2.name = first.2.name
        · obtain ⟨other, inside, nameEq⟩ := again
          obtain ⟨last, lasting, lastEq⟩ := ih (List.mem_map_of_mem inside)
          exact ⟨last, lasting.cons first, lastEq.trans nameEq⟩
        · push Not at again
          exact ⟨first.2, ⟨[], first.1, rest, rfl, again⟩, rfl⟩
      · obtain ⟨last, lasting, nameEq⟩ := ih member
        exact ⟨last, lasting.cons first, nameEq⟩

/-- Where no two files with one name are imported directly, every file that is reached has a
line. -/
theorem attributed_of_mem_reachable [Host] {path file : Path} {text : String}
    (distinct : ∀ first ∈ (graph.targets path text path.parent).map (·.2),
      ∀ second ∈ (graph.targets path text path.parent).map (·.2),
        first.name = second.name → first = second)
    (reached : file ∈ graph.reachable path text path.parent) :
    Attributed graph path text file.name := by
  obtain ⟨first, names, chain⟩ := ImportGraph.mem_reachable_iff.mp reached
  have member := ImportGraph.mem_targets_iff.mpr names
  obtain ⟨last, lasting, nameEq⟩ := exists_lasting member
  obtain rfl := distinct last lasting.mem first member nameEq
  exact ⟨last, lasting, file, chain, rfl⟩

/-- A record is placed if it is of no file, of the document or of a file with a line. -/
theorem length_diagnostics_singleton (record : ValidatorRecord) (text filename : String)
    (lines : ImportLines) :
    (Placement.diagnostics [record] text filename lines).length =
      if record.filename = "" ∨ record.filename = filename ∨ lines.contains record.filename then 1
      else 0 := by
  unfold Placement.diagnostics
  rw [List.filterMap_cons, List.filterMap_nil]
  unfold Placement.place? Placement.isOfDocument OrderedMap.contains
  cases lines.get? record.filename <;> by_cases own : record.filename = "" <;>
    by_cases same : record.filename = filename <;> simp [own, same]

/-- **A record is placed exactly if it is about the document or about a file that a lasting import
accounts for.**  Every record is placed by itself and at most once.  A file has no line if only
replaced imports reach it, and records about it are lost; where no two files with one name are
imported directly, every file that is reached has a line. -/
theorem placed_iff_attributed [Host] (graph : ImportGraph) (path : Path) (text filename : String) :
    (∀ name, (of graph path text).contains name ↔ Attributed graph path text name) ∧
    (∀ records, Placement.diagnostics records text filename (of graph path text) =
      records.flatMap fun record =>
        Placement.diagnostics [record] text filename (of graph path text)) ∧
    (∀ record : ValidatorRecord,
      (Placement.diagnostics [record] text filename (of graph path text)).length ≤ 1 ∧
      ((Placement.diagnostics [record] text filename (of graph path text)).length = 1 ↔
        record.filename = "" ∨ record.filename = filename ∨
          Attributed graph path text record.filename)) ∧
    ((∀ first ∈ (graph.targets path text path.parent).map (·.2),
        ∀ second ∈ (graph.targets path text path.parent).map (·.2),
          first.name = second.name → first = second) →
      ∀ file ∈ graph.reachable path text path.parent, (of graph path text).contains file.name) := by
  refine ⟨fun name => contains_of_iff, ?_, ?_, ?_⟩
  · intro records
    induction records with
    | nil => rfl
    | cons first rest ih =>
        rw [List.flatMap_cons, ← ih, ← List.singleton_append]
        exact List.filterMap_append
  · intro record
    rw [length_diagnostics_singleton, ← contains_of_iff]
    split
    · next placed => exact ⟨Nat.le_refl 1, iff_of_true rfl placed⟩
    · next lost => exact ⟨Nat.zero_le 1, iff_of_false Nat.zero_ne_one lost⟩
  · intro distinct file reached
    exact contains_of_iff.mpr (attributed_of_mem_reachable distinct reached)

section

open scoped Trial

/-- A document with two imports of one file name, of which the first imports a third file. -/
def twins : ImportGraph where
  useStatements path _ :=
    if path = ⟨.root, ["w", "main.ump"]⟩ then [⟨"a/x.ump", 0⟩, ⟨"b/x.ump", 1⟩]
    else if path = ⟨.root, ["w", "a", "x.ump"]⟩ then [⟨"y.ump", 0⟩]
    else []
  documents :=
    let path : Path := ⟨.root, ["w", "a", "x.ump"]⟩
    ⟨⟨[("", ⟨"", some path, "", 1⟩)]⟩, ⟨[(path, "")]⟩⟩
  files := .initial .allowed

/-- Nothing accounts for a file that only the first of two imports with one name reaches. -/
theorem lost_behind_twin :
    ⟨.root, ["w", "a", "y.ump"]⟩ ∈ twins.reachable ⟨.root, ["w", "main.ump"]⟩ "" ⟨.root, ["w"]⟩ ∧
      ¬ (of twins ⟨.root, ["w", "main.ump"]⟩ "").contains "y.ump" := by
  constructor
  · have edge : twins.Edge ⟨.root, ["w", "a", "x.ump"]⟩ ⟨.root, ["w", "a", "y.ump"]⟩ :=
      ⟨"", Or.inl rfl, ⟨"y.ump", 0⟩, List.mem_singleton_self _, rfl, rfl⟩
    exact ImportGraph.mem_reachable_iff.mpr
      ⟨_, ⟨⟨"a/x.ump", 0⟩, List.mem_cons_self, rfl, rfl⟩, .single edge⟩
  · rw [contains_of_iff]
    rintro ⟨target, ⟨before, statement, after, split, others⟩, file, chain, named⟩
    have direct : [(⟨"a/x.ump", 0⟩, ⟨.root, ["w", "a", "x.ump"]⟩),
        (⟨"b/x.ump", 1⟩, ⟨.root, ["w", "b", "x.ump"]⟩)] = before ++ (statement, target) :: after :=
      split
    match before with
    | [] =>
        obtain ⟨own, rfl⟩ := List.cons.inj direct
        obtain ⟨-, rfl⟩ := Prod.mk.inj own
        exact others _ (List.mem_singleton_self _) rfl
    | [first] =>
        obtain ⟨own, -⟩ := List.cons.inj (List.cons.inj direct).2
        obtain ⟨-, rfl⟩ := Prod.mk.inj own
        rcases chain.cases_head with rfl | ⟨next, ⟨text, -, statement, listed, -⟩, -⟩
        · exact absurd named (by decide)
        · cases listed
    | first :: second :: more => simp at direct

end

end ImportLines

end ModelAssist
