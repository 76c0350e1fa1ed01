import Mathlib.Data.List.Induction
import ModelAssist.Proofs.Import.LineMap

/-!
# Which line answers for an imported file

A file that a document names itself belongs to the line of the last direct import of its name.  Any
other file belongs to an import that leads to it (`ImportLines.get?_of_indirect_iff`): of the last
imports of their names, to the one whose name is imported first.  Where no file name is imported
twice this is the first import that leads to the file (`ImportLines.lines_are_to_blame`), and
otherwise a later import can come before that one (`ImportLines.line_of_indirect`).
-/

namespace ModelAssist

namespace OrderedMap

variable {Key Value Element : Type} [DecidableEq Key]

/-- The keys of a map into which elements were inserted are the old ones and those of the elements.
-/
theorem mem_keys_foldl_insert_iff (key : Element → Key) (value : Element → Value)
    (elements : List Element) (map : OrderedMap Key Value) {found : Key} :
    found ∈ (elements.foldl (fun (map : OrderedMap Key Value) element =>
        map.insert (key element) (value element)) map).keys ↔
      found ∈ map.keys ∨ found ∈ elements.map key := by
  induction elements generalizing map with
  | nil => simp
  | cons first rest ih =>
      rw [List.foldl_cons, ih, mem_keys_iff, get?_insert, List.map_cons, List.mem_cons,
        mem_keys_iff]
      by_cases same : found = key first
      · simp [same]
      · simp [same]

/-- The keys stand in the order in which the elements first show them. -/
theorem pairwise_keys_foldl_insert [BEq Key] [LawfulBEq Key] (key : Element → Key)
    (value : Element → Value) (elements : List Element) :
    (elements.foldl (fun (map : OrderedMap Key Value) element =>
        map.insert (key element) (value element)) ∅).keys.Pairwise
      fun first second => (elements.map key).idxOf first < (elements.map key).idxOf second := by
  induction elements using List.reverseRecOn with
  | nil => exact List.Pairwise.nil
  | append_singleton elements last ih =>
      have shown (found : Key) := @mem_keys_foldl_insert_iff _ _ _ _ key value elements ∅ found
      have kept {found : Key} (member : found ∈ elements.map key) :
          ((elements ++ [last]).map key).idxOf found = (elements.map key).idxOf found := by
        rw [List.map_append, List.idxOf_append, if_pos member]
      rw [List.foldl_append, List.foldl_cons, List.foldl_nil]
      generalize elements.foldl (fun (map : OrderedMap Key Value) element =>
        map.insert (key element) (value element)) ∅ = map at ih shown ⊢
      have member {found : Key} (old : found ∈ map.keys) : found ∈ elements.map key :=
        ((shown _).mp old).resolve_left List.not_mem_nil
      have ordered : map.keys.Pairwise fun first second =>
          ((elements ++ [last]).map key).idxOf first <
            ((elements ++ [last]).map key).idxOf second := by
        refine ih.imp_of_mem fun old old' before => ?_
        rwa [kept (member old), kept (member old')]
      rw [keys_insert]
      split
      · exact ordered
      · next fresh =>
          have fresh : key last ∉ elements.map key := fun old =>
            fresh ((shown _).mpr (Or.inr old))
          refine List.pairwise_append.mpr ⟨ordered, List.pairwise_singleton _ _, ?_⟩
          intro first old second new
          rw [List.mem_singleton.mp new, kept (member old), List.map_append, List.idxOf_append,
            if_neg fresh]
          have := List.idxOf_lt_length_iff.mpr (member old)
          omega

end OrderedMap

/-- In a list in ascending order the first element that fits is the least one that does. -/
theorem find?_eq_some_iff_least {Element : Type} {rank : Element → Nat} {fits : Element → Bool}
    {elements : List Element}
    (ordered : elements.Pairwise fun first second => rank first < rank second)
    {element : Element} :
    elements.find? fits = some element ↔
      element ∈ elements ∧ fits element ∧
        ∀ other ∈ elements, fits other → rank element ≤ rank other := by
  induction elements with
  | nil => simp
  | cons first rest ih =>
      obtain ⟨before, ordered⟩ := List.pairwise_cons.mp ordered
      rw [List.find?_cons]
      cases fit : fits first with
      | true =>
          constructor
          · intro found
            obtain rfl := Option.some.inj found
            refine ⟨List.mem_cons_self, fit, fun other member _ => ?_⟩
            rcases List.mem_cons.mp member with rfl | later
            · exact Nat.le_refl _
            · exact Nat.le_of_lt (before other later)
          · rintro ⟨member, -, least⟩
            rcases List.mem_cons.mp member with rfl | later
            · rfl
            · have := before element later
              have := least first List.mem_cons_self fit
              omega
      | false =>
          have other {element : Element} (fits_ : fits element) : element ≠ first := by
            rintro rfl
            rw [fit] at fits_
            cases fits_
          simp only [ih ordered, List.mem_cons, forall_eq_or_imp, fit, Bool.false_eq_true,
            false_implies, true_and]
          exact and_congr_left fun fitting => (or_iff_right (other fitting.1)).symm

namespace ImportLines

open Relation (ReflTransGen)

/-- Holds if a file has the given name or leads to a file that has it. -/
def LeadsTo [Host] (graph : ImportGraph) (target : Path) (name : String) : Prop :=
  ∃ file, ReflTransGen graph.Edge target file ∧ file.name = name

/-- Holds of a direct import if no later one has the same file name. -/
def IsLast (targets : List (UseStatement × Path)) (statement : UseStatement) (target : Path) :
    Prop :=
  ∃ before after, targets = before ++ (statement, target) :: after ∧
    ∀ later ∈ after, later.2.name ≠ target.name

/-- The place of a file name among those of the direct imports, counted where it stands first. -/
def rank (targets : List (UseStatement × Path)) (name : String) : Nat :=
  (targets.map (·.2.name)).idxOf name

/-- Holds of the import whose line answers for the files of a name that no direct import has: of the
last imports of their names that lead to such a file, the one whose name is imported first. -/
structure Answers [Host] (graph : ImportGraph) (targets : List (UseStatement × Path))
    (name : String) (statement : UseStatement) (target : Path) : Prop where
  last : IsLast targets statement target
  leads : LeadsTo graph target name
  least : ∀ other file, IsLast targets other file → LeadsTo graph file name →
    rank targets target.name ≤ rank targets file.name

variable {graph : ImportGraph} {targets : List (UseStatement × Path)} {name : String}
  {path directory : Path} {text : String} {statement : UseStatement} {target : Path} {line : Nat}

/-- The last import of a name is one of the targets. -/
theorem IsLast.mem (last : IsLast targets statement target) : (statement, target) ∈ targets := by
  obtain ⟨before, after, rfl, -⟩ := last
  simp

/-- The target of the last import of a name is lasting. -/
theorem IsLast.lasting (last : IsLast targets statement target) : Lasting targets target := by
  obtain ⟨before, after, split, others⟩ := last
  exact ⟨before, statement, after, split, others⟩

/-- What is lasting has a last import. -/
theorem Lasting.exists_isLast (lasting : Lasting targets target) :
    ∃ statement, IsLast targets statement target := by
  obtain ⟨before, statement, after, split, others⟩ := lasting
  exact ⟨statement, before, after, split, others⟩

/-- The direct line of a name is that of its last import. -/
theorem get?_direct_iff :
    (direct targets).get? name = some line ↔
      ∃ statement target, IsLast targets statement target ∧ target.name = name ∧
        statement.line = line := by
  refine (OrderedMap.get?_foldl_insert (fun pair : UseStatement × Path => pair.2.name)
    (fun pair => pair.1.line) targets ∅).trans ?_
  constructor
  · rintro (⟨before, ⟨statement, target⟩, after, split, rfl, rfl, others⟩ | ⟨-, absent⟩)
    · exact ⟨statement, target, ⟨before, after, split, others⟩, rfl, rfl⟩
    · cases absent
  · rintro ⟨statement, target, ⟨before, after, split, others⟩, rfl, rfl⟩
    exact Or.inl ⟨before, (statement, target), after, split, rfl, rfl, others⟩

/-- A name that is not imported directly has no direct line. -/
theorem get?_direct_eq_none (indirect : name ∉ targets.map (·.2.name)) :
    (direct targets).get? name = none := by
  by_contra known
  obtain ⟨line, given⟩ := Option.ne_none_iff_exists'.mp known
  obtain ⟨statement, target, last, rfl, -⟩ := get?_direct_iff.mp given
  exact indirect (List.mem_map_of_mem (f := (·.2.name)) last.mem)

section

variable [Host]

/-- A name that a direct import has belongs to the line of the last one that has it. -/
theorem get?_of_direct_iff
    (named : name ∈ (graph.targets path text path.parent).map (·.2.name)) :
    (of graph path text).get? name = some line ↔
      ∃ statement target, IsLast (graph.targets path text path.parent) statement target ∧
        target.name = name ∧ statement.line = line := by
  obtain ⟨pair, member, rfl⟩ := List.mem_map.mp named
  obtain ⟨own, known⟩ := Option.isSome_iff_exists.mp
    (contains_direct_iff.mpr (exists_lasting (List.mem_map_of_mem (f := Prod.snd) member)))
  rw [← get?_direct_iff, get?_of, known, Option.some_or]

/-- What is reached is listed in the order of the first imports of the names. -/
theorem pairwise_entries_reaches (graph : ImportGraph) (targets : List (UseStatement × Path)) :
    (reaches graph targets).entries.Pairwise fun first second =>
      rank targets first.1 < rank targets second.1 := by
  have ordered := OrderedMap.pairwise_keys_foldl_insert
    (fun pair : UseStatement × Path => pair.2.name)
    (fun pair => (graph.reachedFrom [pair.2]).map Path.name) targets
  rw [OrderedMap.keys, List.pairwise_map] at ordered
  exact ordered

/-- The first entry that reaches a name belongs to the import that answers for it. -/
theorem find?_reaches_iff {names : List String} {own : String} :
    let targets := graph.targets path text directory
    (reaches graph targets).entries.find? (name ∈ ·.2) = some (own, names) ↔
      ∃ statement target, Answers graph targets name statement target ∧ target.name = own ∧
        (graph.reachedFrom [target]).map Path.name = names := by
  intro targets
  rw [find?_eq_some_iff_least (pairwise_entries_reaches graph targets), mem_entries_reaches_iff]
  simp only [decide_eq_true_eq]
  constructor
  · rintro ⟨⟨target, lasting, rfl, rfl⟩, inside, least⟩
    obtain ⟨statement, last⟩ := lasting.exists_isLast
    refine ⟨statement, target, ⟨last, mem_names_iff.mp inside, ?_⟩, rfl, rfl⟩
    intro other file last leads
    exact least (file.name, _) (mem_entries_reaches_iff.mpr ⟨file, last.lasting, rfl, rfl⟩)
      (mem_names_iff.mpr leads)
  · rintro ⟨statement, target, ⟨last, leads, least⟩, rfl, rfl⟩
    refine ⟨⟨target, last.lasting, rfl, rfl⟩, mem_names_iff.mpr leads, ?_⟩
    rintro ⟨other, names⟩ member inside
    obtain ⟨file, lasting, rfl, rfl⟩ := mem_entries_reaches_iff.mp member
    obtain ⟨statement, last⟩ := lasting.exists_isLast
    exact least statement file last (mem_names_iff.mp inside)

/-- A name that no direct import has belongs to the line of the import that answers for it. -/
theorem get?_of_indirect_iff
    (indirect : name ∉ (graph.targets path text path.parent).map (·.2.name)) :
    (of graph path text).get? name = some line ↔
      ∃ statement target,
        Answers graph (graph.targets path text path.parent) name statement target ∧
          statement.line = line := by
  rw [get?_of, get?_direct_eq_none indirect, Option.none_or, Option.map_eq_some_iff]
  have given {statement target}
      (answers : Answers graph (graph.targets path text path.parent) name statement target) :
      ((direct (graph.targets path text path.parent)).get? target.name).getD 0 =
        statement.line := by
    rw [get?_direct_iff.mpr ⟨statement, target, answers.last, rfl, rfl⟩, Option.getD_some]
  constructor
  · rintro ⟨⟨own, names⟩, found, rfl⟩
    obtain ⟨statement, target, answers, rfl, -⟩ := find?_reaches_iff.mp found
    exact ⟨statement, target, answers, (given answers).symm⟩
  · rintro ⟨statement, target, answers, rfl⟩
    exact ⟨_, find?_reaches_iff.mpr ⟨statement, target, answers, rfl, rfl⟩, given answers⟩

/-- Holds of a direct import before some others if none of these takes its place: none has its file
name, and none that leads to a file of the given name has a name that is imported before its own. -/
def IsKept (graph : ImportGraph) (targets : List (UseStatement × Path)) (name : String)
    (target : Path) (after : List (UseStatement × Path)) : Prop :=
  (∀ later ∈ after, later.2.name ≠ target.name) ∧
    ∀ later ∈ after, IsLast targets later.1 later.2 → LeadsTo graph later.2 name →
      rank targets target.name ≤ rank targets later.2.name

section First

variable {before after : List (UseStatement × Path)}
  (split : targets = before ++ (statement, target) :: after)
  (first : ∀ earlier ∈ before, ¬ LeadsTo graph earlier.2 name)

include split first

/-- Only the first import that leads to a name and those after it can answer for the name. -/
theorem Answers.eq_or_mem {other : UseStatement} {file : Path}
    (answers : Answers graph targets name other file) :
    (other, file) = (statement, target) ∨ (other, file) ∈ after := by
  have member := answers.last.mem
  rw [split] at member
  rcases List.mem_append.mp member with earlier | later
  · exact absurd answers.leads (first _ earlier)
  · exact List.mem_cons.mp later

/-- The first import that leads to a name answers for it if it is kept. -/
theorem IsKept.answers (kept : IsKept graph targets name target after)
    (leads : LeadsTo graph target name) : Answers graph targets name statement target := by
  refine ⟨⟨before, after, split, kept.1⟩, leads, fun other file last leads' => ?_⟩
  have member := last.mem
  rw [split] at member
  rcases List.mem_append.mp member with earlier | later
  · exact absurd leads' (first _ earlier)
  · rcases List.mem_cons.mp later with same | later
    · exact Nat.le_of_eq (by rw [(Prod.mk.inj same).2])
    · exact kept.2 _ later last leads'

/-- The first import that leads to a name is kept if it answers for it and is not repeated. -/
theorem Answers.isKept (answers : Answers graph targets name statement target)
    (once : (statement, target) ∉ after) : IsKept graph targets name target after := by
  refine ⟨?_, fun later _ last leads => answers.least _ _ last leads⟩
  obtain ⟨before', after', split', others⟩ := answers.last
  have fresh : (statement, target) ∉ before := fun earlier => first _ earlier answers.leads
  obtain ⟨-, -, rfl⟩ := (List.append_cons_inj_of_notMem fresh once).mp (split.symm.trans split')
  exact others

end First

/-- Of the direct imports that lead to a name one is the first. -/
theorem exists_first (leads : ∃ pair ∈ targets, LeadsTo graph pair.2 name) :
    ∃ before statement target after, targets = before ++ (statement, target) :: after ∧
      LeadsTo graph target name ∧ ∀ earlier ∈ before, ¬ LeadsTo graph earlier.2 name := by
  classical
  obtain ⟨⟨statement, target⟩, found⟩ := Option.isSome_iff_exists.mp
    (List.find?_isSome.mpr (by simpa using leads) :
      (targets.find? fun pair => LeadsTo graph pair.2 name).isSome)
  obtain ⟨leads, before, after, split, others⟩ := List.find?_eq_some_iff_append.mp found
  exact ⟨before, statement, target, after, split, by simpa using leads, by simpa using others⟩

/-- Where no two imports share a name, every import is kept. -/
theorem isKept_of_nodup (graph : ImportGraph) (name : String)
    {before after : List (UseStatement × Path)} (distinct : (targets.map (·.2.name)).Nodup)
    (split : targets = before ++ (statement, target) :: after) :
    IsKept graph targets name target after := by
  subst split
  rw [List.map_append, List.map_cons, List.nodup_append, List.nodup_cons] at distinct
  obtain ⟨-, ⟨notAfter, -⟩, apart⟩ := distinct
  have notBefore : target.name ∉ before.map (·.2.name) := fun earlier =>
    apart _ earlier _ List.mem_cons_self rfl
  refine ⟨fun later member same => notAfter ?_, fun later member _ _ => ?_⟩
  · exact same ▸ List.mem_map_of_mem (f := (·.2.name)) member
  · have named : later.2.name ∈ after.map (·.2.name) :=
      List.mem_map_of_mem (f := (·.2.name)) member
    have notBefore' : later.2.name ∉ before.map (·.2.name) := fun earlier =>
      apart _ earlier _ (List.mem_cons_of_mem _ named) rfl
    rw [rank, rank, List.map_append, List.map_cons, List.idxOf_append, if_neg notBefore,
      List.idxOf_append, if_neg notBefore', List.idxOf_cons_self]
    omega

/-- A line that is given is that of an import which leads to the name. -/
theorem exists_leadsTo_of_get? (given : (of graph path text).get? name = some line) :
    ∃ pair ∈ graph.targets path text path.parent, pair.1.line = line ∧
      LeadsTo graph pair.2 name := by
  by_cases named : name ∈ (graph.targets path text path.parent).map (·.2.name)
  · obtain ⟨statement, target, last, same, rfl⟩ := (get?_of_direct_iff named).mp given
    exact ⟨_, last.mem, rfl, target, .refl, same⟩
  · obtain ⟨statement, target, answers, rfl⟩ := (get?_of_indirect_iff named).mp given
    exact ⟨_, answers.last.mem, rfl, answers.leads⟩

/-- **Only lines that are to blame are named.**  Every name with a line is that of a file that the
text reaches, and the line is one of an import of such a file or of one that leads to such a file.
Where no two different files with one name are imported directly, every file that is reached has a
line; where no file name is imported twice, it is the own line of a direct import, and for any other
file that of the first import that leads to a file of its name. -/
theorem lines_are_to_blame (graph : ImportGraph) (path : Path) (text : String) :
    let start := path.normalize
    let targets := graph.targets start text start.parent
    let lines := of graph start text
    (∀ name line, lines.get? name = some line →
      (∃ file ∈ graph.reachableFrom path text none, file.name = name) ∧
      ∃ statement ∈ graph.useStatements start text, statement.isFile ∧ statement.line = line ∧
        LeadsTo graph (ImportGraph.resolve statement.target start.parent) name) ∧
    ((∀ first ∈ targets, ∀ second ∈ targets,
        first.2.name = second.2.name → first.2 = second.2) →
      ∀ file ∈ graph.reachableFrom path text none, lines.contains file.name) ∧
    ((targets.map (·.2.name)).Nodup →
      (∀ pair ∈ targets, lines.get? pair.2.name = some pair.1.line) ∧
      ∀ name line, name ∉ targets.map (·.2.name) →
        (lines.get? name = some line ↔
          ∃ before statement target after, targets = before ++ (statement, target) :: after ∧
            statement.line = line ∧ LeadsTo graph target name ∧
            ∀ earlier ∈ before, ¬ LeadsTo graph earlier.2 name)) := by
  intro start targets lines
  refine ⟨fun name line given => ⟨?_, ?_⟩, fun apart file reached => ?_,
    fun distinct => ⟨fun pair member => ?_, fun name line indirect => ⟨fun given => ?_, ?_⟩⟩⟩
  · obtain ⟨target, lasting, file, chain, named⟩ :=
      contains_of_iff.mp (Option.isSome_iff_exists.mpr ⟨line, given⟩)
    exact ⟨file, ImportGraph.mem_reachable_iff.mpr
      ⟨target, ImportGraph.mem_targets_iff.mp lasting.mem, chain⟩, named⟩
  · obtain ⟨pair, member, lineEq, leads⟩ := exists_leadsTo_of_get? given
    obtain ⟨statement, inside, rfl⟩ := List.mem_map.mp member
    obtain ⟨inside, isFile⟩ := List.mem_filter.mp inside
    exact ⟨statement, inside, isFile, lineEq, leads⟩
  · refine contains_of_iff.mpr (attributed_of_mem_reachable ?_ reached)
    simpa only [List.forall_mem_map] using apart
  · obtain ⟨before, after, split⟩ := List.append_of_mem member
    have kept := isKept_of_nodup graph pair.2.name distinct split
    exact (get?_of_direct_iff (List.mem_map_of_mem (f := (·.2.name)) member)).mpr
      ⟨pair.1, pair.2, ⟨before, after, split, kept.1⟩, rfl, rfl⟩
  · obtain ⟨pair, member, -, leads⟩ := exists_leadsTo_of_get? given
    obtain ⟨before, statement, target, after, split, leads, first⟩ :=
      exists_first ⟨pair, member, leads⟩
    have answers := (isKept_of_nodup graph name distinct split).answers split first leads
    have known := (get?_of_indirect_iff indirect).mpr ⟨statement, target, answers, rfl⟩
    exact ⟨before, statement, target, after, split,
      Option.some.inj (known.symm.trans given), leads, first⟩
  · rintro ⟨before, statement, target, after, split, rfl, leads, first⟩
    have answers := (isKept_of_nodup graph name distinct split).answers split first leads
    exact (get?_of_indirect_iff indirect).mpr ⟨statement, target, answers, rfl⟩

/-- **A file that is not imported directly belongs to the first import that leads to a file of its
name exactly as long as that import is kept.**  Its line is that of the import that answers for it.
The first import that leads there does so if no later import has its file name, and no later one
that leads there has a file name that is imported before; otherwise a later import answers, if
any. -/
theorem line_of_indirect (graph : ImportGraph) (path : Path) (text name : String)
    (indirect : name ∉ (graph.targets path.normalize text path.normalize.parent).map
      (·.2.name)) :
    let start := path.normalize
    let targets := graph.targets start text start.parent
    let lines := of graph start text
    (∀ line, lines.get? name = some line ↔
      ∃ statement target, Answers graph targets name statement target ∧
        statement.line = line) ∧
    ∀ before statement target after, targets = before ++ (statement, target) :: after →
      LeadsTo graph target name → (∀ earlier ∈ before, ¬ LeadsTo graph earlier.2 name) →
      (IsKept graph targets name target after → lines.get? name = some statement.line) ∧
      (¬ IsKept graph targets name target after →
        ∀ line, lines.get? name = some line → ∃ later ∈ after, later.1.line = line ∧
          Answers graph targets name later.1 later.2) := by
  intro start targets lines
  have given (line : Nat) : lines.get? name = some line ↔ _ := get?_of_indirect_iff indirect
  refine ⟨given, fun before statement target after split leads first => ⟨fun kept => ?_, ?_⟩⟩
  · exact (given _).mpr ⟨statement, target, kept.answers split first leads, rfl⟩
  · intro replaced line known
    obtain ⟨other, file, answers, rfl⟩ := (given line).mp known
    by_cases later : (other, file) ∈ after
    · exact ⟨_, later, rfl, answers⟩
    · obtain ⟨rfl, rfl⟩ :=
        Prod.mk.inj ((answers.eq_or_mem split first).resolve_right later)
      exact absurd (answers.isKept split first later) replaced

end

section

open scoped Trial

/-- A document that imports one file twice, with another import between that leads to the same
third file. -/
def repeated : ImportGraph where
  useStatements path _ :=
    if path = ⟨.root, ["w", "main.ump"]⟩ then [⟨"a.ump", 0⟩, ⟨"b.ump", 1⟩, ⟨"a.ump", 2⟩]
    else [⟨"c.ump", 0⟩]
  documents :=
    let path : Path := ⟨.root, ["w", "a.ump"]⟩
    ⟨⟨[("", ⟨"", some path, "", 1⟩)]⟩, ⟨[(path, "")]⟩⟩
  files := .initial .allowed

/-- The last of several imports of one file answers for what already the first one leads to. -/
theorem line_of_repeated :
    let main : Path := ⟨.root, ["w", "main.ump"]⟩
    let targets := repeated.targets main.normalize "" main.normalize.parent
    "c.ump" ∉ targets.map (·.2.name) ∧
      (∃ target rest, targets = (⟨"a.ump", 0⟩, target) :: rest ∧
        LeadsTo repeated target "c.ump") ∧
      (of repeated main.normalize "").get? "c.ump" = some 2 := by
  intro main targets
  let file : Path := ⟨.root, ["w", "a.ump"]⟩
  have indirect : "c.ump" ∉ targets.map (·.2.name) := by decide
  have leads : LeadsTo repeated file "c.ump" :=
    ⟨⟨.root, ["w", "c.ump"]⟩,
      .single ⟨"", Or.inl rfl, ⟨"c.ump", 0⟩, List.mem_singleton_self _, rfl, rfl⟩, rfl⟩
  have answers : Answers repeated targets "c.ump" ⟨"a.ump", 2⟩ file := by
    refine ⟨⟨[_, _], [], rfl, nofun⟩, leads, fun other otherFile _ _ => ?_⟩
    have rankEq : rank targets file.name = 0 := by decide
    exact rankEq ▸ Nat.zero_le _
  exact ⟨indirect, ⟨file, _, rfl, leads⟩,
    ((line_of_indirect repeated main "" "c.ump" indirect).1 2).mpr ⟨_, file, answers, rfl⟩⟩

end

end ImportLines

end ModelAssist
