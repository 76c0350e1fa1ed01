import Mathlib.Data.List.Perm.Basic
import ModelAssist.Symbol.Registry

/-!
# Buckets of a registry

What adding and retracting the symbols of a file does to the bucket of a container
(`Registry.bucket`) and to all symbols together (`Registry.all`).  Every registry that is reached by
these operations is tidy: no container is named twice, and none is without symbols.  It is also
sorted: the bucket of a container holds exactly the symbols of the container.
-/

namespace ModelAssist

namespace Registry

/-- The symbols of a container. -/
def bucket (registry : Registry) (container : String) : List SymbolEntry :=
  (registry.buckets.get? container).getD []

/-- The symbols of all containers. -/
def all (registry : Registry) : List SymbolEntry :=
  registry.buckets.values.flatten

/-- Holds if no container is named twice and none is without symbols. -/
structure Tidy (registry : Registry) : Prop where
  distinct : registry.buckets.keys.Nodup
  filled : ∀ entry ∈ registry.buckets.entries, entry.2 ≠ []

/-- The members of a container are looked up in its bucket. -/
theorem members_eq (registry : Registry) (container : String) (filter : SymbolFilter) :
    registry.members container filter = (registry.bucket container).filter filter.admits := rfl

/-- An empty registry is tidy. -/
theorem tidy_empty : (∅ : Registry).Tidy :=
  ⟨List.nodup_nil, fun _ member => absurd member List.not_mem_nil⟩

@[simp] theorem bucket_empty (container : String) : (∅ : Registry).bucket container = [] := rfl

@[simp] theorem all_empty : (∅ : Registry).all = [] := rfl

/-- A symbol is added at the end of the bucket of its container. -/
theorem bucket_add (registry : Registry) (symbol : SymbolEntry) (container : String) :
    (registry.add symbol).bucket container =
      registry.bucket container ++ [symbol].filter (·.container = some container) := by
  unfold add
  split
  · next none_ => simp [none_]
  · next own some_ =>
      simp only [bucket, OrderedMap.modify, OrderedMap.get?_insert]
      by_cases same : container = own
      · simp [same, some_]
      · simp [same, some_, Ne.symm same]

private theorem mem_put {key : String} {value : List SymbolEntry}
    {entries : List (String × List SymbolEntry)} {entry : String × List SymbolEntry}
    (member : entry ∈ OrderedMap.put key value entries) :
    entry = (key, value) ∨ entry ∈ entries := by
  induction entries with
  | nil => exact Or.inl (List.mem_singleton.mp member)
  | cons first rest ih =>
      simp only [OrderedMap.put] at member
      split at member
      · rcases List.mem_cons.mp member with same | old
        · exact Or.inl same
        · exact Or.inr (List.mem_cons_of_mem _ old)
      · rcases List.mem_cons.mp member with same | later
        · exact Or.inr (same ▸ List.mem_cons_self)
        · exact (ih later).imp_right (List.mem_cons_of_mem _)

/-- Adding a symbol keeps the registry tidy. -/
theorem Tidy.add {registry : Registry} (tidy : registry.Tidy) (symbol : SymbolEntry) :
    (registry.add symbol).Tidy := by
  unfold Registry.add
  split
  · exact tidy
  · refine ⟨OrderedMap.nodup_keys_insert tidy.distinct _ _, ?_⟩
    intro entry member
    rcases mem_put member with rfl | old
    · simp
    · exact tidy.filled entry old

/-- A longer bucket adds its new symbols to all symbols. -/
private theorem flatten_put (key : String) (further : List SymbolEntry)
    (entries : List (String × List SymbolEntry)) :
    ((OrderedMap.put key ((OrderedMap.lookup key entries).getD [] ++ further) entries).map
      (·.2)).flatten.Perm ((entries.map (·.2)).flatten ++ further) := by
  induction entries with
  | nil => simp [OrderedMap.put, OrderedMap.lookup]
  | cons first rest ih =>
      simp only [OrderedMap.put, OrderedMap.lookup]
      split
      · simp only [Option.getD_some, List.map_cons, List.flatten_cons, List.append_assoc]
        exact (List.perm_append_comm).append_left _
      · simp only [List.map_cons, List.flatten_cons, List.append_assoc]
        exact ih.append_left _

/-- A symbol that has a container is added to all symbols. -/
theorem all_add (registry : Registry) (symbol : SymbolEntry) :
    (registry.add symbol).all.Perm (registry.all ++ [symbol].filter (·.container.isSome)) := by
  unfold add
  split
  · next none_ => simp [none_]
  · next own some_ =>
      have admitted : [symbol].filter (·.container.isSome) = [symbol] := by simp [some_]
      rw [admitted]
      exact flatten_put own [symbol] registry.buckets.entries

private theorem filter_own {file : String} {symbols : List SymbolEntry}
    (own : ∀ symbol ∈ symbols, symbol.file = file) :
    symbols.filter (·.file = file) = symbols :=
  List.filter_eq_self.mpr fun symbol member => by simpa using own symbol member

/-- The symbols of a file are added at the end of the buckets of their containers. -/
theorem bucket_insert (registry : Registry) {file : String} {symbols : List SymbolEntry}
    (own : ∀ symbol ∈ symbols, symbol.file = file) (container : String) :
    (registry.insert file symbols).bucket container =
      registry.bucket container ++ symbols.filter (·.container = some container) := by
  rw [insert, filter_own own]
  clear own
  induction symbols generalizing registry with
  | nil => simp
  | cons symbol rest ih =>
      rw [List.foldl_cons, ih, bucket_add, List.append_assoc, ← List.filter_append]
      rfl

/-- The symbols of a file that have a container are added to all symbols. -/
theorem all_insert (registry : Registry) {file : String} {symbols : List SymbolEntry}
    (own : ∀ symbol ∈ symbols, symbol.file = file) :
    (registry.insert file symbols).all.Perm
      (registry.all ++ symbols.filter (·.container.isSome)) := by
  rw [insert, filter_own own]
  clear own
  induction symbols generalizing registry with
  | nil => simp
  | cons symbol rest ih =>
      rw [List.foldl_cons]
      refine (ih _).trans ?_
      have added := (registry.all_add symbol).append_right (rest.filter (·.container.isSome))
      rw [List.append_assoc, ← List.filter_append] at added
      exact added

/-- Inserting the symbols of a file keeps the registry tidy. -/
theorem Tidy.insert {registry : Registry} (tidy : registry.Tidy) (file : String)
    (symbols : List SymbolEntry) : (registry.insert file symbols).Tidy := by
  unfold Registry.insert
  induction symbols.filter (·.file = file) generalizing registry with
  | nil => exact tidy
  | cons symbol rest ih => exact ih (tidy.add symbol)

/-- An entry of a registry without the symbols of a file, if any symbols are left. -/
private def keep? (file : String) (entry : String × List SymbolEntry) :
    Option (String × List SymbolEntry) :=
  match entry.2.filter (·.file ≠ file) with
  | [] => none
  | kept => some (entry.1, kept)

private theorem retract_eq (registry : Registry) (file : String) :
    registry.retract file = ⟨⟨registry.buckets.entries.filterMap (keep? file)⟩⟩ := rfl

private theorem keep?_eq_some {file : String} {entry kept : String × List SymbolEntry}
    (keeps : keep? file entry = some kept) :
    kept.1 = entry.1 ∧ kept.2 = entry.2.filter (·.file ≠ file) ∧ kept.2 ≠ [] := by
  unfold keep? at keeps
  split at keeps
  · cases keeps
  · next left different =>
      obtain rfl := Option.some.inj keeps
      exact ⟨rfl, rfl, different⟩

private theorem keep?_eq_none {file : String} {entry : String × List SymbolEntry}
    (lost : keep? file entry = none) : entry.2.filter (·.file ≠ file) = [] := by
  unfold keep? at lost
  split at lost
  · next nothing => exact nothing
  · cases lost

private theorem mem_entries_retract {registry : Registry} {file : String}
    {kept : String × List SymbolEntry} :
    kept ∈ (registry.retract file).buckets.entries ↔
      ∃ entry ∈ registry.buckets.entries, keep? file entry = some kept := by
  rw [retract_eq]
  exact List.mem_filterMap

private theorem keys_retract_sublist (registry : Registry) (file : String) :
    (registry.retract file).buckets.keys.Sublist registry.buckets.keys := by
  rw [retract_eq]
  simp only [OrderedMap.keys]
  induction registry.buckets.entries with
  | nil => exact List.Sublist.refl _
  | cons entry rest ih =>
      rw [List.filterMap_cons]
      split
      · exact ih.cons _
      · next kept keeps =>
          rw [List.map_cons, List.map_cons, (keep?_eq_some keeps).1]
          exact ih.cons_cons _

/-- Retracting a file keeps the registry tidy. -/
theorem Tidy.retract {registry : Registry} (tidy : registry.Tidy) (file : String) :
    (registry.retract file).Tidy := by
  refine ⟨(keys_retract_sublist registry file).nodup tidy.distinct, ?_⟩
  intro entry member
  obtain ⟨old, _, keeps⟩ := mem_entries_retract.mp member
  exact (keep?_eq_some keeps).2.2

/-- A bucket without the symbols of a file. -/
theorem bucket_retract {registry : Registry} (tidy : registry.Tidy) (file container : String) :
    (registry.retract file).bucket container =
      (registry.bucket container).filter (·.file ≠ file) := by
  have left : ∀ kept, (registry.retract file).buckets.get? container = some kept →
      kept = (registry.bucket container).filter (·.file ≠ file) := by
    intro kept found
    obtain ⟨⟨name, symbols⟩, member, keeps⟩ :=
      mem_entries_retract.mp (OrderedMap.mem_entries_of_get? found)
    obtain ⟨rfl, keptEq, _⟩ := keep?_eq_some keeps
    have held : registry.buckets.get? container = some symbols :=
      OrderedMap.get?_of_mem_entries tidy.distinct member
    rw [bucket, held]
    exact keptEq
  cases found : (registry.retract file).buckets.get? container with
  | some kept =>
      rw [← left kept found, bucket, found]
      rfl
  | none =>
      cases held : registry.buckets.get? container with
      | none => simp [bucket, found, held]
      | some symbols =>
          -- No entry is left of the container, so all its symbols were those of the file.
          cases keeps : keep? file (container, symbols) with
          | none =>
              have nothing := keep?_eq_none keeps
              simp only [bucket, found, held, Option.getD_none, Option.getD_some, nothing]
          | some kept =>
              have entry : kept ∈ (registry.retract file).buckets.entries :=
                mem_entries_retract.mpr ⟨_, OrderedMap.mem_entries_of_get? held, keeps⟩
              have named : kept.1 = container := (keep?_eq_some keeps).1
              have present := OrderedMap.get?_of_mem_entries (tidy.retract file).distinct entry
              rw [named, found] at present
              cases present

/-- All symbols without those of a file. -/
theorem all_retract (registry : Registry) (file : String) :
    (registry.retract file).all = registry.all.filter (·.file ≠ file) := by
  rw [retract_eq]
  simp only [all, OrderedMap.values]
  induction registry.buckets.entries with
  | nil => rfl
  | cons entry rest ih =>
      rw [List.filterMap_cons, List.map_cons, List.flatten_cons, List.filter_append, ← ih]
      split
      · next lost => rw [keep?_eq_none lost, List.nil_append]
      · next kept keeps => rw [List.map_cons, List.flatten_cons, (keep?_eq_some keeps).2.1]

/-! ### Changes of a registry -/

/-- A change of a registry. -/
inductive Change where
  | insert (file : String) (symbols : List SymbolEntry)
  | retract (file : String)
  | clear

/-- The registry after a change. -/
def Change.apply : Change → Registry → Registry
  | .insert file symbols, registry => registry.insert file symbols
  | .retract file, registry => registry.retract file
  | .clear, _ => ∅

/-- The registry that some changes lead to. -/
def after (changes : List Change) : Registry :=
  changes.foldl (fun registry change => change.apply registry) ∅

/-- Holds of a tidy registry with every symbol in the bucket of its container and in no other. -/
structure Sorted (registry : Registry) : Prop where
  tidy : registry.Tidy
  bucket_perm : ∀ container, (registry.bucket container).Perm
    (registry.all.filter (·.container = some container))

/-- An empty registry is sorted. -/
theorem sorted_empty : (∅ : Registry).Sorted :=
  ⟨tidy_empty, fun _ => .refl _⟩

namespace Sorted

variable {registry : Registry} (sorted : registry.Sorted)
include sorted

/-- Adding a symbol keeps the registry sorted. -/
theorem add (symbol : SymbolEntry) : (registry.add symbol).Sorted := by
  refine ⟨sorted.tidy.add symbol, fun container => ?_⟩
  have added := (registry.all_add symbol).filter (·.container = some container)
  have owned : ([symbol].filter (·.container.isSome)).filter (·.container = some container) =
      [symbol].filter (·.container = some container) := by
    rw [List.filter_filter]
    refine List.filter_congr fun other _ => ?_
    cases other.container <;> simp
  rw [List.filter_append, owned] at added
  rw [bucket_add]
  exact ((sorted.bucket_perm container).append_right _).trans added.symm

/-- Inserting the symbols of a file keeps the registry sorted. -/
theorem insert (file : String) (symbols : List SymbolEntry) :
    (registry.insert file symbols).Sorted := by
  unfold Registry.insert
  induction symbols.filter (·.file = file) generalizing registry with
  | nil => exact sorted
  | cons symbol rest ih => exact ih (sorted.add symbol)

/-- Retracting a file keeps the registry sorted. -/
theorem retract (file : String) : (registry.retract file).Sorted := by
  refine ⟨sorted.tidy.retract file, fun container => ?_⟩
  rw [bucket_retract sorted.tidy, all_retract, List.filter_comm]
  exact (sorted.bucket_perm container).filter _

/-- Every change keeps the registry sorted. -/
theorem apply (change : Change) : (change.apply registry).Sorted := by
  cases change with
  | insert file symbols => exact sorted.insert file symbols
  | retract file => exact sorted.retract file
  | clear => exact sorted_empty

end Sorted

/-- A registry is sorted after any changes. -/
theorem sorted_after (changes : List Change) : (after changes).Sorted := by
  have kept (registry : Registry) (sorted : registry.Sorted) :
      (changes.foldl (fun registry change => change.apply registry) registry).Sorted := by
    induction changes generalizing registry with
    | nil => exact sorted
    | cons change rest ih => exact ih _ (sorted.apply change)
  exact kept ∅ sorted_empty

end Registry

end ModelAssist
