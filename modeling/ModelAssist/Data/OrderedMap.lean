/-!
# Ordered maps

Finite maps that remember in which order their keys were added.  A new value for an old key keeps
the key's place.
-/

namespace ModelAssist

/-- A finite map as a list of its entries, oldest key first. -/
structure OrderedMap (Key Value : Type) where
  /-- The entries, oldest key first. -/
  entries : List (Key × Value)
deriving Repr, Inhabited

namespace OrderedMap

variable {Key Value : Type} [DecidableEq Key]

/-- The map without entries. -/
def empty : OrderedMap Key Value := ⟨[]⟩

instance : EmptyCollection (OrderedMap Key Value) := ⟨empty⟩

/-- The value of a key in a list of entries. -/
def lookup (key : Key) : List (Key × Value) → Option Value
  | [] => none
  | (other, value) :: rest => if other = key then some value else lookup key rest

/-- The value of a key. -/
def get? (map : OrderedMap Key Value) (key : Key) : Option Value :=
  lookup key map.entries

/-- Holds if a key has a value. -/
def contains (map : OrderedMap Key Value) (key : Key) : Bool :=
  (map.get? key).isSome

/-- A list of entries after a key got a value. -/
def put (key : Key) (value : Value) : List (Key × Value) → List (Key × Value)
  | [] => [(key, value)]
  | (other, old) :: rest =>
    if other = key then (key, value) :: rest else (other, old) :: put key value rest

/-- The map after a key got a value. -/
def insert (map : OrderedMap Key Value) (key : Key) (value : Value) : OrderedMap Key Value :=
  ⟨put key value map.entries⟩

/-- The map without a key. -/
def erase (map : OrderedMap Key Value) (key : Key) : OrderedMap Key Value :=
  ⟨map.entries.filter (·.1 ≠ key)⟩

/-- The map after the value of a key was changed, if it has one, or else set. -/
def modify (map : OrderedMap Key Value) (key : Key) (change : Option Value → Value) :
    OrderedMap Key Value :=
  map.insert key (change (map.get? key))

/-- The keys, oldest first. -/
def keys (map : OrderedMap Key Value) : List Key :=
  map.entries.map (·.1)

/-- The values, in the order of their keys. -/
def values (map : OrderedMap Key Value) : List Value :=
  map.entries.map (·.2)

/-- The count of keys. -/
def size (map : OrderedMap Key Value) : Nat :=
  map.entries.length

/-- The map with changed values under the same keys. -/
def mapValues {Other : Type} (change : Value → Other) (map : OrderedMap Key Value) :
    OrderedMap Key Other :=
  ⟨map.entries.map fun (key, value) => (key, change value)⟩

@[simp] theorem get?_empty (key : Key) : (∅ : OrderedMap Key Value).get? key = none := rfl

/-- A key that was just set has its new value. -/
theorem get?_insert_self (map : OrderedMap Key Value) (key : Key) (value : Value) :
    (map.insert key value).get? key = some value := by
  obtain ⟨entries⟩ := map
  induction entries with
  | nil => simp [insert, put, get?, lookup]
  | cons entry rest ih =>
    simp only [insert, get?, put] at ih ⊢
    split <;> simp_all [lookup]

/-- Setting one key leaves the others alone. -/
theorem get?_insert_of_ne (map : OrderedMap Key Value) {key other : Key} (value : Value)
    (different : other ≠ key) : (map.insert key value).get? other = map.get? other := by
  obtain ⟨entries⟩ := map
  induction entries with
  | nil => simp [insert, put, get?, lookup, different.symm]
  | cons entry rest ih =>
    simp only [insert, get?, put] at ih ⊢
    split
    · next same => subst same; simp [lookup, different.symm]
    · simp only [lookup, ih]

/-- Reading a key after any key was set. -/
theorem get?_insert (map : OrderedMap Key Value) (key other : Key) (value : Value) :
    (map.insert key value).get? other = if other = key then some value else map.get? other := by
  by_cases same : other = key
  · rw [if_pos same, same, get?_insert_self]
  · rw [if_neg same, get?_insert_of_ne map value same]

/-- Reading a key after any key was erased. -/
theorem get?_erase (map : OrderedMap Key Value) (key other : Key) :
    (map.erase key).get? other = if other = key then none else map.get? other := by
  obtain ⟨entries⟩ := map
  induction entries with
  | nil => simp [erase, get?, lookup]
  | cons entry rest ih =>
    simp only [erase, get?, List.filter_cons] at ih ⊢
    by_cases erased : entry.1 = key
    · by_cases same : other = key <;> simp_all [lookup, eq_comm]
    · by_cases found : entry.1 = other <;> simp_all [lookup]

/-- A key has a value exactly if some entry names it. -/
theorem mem_keys_iff (map : OrderedMap Key Value) (key : Key) :
    key ∈ map.keys ↔ (map.get? key).isSome := by
  obtain ⟨entries⟩ := map
  induction entries with
  | nil => simp [keys, get?, lookup]
  | cons entry rest ih =>
    simp only [keys, get?, List.map_cons, List.mem_cons, lookup] at ih ⊢
    by_cases found : entry.1 = key
    · simp [found]
    · simp [found, ih, Ne.symm found]

/-- The value of a key stands in one of the entries. -/
theorem mem_entries_of_get? {map : OrderedMap Key Value} {key : Key} {value : Value}
    (found : map.get? key = some value) : (key, value) ∈ map.entries := by
  obtain ⟨entries⟩ := map
  induction entries with
  | nil => simp [get?, lookup] at found
  | cons entry rest ih =>
    simp only [get?, lookup] at found ih
    split at found
    · next same =>
      have entryEq : (key, value) = entry := Prod.ext same.symm (Option.some.inj found).symm
      rw [entryEq]
      exact List.mem_cons_self
    · exact List.mem_cons_of_mem _ (ih found)

/-- Without repeated keys every entry holds the value of its key. -/
theorem get?_of_mem_entries {map : OrderedMap Key Value} (distinct : map.keys.Nodup)
    {key : Key} {value : Value} (member : (key, value) ∈ map.entries) :
    map.get? key = some value := by
  obtain ⟨entries⟩ := map
  induction entries with
  | nil => cases member
  | cons entry rest ih =>
    simp only [keys, List.map_cons, List.nodup_cons] at distinct
    simp only [get?, lookup]
    rcases List.mem_cons.mp member with rfl | later
    · simp
    · have different : entry.1 ≠ key := by
        intro same
        exact distinct.1 (same ▸ List.mem_map_of_mem (f := Prod.fst) later)
      rw [if_neg different]
      exact ih distinct.2 later

/-- The keys of a list of entries after a key got a value. -/
theorem map_fst_put (key : Key) (value : Value) (entries : List (Key × Value)) :
    (put key value entries).map (·.1) =
      if key ∈ entries.map (·.1) then entries.map (·.1) else entries.map (·.1) ++ [key] := by
  induction entries with
  | nil => simp [put]
  | cons entry rest ih =>
    simp only [put, List.map_cons, List.mem_cons]
    by_cases found : entry.1 = key
    · simp [found]
    · simp only [found, ↓reduceIte, List.map_cons, ih, Ne.symm found, false_or]
      by_cases member : key ∈ rest.map (·.1)
      · rw [if_pos member, if_pos member]
      · rw [if_neg member, if_neg member, List.cons_append]

/-- A new key comes last, and an old one keeps its place. -/
theorem keys_insert (map : OrderedMap Key Value) (key : Key) (value : Value) :
    (map.insert key value).keys = if key ∈ map.keys then map.keys else map.keys ++ [key] :=
  map_fst_put key value map.entries

/-- No key is repeated by setting one. -/
theorem nodup_keys_insert {map : OrderedMap Key Value} (distinct : map.keys.Nodup) (key : Key)
    (value : Value) : (map.insert key value).keys.Nodup := by
  rw [keys_insert]
  split
  · exact distinct
  · next absent =>
    rw [List.nodup_append]
    refine ⟨distinct, by simp, ?_⟩
    rintro other member _ last rfl
    exact absent (List.mem_singleton.mp last ▸ member)

/-- Erasing a key leaves the other keys in their order. -/
theorem keys_erase (map : OrderedMap Key Value) (key : Key) :
    (map.erase key).keys = map.keys.filter (· ≠ key) := by
  simp only [keys, erase, List.filter_map, Function.comp_def]

/-- No key is repeated by erasing one. -/
theorem nodup_keys_erase {map : OrderedMap Key Value} (distinct : map.keys.Nodup) (key : Key) :
    (map.erase key).keys.Nodup := by
  rw [keys_erase]
  exact distinct.filter _

/-- The value of a key is one of the values. -/
theorem mem_values_of_get? {map : OrderedMap Key Value} {key : Key} {value : Value}
    (found : map.get? key = some value) : value ∈ map.values :=
  List.mem_map_of_mem (f := Prod.snd) (mem_entries_of_get? found)

/-- Among the values that are kept an old value is not missed, nor is the new one that replaces it,
if neither of them is kept. -/
theorem filter_values_insert {map : OrderedMap Key Value} {key : Key} {old new : Value}
    {keep : Value → Bool} (found : map.get? key = some old) (dropped : keep old = false)
    (dropped' : keep new = false) :
    (map.insert key new).values.filter keep = map.values.filter keep := by
  obtain ⟨entries⟩ := map
  simp only [insert, values, get?] at found ⊢
  induction entries with
  | nil => cases found
  | cons entry rest ih =>
    simp only [put, lookup] at found ⊢
    split at found
    · next same =>
      have oldEq : entry.2 = old := Option.some.inj found
      simp [same, oldEq, dropped, dropped']
    · next different =>
      rw [if_neg different, List.map_cons, List.map_cons, List.filter_cons, List.filter_cons,
        ih found]

omit [DecidableEq Key] in
/-- Changed values stand in the order of the old ones. -/
theorem values_mapValues {Other : Type} (change : Value → Other) (map : OrderedMap Key Value) :
    (map.mapValues change).values = map.values.map change := by
  simp [values, mapValues]

/-- Reading a changed value. -/
theorem get?_mapValues {Other : Type} (change : Value → Other) (map : OrderedMap Key Value)
    (key : Key) : (map.mapValues change).get? key = (map.get? key).map change := by
  obtain ⟨entries⟩ := map
  simp only [get?, mapValues]
  induction entries with
  | nil => rfl
  | cons entry rest ih =>
    simp only [List.map_cons, lookup]
    split
    · rfl
    · exact ih

/-- A value may be changed before or after it is set. -/
theorem mapValues_insert {Other : Type} (change : Value → Other) (map : OrderedMap Key Value)
    (key : Key) (value : Value) :
    (map.insert key value).mapValues change = (map.mapValues change).insert key (change value) := by
  obtain ⟨entries⟩ := map
  simp only [insert, mapValues, mk.injEq]
  induction entries with
  | nil => rfl
  | cons entry rest ih =>
    simp only [put, List.map_cons]
    split
    · rfl
    · rw [List.map_cons, ih]

/-- A key may be erased before or after the values are changed. -/
theorem mapValues_erase {Other : Type} (change : Value → Other) (map : OrderedMap Key Value)
    (key : Key) : (map.erase key).mapValues change = (map.mapValues change).erase key := by
  simp only [erase, mapValues, List.filter_map, Function.comp_def]

end OrderedMap

end ModelAssist
