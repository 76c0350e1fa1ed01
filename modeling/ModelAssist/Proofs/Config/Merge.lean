import Mathlib.Data.List.Induction
import Mathlib.Data.List.Nodup
import ModelAssist.Data.Merge

/-!
# What merged records hold

Settings lie in sections, which are records in a record.  Where several such records are laid over
each other, a setting that is no record itself has the value of the uppermost one that has it
(`Entries.at?_over`).
-/

namespace ModelAssist

/-- Of two steps that succeed one after the other the first one does. -/
theorem exists_of_bind_eq_ok {Fault First Last : Type} {first : Except Fault First}
    {next : First → Except Fault Last} {last : Last} (succeeds : (first >>= next) = .ok last) :
    ∃ middle, first = .ok middle ∧ next middle = .ok last := by
  cases first with
  | error fault => cases succeeds
  | ok middle => exact ⟨middle, rfl, succeeds⟩

/-- What is told in other words when it fails succeeds as it is. -/
theorem eq_ok_of_mapError_eq_ok {Fault Other Result : Type} {tried : Except Fault Result}
    {tell : Fault → Other} {result : Result} (succeeds : tried.mapError tell = .ok result) :
    tried = .ok result := by
  cases tried with
  | error fault => cases succeeds
  | ok held =>
      cases succeeds
      rfl

namespace Entries

variable {entries : Entries} {key other : Key} {value : Value}

def keys (entries : Entries) : List Key :=
  entries.map (·.1)

/-- The first entry of a name answers for it. -/
theorem get?_cons (entry : Key × Value) (rest : Entries) (key : Key) :
    Entries.get? (entry :: rest) key =
      if entry.1 = key then some entry.2 else Entries.get? rest key := by
  unfold Entries.get?
  rw [List.find?_cons]
  by_cases same : entry.1 = key <;> simp [same]

/-- What is found under a name is among the entries. -/
theorem mem_of_get? (found : entries.get? key = some value) : (key, value) ∈ entries := by
  induction entries with
  | nil => cases found
  | cons entry rest ih =>
      rw [get?_cons] at found
      split at found
      · next same =>
          obtain rfl := Option.some.inj found
          exact same ▸ List.mem_cons_self
      · exact List.mem_cons_of_mem _ (ih found)

/-- Nothing is found under a name that no entry has. -/
theorem get?_eq_none_iff : entries.get? key = none ↔ key ∉ entries.keys := by
  rw [Entries.get?, Option.map_eq_none_iff, List.find?_eq_none, keys, List.mem_map]
  constructor
  · rintro absent ⟨entry, member, same⟩
    simpa [same] using absent entry member
  · intro absent entry member
    simpa using fun same => absent ⟨entry, member, same⟩

/-- A key that occurs once has the value that it occurs with. -/
theorem get?_eq_of_mem (distinct : entries.keys.Nodup) (member : (key, value) ∈ entries) :
    entries.get? key = some value := by
  induction entries with
  | nil => cases member
  | cons entry rest ih =>
      obtain ⟨absent, distinct⟩ := List.nodup_cons.mp distinct
      rw [get?_cons]
      rcases List.mem_cons.mp member with rfl | member
      · exact if_pos rfl
      · have different : entry.1 ≠ key := by
          intro same
          exact absent (List.mem_map.mpr ⟨(key, value), member, same.symm⟩)
        rw [if_neg different]
        exact ih distinct member

/-- An inserted value is found under its name, and the other names keep theirs. -/
theorem get?_insert (entries : Entries) (key : Key) (value : Value) (other : Key) :
    (entries.insert key value).get? other =
      if other = key then some value else entries.get? other := by
  induction entries with
  | nil =>
      rw [Entries.insert, get?_cons]
      simp only [eq_comm]
  | cons entry rest ih =>
      obtain ⟨first, old⟩ := entry
      rw [Entries.insert]
      by_cases same : first = key
      · rw [if_pos same, get?_cons, get?_cons, same]
        by_cases asked : key = other
        · rw [if_pos asked, if_pos asked.symm]
        · rw [if_neg asked, if_neg (Ne.symm asked), if_neg asked]
      · rw [if_neg same, get?_cons, get?_cons, ih]
        by_cases asked : first = other
        · rw [if_pos asked, if_pos asked, if_neg fun own => same (asked.trans own)]
        · rw [if_neg asked, if_neg asked]

/-- An inserted value is found in its field, and the other fields keep theirs. -/
theorem field?_insert (entries : Entries) (first key : String) (value : Value) :
    field? (entries.insert (.text first) value) key =
      if key = first then some value else entries.field? key := by
  rw [field?, get?_insert]
  simp only [Key.text.injEq]
  rfl

/-- Inserting a value adds its name. -/
theorem mem_keys_insert : other ∈ (entries.insert key value).keys ↔
    other = key ∨ other ∈ entries.keys := by
  have absent : other ∉ (entries.insert key value).keys ↔
      ¬ (other = key ∨ other ∈ entries.keys) := by
    rw [← get?_eq_none_iff, get?_insert, not_or, ← get?_eq_none_iff]
    by_cases same : other = key <;> simp [same]
  exact not_iff_not.mp absent

/-- Inserting a value keeps the names distinct. -/
theorem nodup_keys_insert (distinct : entries.keys.Nodup) (key : Key) (value : Value) :
    (entries.insert key value).keys.Nodup := by
  induction entries with
  | nil => exact List.nodup_singleton _
  | cons entry rest ih =>
      obtain ⟨first, old⟩ := entry
      obtain ⟨absent, distinct⟩ := List.nodup_cons.mp distinct
      rw [Entries.insert]
      split
      · next same => exact List.nodup_cons.mpr ⟨same ▸ absent, distinct⟩
      · next different =>
          refine List.nodup_cons.mpr ⟨?_, ih distinct⟩
          intro member
          rcases mem_keys_insert.mp member with same | member
          · exact different same
          · exact absent member

/-- Entries that are made of pairs have distinct names. -/
theorem nodup_keys_ofPairs (pairs : List (Key × Value)) : (Entries.ofPairs pairs).keys.Nodup := by
  induction pairs using List.reverseRecOn with
  | nil => exact List.nodup_nil
  | append_singleton pairs last ih =>
      rw [Entries.ofPairs, List.foldl_append]
      exact nodup_keys_insert ih last.1 last.2

/-- Of several pairs with one key the last one counts. -/
theorem get?_ofPairs (pairs : List (Key × Value)) (key : Key) :
    (Entries.ofPairs pairs).get? key = Entries.get? pairs.reverse key := by
  induction pairs using List.reverseRecOn with
  | nil => rfl
  | append_singleton pairs last ih =>
      have appended : Entries.ofPairs (pairs ++ [last]) =
          (Entries.ofPairs pairs).insert last.1 last.2 := by
        rw [Entries.ofPairs, List.foldl_append]
        rfl
      rw [appended, get?_insert, ih, List.reverse_append, List.reverse_singleton,
        List.singleton_append, get?_cons]
      simp only [eq_comm]

/-- A merged record has of every key what the upper record has, laid over what the lower one has. -/
theorem get?_over (lower : Entries) {upper : Entries} (distinct : upper.keys.Nodup) (key : Key) :
    Entries.get? (Entries.over lower upper) key =
      match upper.get? key, lower.get? key with
      | some value, some below => some (below.over value)
      | some value, none => some value
      | none, below => below := by
  induction upper generalizing lower with
  | nil =>
      rw [Entries.over]
      rfl
  | cons entry rest ih =>
      obtain ⟨first, value⟩ := entry
      obtain ⟨absent, distinct⟩ := List.nodup_cons.mp distinct
      rw [Entries.over, ih _ distinct, get?_insert, get?_cons]
      by_cases same : first = key
      · subst same
        rw [get?_eq_none_iff.mpr absent, if_pos rfl, if_pos rfl]
        cases Entries.get? lower first with
        | none => rfl
        | some below => rfl
      · rw [if_neg (Ne.symm same), if_neg same]

/-- Laying entries over others keeps the names distinct. -/
theorem nodup_keys_over {lower : Entries} (distinct : lower.keys.Nodup) (upper : Entries) :
    (keys (Entries.over lower upper)).Nodup := by
  induction upper generalizing lower with
  | nil => exact distinct
  | cons entry rest ih =>
      obtain ⟨first, value⟩ := entry
      rw [Entries.over]
      exact ih (nodup_keys_insert distinct _ _)

end Entries

/-- Holds of what is no record. -/
def Value.IsSimple (value : Value) : Prop :=
  ∀ entries, value ≠ .record entries

/-- Laying a value over another one gives a record or the upper value. -/
theorem Value.over_eq_of_isSimple {lower value : Value} (simple : (lower.over value).IsSimple) :
    lower.over value = value := by
  unfold Value.over at simple ⊢
  split
  · cases lower <;> exact absurd rfl (simple _)
  · rfl

/-- A record over a record is merged entry by entry. -/
theorem Value.over_record (lower upper : Entries) :
    (Value.record lower).over (.record upper) = .record (Entries.over lower upper) := by
  unfold Value.over
  rfl

/-- A record takes the place of what is no record. -/
theorem Value.IsSimple.over_record {lower : Value} (simple : lower.IsSimple) (upper : Entries) :
    lower.over (.record upper) = .record upper := by
  unfold Value.over
  split
  · next entries => exact absurd rfl (simple entries)
  · rfl

/-- Laying values over each other gives a record only if the upper one is a record, which is laid
over the lower one if that is a record, too. -/
theorem Value.exists_of_over_eq_record {lower value : Value} {entries : Entries}
    (same : lower.over value = .record entries) :
    ∃ upper, value = .record upper ∧
      (entries = upper ∨ ∃ below, lower = .record below ∧ entries = Entries.over below upper) := by
  cases value with
  | record upper =>
      refine ⟨upper, rfl, ?_⟩
      by_cases isRecord : ∃ below, lower = .record below
      · obtain ⟨below, rfl⟩ := isRecord
        rw [Value.over_record] at same
        exact .inr ⟨below, rfl, (Value.record.inj same).symm⟩
      · have simple : lower.IsSimple := fun below same => isRecord ⟨below, same⟩
        rw [simple.over_record] at same
        exact .inl (Value.record.inj same).symm
  | _ => cases same

namespace Entries

/-- The value under a key of a section. -/
def at? (entries : Entries) (group key : String) : Option Value :=
  match entries.field? group with
  | some (.record inner) => Entries.field? inner key
  | _ => none

/-- Holds if a section is a record where it is given. -/
def HasSection (entries : Entries) (group : String) : Prop :=
  ∀ value, entries.field? group = some value → ∃ inner, value = .record inner

instance (entries : Entries) (group : String) : Decidable (entries.HasSection group) :=
  decidable_of_iff ((entries.field? group).all fun value => value matches .record _) <| by
    unfold HasSection
    cases entries.field? group with
    | none => simp
    | some value => cases value <;> simp

/-- Holds if the keys of a section differ where it is a record. -/
def DistinctAt (entries : Entries) (group : String) : Prop :=
  ∀ inner, entries.field? group = some (.record inner) → (keys inner).Nodup

/-- A setting of a record is a field of its section. -/
theorem at?_of_field? {entries inner : Entries} {group : String}
    (found : entries.field? group = some (.record inner)) (key : String) :
    entries.at? group key = inner.field? key := by
  rw [at?, found]

/-- There are no settings of an absent section. -/
theorem at?_of_none {entries : Entries} {group : String} (absent : entries.field? group = none)
    (key : String) : entries.at? group key = none := by
  rw [at?, absent]

/-- A section that is no record has no settings. -/
theorem at?_of_isSimple {entries : Entries} {group : String} {value : Value}
    (simple : value.IsSimple) (found : entries.field? group = some value) (key : String) :
    entries.at? group key = none := by
  rw [at?, found]
  cases value with
  | record inner => exact absurd rfl (simple inner)
  | _ => rfl

section

variable {lower upper : Entries} {group key : String}

/-- A field of merged entries is merged of the fields where both have it. -/
theorem field?_over (lower : Entries) (distinct : upper.keys.Nodup) (name : String) :
    field? (Entries.over lower upper) name =
      match upper.field? name, lower.field? name with
      | some value, some below => some (below.over value)
      | some value, none => some value
      | none, below => below :=
  get?_over lower distinct _

/-- What is laid over another record has a section only if it stays a record. -/
theorem HasSection.of_over (distinct : upper.keys.Nodup)
    (merged : HasSection (Entries.over lower upper) group) : upper.HasSection group := by
  intro value found
  have there := field?_over lower distinct group
  rw [found] at there
  cases below : lower.field? group with
  | none =>
      rw [below] at there
      exact merged value there
  | some other =>
      rw [below] at there
      obtain ⟨inner, same⟩ := merged _ there
      obtain ⟨upper, isRecord, -⟩ := Value.exists_of_over_eq_record same
      exact ⟨upper, isRecord⟩

/-- The keys of a section differ still when another one is laid over it. -/
theorem DistinctAt.over (distinct : upper.keys.Nodup) (below : lower.DistinctAt group)
    (above : upper.DistinctAt group) : DistinctAt (Entries.over lower upper) group := by
  intro inner found
  have there := field?_over lower distinct group
  rw [found] at there
  cases upperValue : upper.field? group with
  | none =>
      rw [upperValue] at there
      exact below inner there.symm
  | some value =>
      rw [upperValue] at there
      cases lowerValue : lower.field? group with
      | none =>
          rw [lowerValue] at there
          exact above inner (upperValue.trans there.symm)
      | some other =>
          rw [lowerValue] at there
          obtain ⟨innerAbove, rfl, rfl | ⟨innerBelow, rfl, rfl⟩⟩ :=
            Value.exists_of_over_eq_record (Option.some.inj there).symm
          · exact above inner upperValue
          · exact nodup_keys_over (below innerBelow lowerValue) innerAbove

/-- **A setting has the value of the uppermost record that has it.**  A section that is no record
has no settings, and a record that is laid over it takes its place. -/
theorem at?_over (distinct : upper.keys.Nodup) (isSection : upper.HasSection group)
    (differ : upper.DistinctAt group)
    (simple : ∀ value, at? (Entries.over lower upper) group key = some value →
      Value.IsSimple value) :
    at? (Entries.over lower upper) group key = (upper.at? group key <|> lower.at? group key) := by
  have merged := field?_over lower distinct group
  cases above : upper.field? group with
  | none =>
      rw [at?_of_none above, at?, at?, merged, above]
      rfl
  | some value =>
      obtain ⟨inner, rfl⟩ := isSection value above
      rw [above] at merged
      rw [at?_of_field? above]
      have alone (same : field? (Entries.over lower upper) group = some (.record inner))
          (nothing : lower.at? group key = none) :
          at? (Entries.over lower upper) group key =
            (Entries.field? inner key <|> lower.at? group key) := by
        rw [at?_of_field? same, nothing]
        cases Entries.field? inner key <;> rfl
      cases below : lower.field? group with
      | none =>
          rw [below] at merged
          exact alone merged (at?_of_none below key)
      | some value =>
          rw [below] at merged
          by_cases isRecord : ∃ innerBelow, value = .record innerBelow
          · obtain ⟨innerBelow, rfl⟩ := isRecord
            dsimp only at merged
            rw [Value.over_record] at merged
            rw [at?_of_field? merged, field?_over _ (differ inner above)] at simple ⊢
            rw [at?_of_field? below]
            cases setting : Entries.field? inner key with
            | none => rfl
            | some value =>
                cases settingBelow : Entries.field? innerBelow key with
                | none => rfl
                | some valueBelow =>
                    rw [setting, settingBelow] at simple
                    exact congrArg some (Value.over_eq_of_isSimple (simple _ rfl))
          · have isSimple : value.IsSimple := fun inner same => isRecord ⟨inner, same⟩
            dsimp only at merged
            rw [isSimple.over_record] at merged
            exact alone merged (at?_of_isSimple isSimple below key)

/-- Where two records have a setting from further sources, those of the upper one come before those
of the lower one when it is laid over that. -/
theorem at?_over_of {sources below : Option Value} (distinct : upper.keys.Nodup)
    (isSection : HasSection (Entries.over lower upper) group) (differ : upper.DistinctAt group)
    (simple : ∀ value, at? (Entries.over lower upper) group key = some value →
      Value.IsSimple value)
    (saidAbove : (∀ value, upper.at? group key = some value → value.IsSimple) →
      upper.at? group key = sources)
    (saidBelow : (∀ value, lower.at? group key = some value → value.IsSimple) →
      lower.at? group key = below) :
    at? (Entries.over lower upper) group key = (sources <|> below) := by
  have merged := at?_over distinct (isSection.of_over distinct) differ simple
  rw [merged] at simple ⊢
  have said := saidAbove fun value found => simple value (by rw [found]; rfl)
  rw [said] at simple ⊢
  cases sources with
  | none => exact saidBelow simple
  | some value => rfl

end

end Entries

end ModelAssist
