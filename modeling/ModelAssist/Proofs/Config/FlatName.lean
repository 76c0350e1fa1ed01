import ModelAssist.Config.FlatName
import ModelAssist.Proofs.Config.Merge

/-!
# What flat names say of a setting

The sections that flat names stand for have of a setting what its flat name holds
(`FlatName.at?_of_sections`); a flat name that holds null or the empty text counts as absent.
-/

namespace ModelAssist

namespace FlatName

/-- The setting of a flat name. -/
def target (name : FlatName) : String × String :=
  (name.group, name.key)

/-- What a flat name says of its setting. -/
def value? [Host] (values : Entries) (name : FlatName) : Option Value :=
  match (values.field? name.name).getD .null with
  | .null => none
  | .text "" => none
  | given => (name.form.convert given).toOption

/-- The sections after one more flat name was looked up. -/
def take [Host] (values sections : Entries) (name : FlatName) : Except FlatError Entries :=
  match (values.field? name.name).getD .null with
  | .null => .ok sections
  | .text "" => .ok sections
  | given =>
    match name.form.convert given with
    | .ok value => .ok (name.place sections value)
    | .error fault => .error (fault.report name given)

/-- Holds if all sections are records of different keys. -/
structure Tidy (sections : Entries) : Prop where
  distinct : sections.keys.Nodup
  isSection : ∀ group, sections.HasSection group
  differ : ∀ group, sections.DistinctAt group

variable {values before after : Entries} {name : FlatName} {group key : String}

/-- A flat name that was taken is placed if it has a value. -/
theorem take_eq_ok [Host] (taken : take values before name = .ok after) :
    after = match name.value? values with
      | none => before
      | some value => name.place before value := by
  unfold take at taken
  unfold value?
  split at taken
  · cases taken
    rfl
  · cases taken
    rfl
  · split at taken
    · next converted =>
        cases taken
        simp only [converted]
        rfl
    · cases taken

/-- Placing a flat name gives its target the value and leaves all other settings as they are. -/
theorem at?_place (sections : Entries) (name : FlatName) (value : Value) (group key : String) :
    (name.place sections value).at? group key =
      if name.target = (group, key) then some value else sections.at? group key := by
  by_cases sameGroup : group = name.group
  · subst sameGroup
    rw [Entries.at?, place, Entries.field?_insert, if_pos rfl]
    dsimp only
    rw [Entries.field?_insert]
    by_cases sameKey : key = name.key
    · rw [if_pos sameKey, if_pos (by rw [target, sameKey])]
    · have other : name.target ≠ (name.group, key) := fun same => sameKey (Prod.mk.inj same).2.symm
      rw [if_neg sameKey, if_neg other]
      split
      · next given => rw [Entries.at?_of_field? given]
      · next noRecord =>
          rw [Entries.at?]
          split
          · next inner given => exact (noRecord inner given).elim
          · rfl
  · have other : name.target ≠ (group, key) := fun same => sameGroup (Prod.mk.inj same).1.symm
    rw [if_neg other, Entries.at?, Entries.at?, place, Entries.field?_insert, if_neg sameGroup]

/-- Placing a flat name keeps sections orderly. -/
theorem Tidy.place (tidy : Tidy before) (name : FlatName) (value : Value) :
    Tidy (name.place before value) where
  distinct := Entries.nodup_keys_insert tidy.distinct _ _
  isSection group held found := by
    rw [FlatName.place, Entries.field?_insert] at found
    split at found
    · exact ⟨_, (Option.some.inj found).symm⟩
    · exact tidy.isSection group held found
  differ group inner found := by
    rw [FlatName.place, Entries.field?_insert] at found
    split at found
    · cases found
      refine Entries.nodup_keys_insert ?_ _ _
      split
      · next given => exact tidy.differ _ _ given
      · exact List.nodup_nil
    · exact tidy.differ group inner found

variable [Host]

/-- Taking a flat name keeps sections orderly. -/
theorem tidy_of_take (tidy : Tidy before) (taken : take values before name = .ok after) :
    Tidy after := by
  rw [take_eq_ok taken]
  split
  · exact tidy
  · exact tidy.place name _

/-- Taking a flat name gives its target a value, if it has one, and nothing else. -/
theorem at?_of_take (taken : take values before name = .ok after) :
    after.at? group key =
      if name.target = (group, key) then (name.value? values <|> before.at? group key)
      else before.at? group key := by
  rw [take_eq_ok taken]
  split
  · next nothing =>
      rw [nothing]
      split <;> rfl
  · next value held =>
      rw [at?_place, held]
      rfl

/-- What a list of flat names says of a setting. -/
def said? (values : Entries) (names : List FlatName) (group key : String) : Option Value :=
  (names.find? fun name => name.target = (group, key)).bind (value? values)

/-- Taking flat names of different settings one after the other. -/
theorem of_foldlM_take {names : List FlatName} (distinct : (names.map target).Nodup)
    (taken : names.foldlM (take values) before = .ok after) (tidy : Tidy before) :
    Tidy after ∧ after.at? group key = (said? values names group key <|> before.at? group key) := by
  induction names generalizing before with
  | nil =>
      cases taken
      exact ⟨tidy, rfl⟩
  | cons name rest ih =>
      obtain ⟨absent, distinct⟩ := List.nodup_cons.mp distinct
      rw [List.foldlM_cons] at taken
      obtain ⟨between, first, taken⟩ := exists_of_bind_eq_ok taken
      obtain ⟨tidyAfter, said⟩ := ih distinct taken (tidy_of_take tidy first)
      refine ⟨tidyAfter, ?_⟩
      rw [said, at?_of_take first, said?, said?, List.find?_cons]
      by_cases own : name.target = (group, key)
      · have others : (rest.find? fun name => name.target = (group, key)) = none := by
          refine List.find?_eq_none.mpr fun other member same => absent ?_
          rw [own, ← of_decide_eq_true same]
          exact List.mem_map_of_mem member
        rw [others, if_pos own]
        simp [own]
      · rw [if_neg own]
        simp [own]

/-- **The sections of flat names have of a setting what its flat name says of it.** -/
theorem of_sections {names : List FlatName} (distinct : (names.map target).Nodup)
    (taken : sections values names = .ok after) :
    Tidy after ∧ after.at? group key = said? values names group key := by
  have empty : Tidy [] := ⟨List.nodup_nil, fun _ _ => nofun, fun _ _ => nofun⟩
  obtain ⟨tidy, said⟩ : Tidy after ∧
      after.at? group key = (said? values names group key <|> Entries.at? [] group key) :=
    of_foldlM_take distinct taken empty
  refine ⟨tidy, said.trans ?_⟩
  cases said? values names group key <;> rfl

end FlatName

end ModelAssist
