import ModelAssist.Config.Variable
import ModelAssist.Proofs.Config.Merge
import ModelAssist.Proofs.Text.Lowercase

/-!
# What the environment says of a setting

A setting can have a variable of its own and a place in the JSON of its section's variable.  The
sections of the environment have of a setting what its own variable holds, or else what stands in
the JSON (`Variable.at?_of_sections`).
-/

namespace ModelAssist

namespace Variable

/-- The text of the last variable with a name, whatever the case of its letters. -/
def text? (environment : List (String × String)) (name : String) : Option String :=
  (environment.reverse.find? fun entry => lower entry.1 = name).map (·.2)

/-- What the variable of a setting holds. -/
def own? [Host] (environment : List (String × String)) (group key : String) : Option Value :=
  (text? environment (nameStart ++ group ++ "__" ++ key)).bind fun text =>
    (valueOf (formOf group [key]) text).toOption

/-- The JSON in the variable of a section. -/
def ofSection? [Host] (environment : List (String × String)) (group : String) : Option Value :=
  (text? environment (nameStart ++ group)).bind fun text => (ofJson text).toOption

/-- Holds of the keys that are a name up to the case of their letters. -/
def isNamed (name : String) : Key → Bool
  | .text other => lower other = name
  | .scalar _ => false

/-- The value under a name in a JSON object, whatever the case of its letters. -/
def member? (entries : Entries) (name : String) : Option Value :=
  (entries.find? fun entry => isNamed name entry.1).map (·.2)

/-- What the environment says of a setting: what its own variable holds, or else what the variable
of its section has of it.  If that is set and no object, it says nothing. -/
def setting? [Host] (environment : List (String × String)) (group key : String) : Option Value :=
  match ofSection? environment group with
  | none => own? environment group key
  | some (.record entries) => own? environment group key <|> member? entries key
  | some _ => none

/-- Holds unless the variable of a section is an object of which two names differ only in the case
of their letters. -/
def Orderly [Host] (environment : List (String × String)) (group : String) : Prop :=
  ∀ entries, ofSection? environment group = some (.record entries) →
    (entries.map fun entry => lower entry.1.display).Nodup

instance [Host] (environment : List (String × String)) (group : String) :
    Decidable (Orderly environment group) :=
  decidable_of_iff ((ofSection? environment group).all fun value =>
      match value with
      | .record entries => decide (entries.map fun entry => lower entry.1.display).Nodup
      | _ => true) <| by
    unfold Orderly
    cases ofSection? environment group with
    | none => simp
    | some value => cases value <;> simp

/-! ## Names and their pieces -/

/-- A name is looked up in the front list first. -/
theorem lookup_append {Name Held : Type} [DecidableEq Name] (name : Name)
    (front back : List (Name × Held)) :
    OrderedMap.lookup name (front ++ back) =
      (OrderedMap.lookup name front <|> OrderedMap.lookup name back) := by
  induction front with
  | nil => rfl
  | cons entry rest ih =>
      rw [List.cons_append, OrderedMap.lookup, OrderedMap.lookup]
      split
      · rfl
      · exact ih

/-- Of the variables with one small name the last one counts. -/
theorem lookup_normalized (environment : List (String × String)) (name : String) :
    OrderedMap.lookup name (normalized environment) = text? environment name := by
  induction environment using List.reverseRecOn with
  | nil => simp [text?, normalized, OrderedMap.lookup]
  | append_singleton environment last ih =>
      have step : normalized (environment ++ [last]) =
          OrderedMap.put (lower last.1) last.2 (normalized environment) := by
        rw [normalized, List.foldl_append]
        rfl
      have inserted := OrderedMap.get?_insert ⟨normalized environment⟩ (lower last.1) name last.2
      rw [step, text?, List.reverse_append, List.reverse_singleton, List.singleton_append,
        List.find?_cons]
      rw [OrderedMap.get?, OrderedMap.insert] at inserted
      rw [inserted]
      by_cases same : lower last.1 = name
      · simp [same]
      · rw [if_neg (Ne.symm same)]
        simp only [same, decide_false]
        exact ih

/-- Of names that differ in case only one is kept. -/
theorem nodup_normalized (environment : List (String × String)) :
    ((normalized environment).map (·.1)).Nodup := by
  induction environment using List.reverseRecOn with
  | nil => exact List.nodup_nil
  | append_singleton environment last ih =>
      have distinct : (OrderedMap.mk (normalized environment)).keys.Nodup := ih
      rw [normalized, List.foldl_append]
      exact OrderedMap.nodup_keys_insert distinct _ _

/-- The kept names are in lower case. -/
theorem exists_lower_of_mem_normalized {environment : List (String × String)} {name : String}
    (member : name ∈ (normalized environment).map (·.1)) : ∃ source, name = lower source := by
  induction environment using List.reverseRecOn with
  | nil => cases member
  | append_singleton environment last ih =>
      rw [normalized, List.foldl_append] at member
      have names := OrderedMap.map_fst_put (lower last.1) last.2 (normalized environment)
      rw [List.foldl_cons, List.foldl_nil] at member
      change name ∈ (OrderedMap.put (lower last.1) last.2 (normalized environment)).map (·.1)
        at member
      rw [names] at member
      split at member
      · exact ih member
      · rcases List.mem_append.mp member with member | member
        · exact ih member
        · exact ⟨last.1, List.mem_singleton.mp member⟩

/-- The pieces of a name consist of its characters. -/
theorem mem_of_mem_pieces_go {current text : List Char} {piece : String}
    (member : piece ∈ pieces.go current text) {char : Char} (within : char ∈ piece.toList) :
    char ∈ current ∨ char ∈ text := by
  fun_induction pieces.go current text with
  | case1 current =>
      obtain rfl := List.mem_singleton.mp member
      exact .inl (by simpa using within)
  | case2 current rest ih =>
      rcases List.mem_cons.mp member with rfl | member
      · exact .inl (by simpa using within)
      · have inRest := (ih member).resolve_left List.not_mem_nil
        exact .inr (List.mem_cons_of_mem _ (List.mem_cons_of_mem _ inRest))
  | case3 current first rest apart ih =>
      rcases ih member with inCurrent | inRest
      · rcases List.mem_cons.mp inCurrent with rfl | inCurrent
        · exact .inr List.mem_cons_self
        · exact .inl inCurrent
      · exact .inr (List.mem_cons_of_mem _ inRest)

/-- A name has at least one piece. -/
theorem pieces_go_ne_nil (current text : List Char) : pieces.go current text ≠ [] := by
  fun_induction pieces.go current text with
  | case1 => nofun
  | case2 => nofun
  | case3 current first rest apart ih => exact ih

/-- A text that is in one piece is that piece. -/
theorem toList_of_pieces_go {current text : List Char} {piece : String}
    (single : pieces.go current text = [piece]) : piece.toList = current.reverse ++ text := by
  fun_induction pieces.go current text with
  | case1 current =>
      obtain rfl := List.singleton_inj.mp single
      simp
  | case2 current rest ih => exact absurd (List.cons.inj single).2 (pieces_go_ne_nil _ _)
  | case3 current first rest apart ih =>
      rw [ih single, List.reverse_cons, List.append_assoc, List.singleton_append]

/-! ## The variables of single settings -/

/-- A nested value is placed in the record of its first name, which is made if it is missing; what
is there but is no record stays. -/
theorem placeAt_nested (entries : Entries) (value : Value) (first second : String)
    (rest : List String) :
    placeAt entries value (first :: second :: rest) =
      match entries.field? first with
      | none => entries.insert (.text first) (.record (placeAt [] value (second :: rest)))
      | some (.record inner) =>
        entries.insert (.text first) (.record (placeAt inner value (second :: rest)))
      | some _ => entries :=
  placeAt.eq_3 _ _ _ _ (List.cons_ne_nil _ _)

/-- Placing a value leaves all keys alone but the first one on the way. -/
theorem field?_placeAt_of_ne {entries : Entries} {value : Value} {keys : List String} {key : String}
    (apart : keys.head? ≠ some key) :
    Entries.field? (placeAt entries value keys) key = entries.field? key := by
  match keys with
  | [] => rfl
  | [first] =>
      have different : key ≠ first := fun same => apart (congrArg some same.symm)
      rw [placeAt, Entries.field?_insert, if_neg different]
  | first :: second :: rest =>
      have different : key ≠ first := fun same => apart (congrArg some same.symm)
      rw [placeAt_nested]
      split
      · rw [Entries.field?_insert, if_neg different]
      · rw [Entries.field?_insert, if_neg different]
      · rfl

/-- A value that is placed below a key makes a record there, or another value stays. -/
theorem field?_placeAt_nested (entries : Entries) (value : Value) (key second : String)
    (rest : List String) :
    (∃ inner, Entries.field? (placeAt entries value (key :: second :: rest)) key =
        some (.record inner)) ∨
      Entries.field? (placeAt entries value (key :: second :: rest)) key = entries.field? key := by
  rw [placeAt_nested]
  split
  · rw [Entries.field?_insert, if_pos rfl]
    exact .inl ⟨_, rfl⟩
  · rw [Entries.field?_insert, if_pos rfl]
    exact .inl ⟨_, rfl⟩
  · exact .inr rfl

/-- Placing a value keeps the names distinct. -/
theorem nodup_keys_placeAt {entries : Entries} (distinct : entries.keys.Nodup) (value : Value)
    (keys : List String) : (Entries.keys (placeAt entries value keys)).Nodup := by
  match keys with
  | [] => exact distinct
  | [first] => exact Entries.nodup_keys_insert distinct _ _
  | first :: second :: rest =>
      rw [placeAt_nested]
      split
      · exact Entries.nodup_keys_insert distinct _ _
      · exact Entries.nodup_keys_insert distinct _ _
      · exact distinct

/-- Placing a value adds only the first of its names. -/
theorem mem_keys_placeAt {entries : Entries} {value : Value} {keys : List String} {key : Key}
    (member : key ∈ Entries.keys (placeAt entries value keys)) :
    key ∈ entries.keys ∨ ∃ first ∈ keys, key = .text first := by
  match keys with
  | [] => exact .inl member
  | [first] =>
      rcases Entries.mem_keys_insert.mp member with same | member
      · exact .inr ⟨first, List.mem_cons_self, same⟩
      · exact .inl member
  | first :: second :: rest =>
      rw [placeAt_nested] at member
      have inserted : ∀ {value}, key ∈ (entries.insert (.text first) value).keys →
          key ∈ entries.keys ∨ ∃ first' ∈ first :: second :: rest, key = .text first' := by
        intro value member
        rcases Entries.mem_keys_insert.mp member with same | member
        · exact .inr ⟨first, List.mem_cons_self, same⟩
        · exact .inl member
      split at member
      · exact inserted member
      · exact inserted member
      · exact .inl member

/-- What the variables of single settings amount to: under a key stands a record, or what the
variable of the key holds. -/
structure Gathers [Host] (environment : List (String × String)) (group : String)
    (entries : Entries) : Prop where
  distinct : entries.keys.Nodup
  named : ∀ key ∈ entries.keys, ∃ piece name, key = .text piece ∧
    name ∈ environment.map (·.1) ∧ ∀ char ∈ piece.toList, char ∈ name.toList
  shown : ∀ key, pieces key = [key] →
    (∃ inner, entries.field? key = some (.record inner)) ∨
      entries.field? key =
        (OrderedMap.lookup (nameStart ++ group ++ "__" ++ key) environment).bind fun text =>
          (valueOf (formOf group [key]) text).toOption

namespace Gathers

variable {environment : List (String × String)} {group : String} {entries : Entries}
  {name text : String}

theorem nil [Host] : Gathers [] group [] where
  distinct := List.nodup_nil
  named := List.forall_mem_nil _
  shown _ _ := .inr rfl

/-- The names that were gathered are pieces of the names of variables. -/
theorem named_append [Host] (gathers : Gathers environment group entries) :
    ∀ key ∈ entries.keys, ∃ piece name', key = .text piece ∧
      name' ∈ (environment ++ [(name, text)]).map (·.1) ∧
        ∀ char ∈ piece.toList, char ∈ name'.toList := by
  intro key member
  obtain ⟨piece, name', same, nameMember, within⟩ := gathers.named key member
  rw [List.map_append]
  exact ⟨piece, name', same, List.mem_append_left _ nameMember, within⟩

/-- One more variable says nothing of other names. -/
theorem lookup_append_of_ne {other : String} (different : name ≠ other) :
    OrderedMap.lookup other (environment ++ [(name, text)]) =
      OrderedMap.lookup other environment := by
  rw [lookup_append, OrderedMap.lookup, if_neg different]
  cases OrderedMap.lookup other environment <;> rfl

/-- A variable of something else changes nothing. -/
theorem skip [Host] (gathers : Gathers environment group entries)
    (other : ¬ (nameStart ++ group ++ "__").toList <+: name.toList) :
    Gathers (environment ++ [(name, text)]) group entries where
  distinct := gathers.distinct
  named := gathers.named_append
  shown key whole := by
    rw [lookup_append_of_ne]
    · exact gathers.shown key whole
    · rintro rfl
      rw [String.toList_append (t := key)] at other
      exact other (List.prefix_append _ _)

/-- A variable of a setting puts its value on the way that its name tells. -/
theorem place [Host] (gathers : Gathers environment group entries) {rest : String} {value : Value}
    (named : name = nameStart ++ group ++ "__" ++ rest)
    (new : name ∉ environment.map (·.1))
    (held : valueOf (formOf group (pieces rest)) text = .ok value) :
    Gathers (environment ++ [(name, text)]) group (placeAt entries value (pieces rest)) where
  distinct := nodup_keys_placeAt gathers.distinct _ _
  named := by
    intro key member
    rcases mem_keys_placeAt member with member | ⟨piece, pieceMember, same⟩
    · exact gathers.named_append key member
    · refine ⟨piece, name, same, by simp, ?_⟩
      intro char within
      have inRest := (mem_of_mem_pieces_go pieceMember within).resolve_left List.not_mem_nil
      rw [named, String.toList_append]
      exact List.mem_append_right _ inRest
  shown key whole := by
    by_cases own : rest = key
    · subst own
      have unseen : OrderedMap.lookup name environment = none := by
        have absent := (OrderedMap.mem_keys_iff ⟨environment⟩ name).not.mp new
        exact Option.not_isSome_iff_eq_none.mp absent
      rw [whole] at held ⊢
      rw [placeAt, Entries.field?_insert, if_pos rfl, ← named, lookup_append, unseen,
        OrderedMap.lookup, if_pos rfl]
      exact .inr (congrArg Except.toOption held).symm
    · have different : name ≠ nameStart ++ group ++ "__" ++ key := by
        rw [named]
        intro same
        exact own (String.append_right_inj _ |>.mp same)
      rw [lookup_append_of_ne different]
      -- Another name can lead through the key, but then it goes on below it.
      by_cases first : (pieces rest).head? = some key
      · obtain ⟨others, split⟩ := List.head?_eq_some_iff.mp first
        rw [split]
        cases others with
        | nil =>
            have same := toList_of_pieces_go split
            exact absurd (String.toList_inj.mp same).symm own
        | cons second others =>
            rcases field?_placeAt_nested entries value key second others with nested | kept
            · exact .inl nested
            · rw [kept]
              exact gathers.shown key whole
      · rw [field?_placeAt_of_ne first]
        exact gathers.shown key whole

end Gathers

/-- The single variables of a section gather what they say. -/
theorem gathers_singles [Host] {environment : List (String × String)} {group : String}
    {entries : Entries} (distinct : (environment.map (·.1)).Nodup)
    (gathered : singles environment group = .ok entries) : Gathers environment group entries := by
  -- The variables are placed from the first to the last one, so the last one comes off first.
  induction environment using List.reverseRecOn generalizing entries with
  | nil =>
      cases gathered
      exact .nil
  | append_singleton environment last ih =>
      obtain ⟨name, text⟩ := last
      rw [List.map_append, List.nodup_append] at distinct
      obtain ⟨distinct, -, apart⟩ := distinct
      have new : name ∉ environment.map (·.1) := fun member =>
        apart name member name (List.mem_singleton.mpr rfl) rfl
      rw [singles, List.foldlM_append] at gathered
      obtain ⟨before, gatheredBefore, last⟩ := exists_of_bind_eq_ok gathered
      have gathers := ih distinct gatheredBefore
      simp only [List.foldlM_cons, List.foldlM_nil, bind_pure] at last
      split at last
      · next isPrefix =>
          obtain ⟨rest, joined⟩ := List.isPrefixOf_iff_prefix.mp isPrefix
          rw [← joined, ← String.length_toList, List.drop_left] at last
          cases held : valueOf (formOf group (pieces (String.ofList rest))) text with
          | error fault =>
              rw [held] at last
              cases last
          | ok value =>
              rw [held] at last
              cases last
              refine gathers.place ?_ new held
              rw [← String.toList_inj, String.toList_append, String.toList_ofList, joined]
      · next notPrefix =>
          cases last
          exact gathers.skip fun isPrefix => notPrefix (List.isPrefixOf_iff_prefix.mpr isPrefix)

/-! ## The proper names of keys -/

/-- The entries whose keys are a name up to the case of their letters. -/
def named (name : String) (entries : Entries) : Entries :=
  entries.filter fun entry => isNamed name entry.1

/-- What is inserted under another name is none of the entries of a name. -/
theorem named_insert_of_not {name : String} {key : Key} (other : isNamed name key = false)
    (entries : Entries) (value : Value) :
    named name (entries.insert key value) = named name entries := by
  induction entries with
  | nil => simp [named, Entries.insert, other]
  | cons entry rest ih =>
      obtain ⟨first, old⟩ := entry
      rw [Entries.insert]
      split
      · next same =>
          subst same
          simp [named, other]
      · rw [named, named, List.filter_cons, List.filter_cons]
        rw [named, named] at ih
        rw [ih]

/-- What is inserted under a name in any case is one of its entries. -/
theorem named_insert {name : String} {key : Key} (own : isNamed name key) (entries : Entries)
    (value : Value) :
    named name (entries.insert key value) = (named name entries).insert key value := by
  induction entries with
  | nil => simp [named, Entries.insert, own]
  | cons entry rest ih =>
      obtain ⟨first, old⟩ := entry
      rw [Entries.insert]
      split
      · next same =>
          subst same
          simp [named, own, Entries.insert]
      · next different =>
          rw [named, named] at ih
          rw [named, named, List.filter_cons, List.filter_cons, ih]
          split
          · rw [Entries.insert, if_neg different]
          · rfl

/-- What is inserted into at most one entry is the last one. -/
theorem getLast?_insert {entries : Entries} (few : entries.length ≤ 1) (key : Key) (value : Value) :
    (entries.insert key value).getLast? = some (key, value) := by
  match entries, few with
  | [], _ => rfl
  | [(first, old)], _ =>
      rw [Entries.insert]
      split <;> rfl

/-- Laying entries of other names over a record keeps the entries of a name. -/
theorem named_over_of_not {name : String} (lower : Entries) {upper : Entries}
    (others : ∀ entry ∈ upper, isNamed name entry.1 = false) :
    named name (Entries.over lower upper) = named name lower := by
  induction upper generalizing lower with
  | nil => rw [Entries.over]
  | cons entry rest ih =>
      obtain ⟨key, value⟩ := entry
      obtain ⟨other, others⟩ := List.forall_mem_cons.mp others
      rw [Entries.over, ih _ others]
      exact named_insert_of_not other _ _

/-- An entry of a name that is laid over a record with at most one such entry comes last of them. -/
theorem getLast?_named_over {name : String} {lower upper : Entries} {value : Value}
    (small : Variable.lower name = name) (few : (named name lower).length ≤ 1)
    (distinct : upper.keys.Nodup)
    (only : ∀ entry ∈ upper, isNamed name entry.1 → entry.1 = .text name)
    (held : upper.field? name = some value) :
    (named name (Entries.over lower upper)).getLast? =
      some (.text name, match lower.field? name with
        | some below => below.over value
        | none => value) := by
  have own : isNamed name (.text name) := by simpa [isNamed] using small
  induction upper generalizing lower with
  | nil => cases held
  | cons entry rest ih =>
      obtain ⟨key, first⟩ := entry
      obtain ⟨absent, distinct⟩ := List.nodup_cons.mp distinct
      obtain ⟨onlyFirst, onlyRest⟩ := List.forall_mem_cons.mp only
      rw [Entries.field?, Entries.get?_cons] at held
      rw [Entries.over]
      -- The named entry is the first one and no other one has the name, or it is among the rest.
      split at held
      · next same =>
          dsimp only at same held
          subst same
          obtain rfl := Option.some.inj held
          have others : ∀ entry ∈ rest, isNamed name entry.1 = false := by
            intro entry member
            refine Bool.eq_false_iff.mpr fun isName => absent ?_
            exact List.mem_map.mpr ⟨entry, member, onlyRest entry member isName⟩
          rw [named_over_of_not _ others, named_insert own, getLast?_insert few]
          rfl
      · next different =>
          have other : isNamed name key = false :=
            Bool.eq_false_iff.mpr fun isName => different (onlyFirst isName)
          rw [ih (by rwa [named_insert_of_not other]) distinct onlyRest held]
          have kept : ∀ merged, Entries.field? (Entries.insert lower key merged) name =
              lower.field? name := by
            intro merged
            rw [Entries.field?, Entries.get?_insert, if_neg (Ne.symm different)]
            rfl
          rw [kept]

/-- At most one entry has a name if the entries differ in what their names are told apart by. -/
theorem length_named_le_one {name : String} {entries : Entries} {Mark : Type}
    (mark : Key × Value → Mark) (distinct : (entries.map mark).Nodup) {known : Mark}
    (same : ∀ entry ∈ entries, isNamed name entry.1 → mark entry = known) :
    (named name entries).length ≤ 1 := by
  have marks : (named name entries).map mark =
      List.replicate (named name entries).length known := by
    refine List.eq_replicate_of_mem ?_ |>.trans (by rw [List.length_map])
    intro found member
    obtain ⟨entry, entryMember, rfl⟩ := List.mem_map.mp member
    obtain ⟨entryMember, isName⟩ := List.mem_filter.mp entryMember
    exact same entry entryMember isName
  have distinctNamed : ((named name entries).map mark).Nodup :=
    distinct.sublist (List.filter_sublist.map mark)
  rw [marks] at distinctNamed
  exact List.nodup_replicate.mp distinctNamed

/-- What is left of the entries of a name after all keys got their proper names. -/
theorem field?_withProperKeys {group key : String} (proper : ∀ other,
      keyOf (keysOf group) other = .text key ↔ isNamed key other) (entries : Entries) :
    Entries.field? (Entries.ofPairs
        (entries.map fun (other, value) => (keyOf (keysOf group) other, value))) key =
      (named key entries).getLast?.map (·.2) := by
  have agree : (fun entry : Key × Value => decide (entry.1 = .text key)) ∘
      (fun (other, value) => (keyOf (keysOf group) other, value)) =
        fun entry => isNamed key entry.1 := by
    funext entry
    simp [proper]
  rw [Entries.field?, Entries.get?_ofPairs, Entries.get?, ← List.map_reverse, List.find?_map, agree,
    Option.map_map, named, List.getLast?_eq_head?_reverse, ← List.filter_reverse, List.head?_filter]
  rfl

/-- The keys of a section are distinct, in lower case and of one plain piece. -/
theorem known_keys : ∀ group ∈ Settings.sectionNames, (keysOf group).Nodup ∧
    ∀ key ∈ keysOf group, lower key = key ∧ pieces key = [key] ∧ key.toList.all Text.isPlain := by
  decide +kernel

/-- The keys that get a proper name are those that are the name up to the case of their letters. -/
theorem keyOf_eq_text_iff {group key : String} (knownGroup : group ∈ Settings.sectionNames)
    (known : key ∈ keysOf group) (other : Key) :
    keyOf (keysOf group) other = .text key ↔ isNamed key other := by
  have small := (known_keys group knownGroup).2
  cases other with
  | scalar spelling => exact ⟨nofun, nofun⟩
  | text name =>
      rw [keyOf, Key.text.injEq, isNamed, decide_eq_true_iff]
      cases found : (keysOf group).find? fun key => lower key = lower name with
      | none =>
          have apart := List.find?_eq_none.mp found key known
          rw [(small key known).1] at apart
          have different : lower name ≠ key := by
            rintro rfl
            simp at apart
          refine iff_of_false ?_ different
          rintro rfl
          exact different (small _ known).1
      | some first =>
          have firstKnown := List.mem_of_find?_eq_some found
          have sameLower := List.find?_some found
          simp only [decide_eq_true_eq] at sameLower
          rw [(small first firstKnown).1] at sameLower
          rw [Option.getD_some, sameLower]

/-! ## The sections of the environment -/

section

variable {environment : List (String × String)} {group key : String}

/-- The key of a single setting's variable is in small letters, so that no other form of a name can
stand beside the name itself. -/
theorem Gathers.eq_of_isNamed [Host] {entries : Entries}
    (gathers : Gathers (normalized environment) group entries)
    (plain : key.toList.all Text.isPlain) :
    ∀ entry ∈ entries, isNamed key entry.1 → entry.1 = .text key := by
  intro entry member isName
  obtain ⟨piece, name, same, nameMember, within⟩ :=
    gathers.named entry.1 (List.mem_map_of_mem (f := Prod.fst) member)
  obtain ⟨source, rfl⟩ := exists_lower_of_mem_normalized nameMember
  rw [same, isNamed, decide_eq_true_iff] at isName
  have inLower : ∀ char ∈ piece.toList, char ∈ Text.lower source.toList := by
    intro char member
    have inName := within char member
    rwa [lower, String.toList_ofList] at inName
  have letters : Text.lower piece.toList = key.toList := by
    rw [← isName, lower, String.toList_ofList]
  rw [same, String.toList_inj.mp (Text.eq_of_lower_eq inLower plain letters)]

/-- Gathered entries show of a key of one piece what its own variable says, unless it is a record.
-/
theorem Gathers.shows [Host] {entries : Entries}
    (gathers : Gathers (normalized environment) group entries) (whole : pieces key = [key]) :
    (∃ inner, entries.field? key = some (.record inner)) ∨
      entries.field? key = own? environment group key := by
  have shown := gathers.shown key whole
  rwa [lookup_normalized] at shown

/-- Where a name has at most one entry, this is the member of that name. -/
theorem getLast?_named {entries : Entries} (few : (named key entries).length ≤ 1) :
    (named key entries).getLast?.map (·.2) = member? entries key := by
  rw [member?, ← List.head?_filter]
  change (named key entries).getLast?.map (·.2) = (named key entries).head?.map (·.2)
  match named key entries, few with
  | [], _ => rfl
  | [_], _ => rfl

/-- Where a name in lower case is the only one of its kind, its member is its field. -/
theorem member?_eq_field? {entries : Entries} (small : lower key = key)
    (only : ∀ entry ∈ entries, isNamed key entry.1 → entry.1 = .text key) :
    member? entries key = entries.field? key := by
  rw [member?, Entries.field?, Entries.get?, ← List.head?_filter, ← List.head?_filter]
  congr 2
  refine List.filter_congr fun entry member => ?_
  rw [Bool.eq_iff_iff, decide_eq_true_iff]
  refine ⟨only entry member, ?_⟩
  intro same
  rw [same]
  simpa [isNamed] using small

/-- A name shown in lower case is the one that it is a name for. -/
theorem lower_display_of_isNamed {other : Key} (isName : isNamed key other) :
    lower other.display = key := by
  cases other with
  | text name => exact of_decide_eq_true isName
  | scalar spelling => cases isName

/-- Single settings that are laid over an object hide what it has under their names. -/
theorem getLast?_named_of_object {object singles : Entries} (small : lower key = key)
    (few : (named key object).length ≤ 1) (distinct : singles.keys.Nodup)
    (only : ∀ entry ∈ singles, isNamed key entry.1 → entry.1 = .text key)
    (simple : ∀ held,
      (named key (Entries.over object singles)).getLast?.map (·.2) = some held → held.IsSimple) :
    (named key (Entries.over object singles)).getLast?.map (·.2) =
      (singles.field? key <|> member? object key) := by
  cases single : singles.field? key with
  | none =>
      have absent := Entries.get?_eq_none_iff.mp single
      have others : ∀ entry ∈ singles, isNamed key entry.1 = false := by
        intro entry member
        refine Bool.eq_false_iff.mpr fun isName => absent ?_
        exact List.mem_map.mpr ⟨entry, member, only entry member isName⟩
      rw [named_over_of_not object others, getLast?_named few]
      rfl
  | some value =>
      have last := getLast?_named_over small few distinct only single
      rw [last] at simple ⊢
      cases below : object.field? key with
      | none => rfl
      | some old =>
          rw [below] at simple
          exact congrArg some (Value.over_eq_of_isSimple (simple _ rfl))

/-- Without a variable of the section only single settings count. -/
theorem setting_of_singles [Host] {singles : Entries}
    (gathers : Gathers (normalized environment) group singles)
    (knownGroup : group ∈ Settings.sectionNames) (known : key ∈ keysOf group)
    (unset : ofSection? environment group = none)
    (simple : ∀ held, (named key singles).getLast?.map (·.2) = some held → held.IsSimple) :
    (named key singles).getLast?.map (·.2) = setting? environment group key := by
  obtain ⟨small, whole, plain⟩ := (known_keys group knownGroup).2 key known
  have said : setting? environment group key = own? environment group key := by
    rw [setting?, unset]
  have only := gathers.eq_of_isNamed plain
  have few := length_named_le_one (·.1) gathers.distinct only
  have last : (named key singles).getLast?.map (·.2) = singles.field? key := by
    rw [getLast?_named few, member?_eq_field? small only]
  rw [said, last]
  rw [last] at simple
  -- A record there would come from variables with longer names, and is no value of a setting.
  rcases gathers.shows whole with ⟨inner, isRecord⟩ | same
  · exact absurd rfl (simple _ isRecord inner)
  · exact same

/-- Over an object in the variable of the section lie single settings. -/
theorem setting_of_object [Host] {object singles : Entries}
    (gathers : Gathers (normalized environment) group singles)
    (knownGroup : group ∈ Settings.sectionNames) (known : key ∈ keysOf group)
    (set : ofSection? environment group = some (.record object))
    (distinct : (object.map fun entry => lower entry.1.display).Nodup)
    (simple : ∀ held,
      (named key (Entries.over object singles)).getLast?.map (·.2) = some held → held.IsSimple) :
    (named key (Entries.over object singles)).getLast?.map (·.2) =
      setting? environment group key := by
  obtain ⟨small, whole, plain⟩ := (known_keys group knownGroup).2 key known
  have said : setting? environment group key =
      (own? environment group key <|> member? object key) := by
    rw [setting?, set]
  have only := gathers.eq_of_isNamed plain
  have few : (named key object).length ≤ 1 :=
    length_named_le_one _ distinct fun _ _ => lower_display_of_isNamed
  have last := getLast?_named_of_object small few gathers.distinct only simple
  rw [said, last]
  rcases gathers.shows whole with ⟨inner, isRecord⟩ | same
  · rw [isRecord] at last
    exact absurd rfl (simple _ last inner)
  · rw [same]

/-- The last entry of a name in a section of the environment holds what the environment says of the
setting. -/
theorem setting_of_sectionOf [Host] {value : Value} (knownGroup : group ∈ Settings.sectionNames)
    (known : key ∈ keysOf group) (orderly : Orderly environment group)
    (found : sectionOf (normalized environment) group = .ok value) :
    value.IsSimple ∧ setting? environment group key = none ∨
      ∃ entries, value = .record entries ∧
        ((∀ held, (named key entries).getLast?.map (·.2) = some held → held.IsSimple) →
          (named key entries).getLast?.map (·.2) = setting? environment group key) := by
  unfold sectionOf at found
  rw [lookup_normalized] at found
  cases text : text? environment (nameStart ++ group) with
  | none =>
      have unset : ofSection? environment group = none := by
        rw [ofSection?, text]
        rfl
      rw [text] at found
      cases gathered : singles (normalized environment) group with
      | error fault =>
          rw [gathered] at found
          cases found
      | ok entries =>
          rw [gathered] at found
          have gathers := gathers_singles (nodup_normalized environment) gathered
          have said := setting_of_singles gathers knownGroup known unset
          obtain rfl := Except.ok.inj found
          dsimp only
          split
          · next empty =>
              obtain rfl := List.isEmpty_iff.mp empty
              exact .inl ⟨nofun, (said fun _ => nofun).symm⟩
          · exact .inr ⟨entries, rfl, said⟩
  | some content =>
      have json : ofSection? environment group = (ofJson content).toOption := by
        rw [ofSection?, text]
        rfl
      rw [text] at found
      dsimp only at found
      split at found
      · next object parsed =>
          rw [parsed] at json
          cases gathered : singles (normalized environment) group with
          | error fault =>
              rw [gathered] at found
              cases found
          | ok entries =>
              rw [gathered] at found
              have gathers := gathers_singles (nodup_normalized environment) gathered
              have distinct := orderly object json
              obtain rfl := Except.ok.inj found
              exact .inr ⟨_, rfl, setting_of_object gathers knownGroup known json distinct⟩
      · next other =>
          rw [found] at json
          have simple : value.IsSimple := by
            rintro entries rfl
            exact other entries found
          refine .inl ⟨simple, ?_⟩
          rw [setting?, json]
          cases value with
          | record entries => exact absurd rfl (simple entries)
          | _ => rfl

/-- A section of the environment in the sections of all sources. -/
def shownAs? (group : String) : Value → Option Value
  | .null => none
  | value => some (withProperKeys group value)

variable [Host]

/-- The sections after one more section of the environment was taken. -/
def take (environment : List (String × String)) (found : Entries) (group : String) :
    Except (String × VariableFault) Entries :=
  match sectionOf (normalized environment) group with
  | .error fault => .error (group, fault)
  | .ok .null => .ok found
  | .ok value => .ok (found.insert (.text group) (withProperKeys group value))

/-- Taking the variables of a section changes this section alone. -/
theorem take_eq_ok {before after : Entries}
    (taken : take environment before group = .ok after) (distinct : before.keys.Nodup)
    (new : before.field? group = none) :
    after.keys.Nodup ∧
      (∃ value, sectionOf (normalized environment) group = .ok value ∧
        after.field? group = shownAs? group value) ∧
      ∀ other, other ≠ group → after.field? other = before.field? other := by
  unfold take at taken
  split at taken
  · cases taken
  · next isNull =>
      cases taken
      exact ⟨distinct, ⟨.null, isNull, new⟩, fun _ _ => rfl⟩
  · next value notNull held =>
      cases taken
      refine ⟨Entries.nodup_keys_insert distinct _ _, ⟨value, held, ?_⟩, ?_⟩
      · rw [Entries.field?_insert, if_pos rfl]
        cases value with
        | null => exact (notNull rfl).elim
        | _ => rfl
      · intro other different
        rw [Entries.field?_insert, if_neg different]

/-- Taking the variables of some sections gives each of them what its own variables show. -/
theorem fields_of_take {names : List String} {before after : Entries}
    (taken : names.foldlM (take environment) before = .ok after)
    (distinctNames : names.Nodup) (distinct : before.keys.Nodup)
    (new : ∀ group ∈ names, before.field? group = none) :
    after.keys.Nodup ∧
      (∀ group ∈ names, ∃ value, sectionOf (normalized environment) group = .ok value ∧
        after.field? group = shownAs? group value) ∧
      ∀ other, other ∉ names → after.field? other = before.field? other := by
  induction names generalizing before with
  | nil =>
      cases taken
      exact ⟨distinct, List.forall_mem_nil _, fun _ _ => rfl⟩
  | cons group rest ih =>
      obtain ⟨absent, distinctNames⟩ := List.nodup_cons.mp distinctNames
      obtain ⟨newGroup, newRest⟩ := List.forall_mem_cons.mp new
      rw [List.foldlM_cons] at taken
      obtain ⟨between, first, taken⟩ := exists_of_bind_eq_ok taken
      obtain ⟨distinctBetween, shown, kept⟩ := take_eq_ok first distinct newGroup
      have newBetween : ∀ other ∈ rest, between.field? other = none := by
        intro other member
        rw [kept other fun same => absent (same ▸ member)]
        exact newRest other member
      obtain ⟨distinctAfter, shownRest, keptRest⟩ :=
        ih taken distinctNames distinctBetween newBetween
      refine ⟨distinctAfter, List.forall_mem_cons.mpr ⟨?_, shownRest⟩, ?_⟩
      · obtain ⟨value, held, same⟩ := shown
        exact ⟨value, held, (keptRest group absent).trans same⟩
      · intro other apart
        rw [List.mem_cons, not_or] at apart
        exact (keptRest other apart.2).trans (kept other apart.1)

/-- The variables give every section what its own ones show. -/
theorem fields_of_sections {found : Entries} (taken : sections environment = .ok found) :
    found.keys.Nodup ∧ ∀ group ∈ Settings.sectionNames, ∃ value,
      sectionOf (normalized environment) group = .ok value ∧
        found.field? group = shownAs? group value := by
  have step : sections environment = Settings.sectionNames.foldlM (take environment) [] := rfl
  rw [step] at taken
  obtain ⟨distinct, shown, -⟩ := fields_of_take taken (by decide) List.nodup_nil fun _ _ => rfl
  exact ⟨distinct, shown⟩

/-- The sections of the environment have different keys. -/
theorem distinctAt_of_sections {found : Entries} (taken : sections environment = .ok found)
    (knownGroup : group ∈ Settings.sectionNames) : found.DistinctAt group := by
  obtain ⟨held, -, shown⟩ := (fields_of_sections taken).2 group knownGroup
  intro inner there
  rw [shown] at there
  cases held with
  | record entries =>
      cases there
      exact Entries.nodup_keys_ofPairs _
  | _ => cases there

/-- **The sections of the environment have of a setting what the environment says of it.** -/
theorem at?_of_sections {found : Entries} (taken : sections environment = .ok found)
    (knownGroup : group ∈ Settings.sectionNames) (known : key ∈ keysOf group)
    (orderly : Orderly environment group)
    (simple : ∀ value, found.at? group key = some value → value.IsSimple) :
    found.at? group key = setting? environment group key := by
  obtain ⟨held, heldGroup, shown⟩ := (fields_of_sections taken).2 group knownGroup
  rcases setting_of_sectionOf knownGroup known orderly heldGroup with
    ⟨simple, nothing⟩ | ⟨entries, rfl, said⟩
  · rw [nothing, Entries.at?, shown]
    cases held with
    | record entries => exact absurd rfl (simple entries)
    | _ => rfl
  · have there : found.at? group key = (named key entries).getLast?.map (·.2) := by
      rw [Entries.at?_of_field? shown]
      exact field?_withProperKeys (keyOf_eq_text_iff knownGroup known) entries
    rw [there] at simple ⊢
    exact said simple

end

end Variable

end ModelAssist
