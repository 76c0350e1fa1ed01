import ModelAssist.Config.Load
import ModelAssist.Proofs.Config.Merge

/-!
# Documents are tidy

Wherever a document has a mapping, the reader makes a record of different keys out of it, also where
mappings are merged or an anchor is repeated (`Settings.tidy_document`).
-/

namespace ModelAssist

/-- Holds of the values that hold no others. -/
def Value.isScalar : Value → Bool
  | .list _ => false
  | .record _ => false
  | _ => true

/-- Holds of the values in which every record has different keys. -/
inductive Value.Tidy : Value → Prop
  | scalar {value : Value} (scalar : value.isScalar) : Tidy value
  | list {elements : List Value} (tidy : ∀ value ∈ elements, Tidy value) : Tidy (.list elements)
  | record {entries : Entries} (distinct : entries.keys.Nodup)
      (tidy : ∀ entry ∈ entries, Tidy entry.2) : Tidy (.record entries)

namespace Value.Tidy

variable {entries : Entries}

theorem null : Tidy .null :=
  .scalar rfl

/-- The names of an orderly record are distinct. -/
theorem keys_nodup (tidy : Tidy (.record entries)) : entries.keys.Nodup := by
  cases tidy with
  | scalar scalar => cases scalar
  | record distinct => exact distinct

/-- The values of an orderly record are orderly. -/
theorem entries_tidy (tidy : Tidy (.record entries)) : ∀ entry ∈ entries, entry.2.Tidy := by
  cases tidy with
  | scalar scalar => cases scalar
  | record _ tidy => exact tidy

/-- The record of some pairs is tidy, whatever keys they have. -/
theorem ofPairs {pairs : List (Key × Value)} (tidy : ∀ pair ∈ pairs, pair.2.Tidy) :
    Tidy (.record (Entries.ofPairs pairs)) := by
  have distinct := Entries.nodup_keys_ofPairs pairs
  refine .record distinct ?_
  intro entry member
  have found := Entries.get?_eq_of_mem distinct member
  rw [Entries.get?_ofPairs] at found
  exact tidy _ (List.mem_reverse.mp (Entries.mem_of_get? found))

/-- The sections of a tidy record have different keys. -/
theorem distinctAt (tidy : Tidy (.record entries)) (group : String) : entries.DistinctAt group :=
  fun _ found => (tidy.entries_tidy _ (Entries.mem_of_get? found)).keys_nodup

end Value.Tidy

namespace Yaml

/-- A scalar of a document stands for a scalar. -/
theorem isScalar_of_valueOf {content : String} {kind : NodeKind} {value : Value}
    (stands : valueOf content kind = .ok value) : value.isScalar := by
  cases kind with
  | null | text =>
      cases stands
      rfl
  | truth =>
      rw [valueOf, truthOf] at stands
      grind [Value.isScalar]
  | integer =>
      rw [valueOf] at stands
      cases integer : integerOf content.toList <;> rw [integer] at stands <;> cases stands
      rfl
  | number =>
      rw [valueOf] at stands
      cases number : numberOf content.toList <;> rw [number] at stands <;> cases stands
      rfl
  | moment =>
      rw [valueOf, momentOf] at stands
      grind [Value.isScalar]
  | _ => cases stands

/-- Holds of entries with tidy values, if there are entries at all. -/
def TidyEntries (entries : Option (List Entry)) : Prop :=
  ∀ found, entries = some found → ∀ entry ∈ found, entry.value.Tidy

/-- Holds of what is made of a node if all values in it are tidy. -/
structure Made.Tidy (made : Made) : Prop where
  value : made.value.Tidy
  entries : TidyEntries made.entries
  merged : TidyEntries made.merged

namespace Made

/-- What is made of an orderly value is orderly. -/
theorem tidy_of_value {value : Value} {faults : Faults} (tidy : value.Tidy) :
    Tidy ⟨value, faults, none, none⟩ :=
  ⟨tidy, nofun, nofun⟩

/-- What is made of a scalar is orderly. -/
theorem tidy_ofScalar (content : String) (kind : NodeKind) : (ofScalar content kind).Tidy := by
  unfold ofScalar
  split
  · exact tidy_of_value (.list (List.forall_mem_nil _))
  · exact tidy_of_value (.record List.nodup_nil (List.forall_mem_nil _))
  · split
    · next stands => exact tidy_of_value (.scalar (isScalar_of_valueOf stands))
    · exact tidy_of_value .null

/-- What a partial function makes of a list comes from its elements. -/
theorem exists_mem_of_mapM {Element Result : Type} {function : Element → Option Result}
    {elements : List Element} {results : List Result}
    (mapped : elements.mapM function = some results) {result : Result} (member : result ∈ results) :
    ∃ element ∈ elements, function element = some result := by
  induction elements generalizing results with
  | nil =>
      obtain rfl := Option.some.inj mapped
      cases member
  | cons element rest ih =>
      rw [List.mapM_cons] at mapped
      obtain ⟨first, firstResult, mapped⟩ := Option.bind_eq_some_iff.mp mapped
      obtain ⟨others, otherResults, joined⟩ := Option.bind_eq_some_iff.mp mapped
      obtain rfl := Option.some.inj joined
      rcases List.mem_cons.mp member with rfl | member
      · exact ⟨element, List.mem_cons_self, firstResult⟩
      · obtain ⟨source, sourceMember, sourceResult⟩ := ih otherResults member
        exact ⟨source, List.mem_cons_of_mem _ sourceMember, sourceResult⟩

/-- What is made of orderly elements is orderly. -/
theorem tidy_ofSequence (kind : NodeKind) {elements : List Made}
    (tidy : ∀ made ∈ elements, made.Tidy) : (ofSequence kind elements).Tidy where
  value := .list (List.forall_mem_map.mpr fun made member => (tidy made member).value)
  entries := nofun
  merged := by
    intro found merged entry member
    obtain ⟨parts, partsFound, rfl⟩ := Option.map_eq_some_iff.mp merged
    obtain ⟨part, partMember, member⟩ := List.mem_flatten.mp member
    obtain ⟨made, madeMember, madeEntries⟩ :=
      exists_mem_of_mapM partsFound (List.mem_reverse.mp partMember)
    exact (tidy made madeMember).entries part madeEntries entry member

/-- What is made of orderly entries is orderly. -/
theorem tidy_ofMapping (kind : NodeKind) {entries : Option (List Entry)}
    (tidy : TidyEntries entries) : (ofMapping kind entries).Tidy where
  value := by
    apply Value.Tidy.ofPairs
    intro pair member
    obtain ⟨entry, entryMember, rfl⟩ := List.mem_map.mp member
    cases entries with
    | none => cases entryMember
    | some found => exact tidy found rfl entry entryMember
  entries := tidy
  merged := tidy

end Made

mutual

/-- By recursion on the tree, as values are made. -/
theorem tidy_make (node : Node) : node.make.Tidy := by
  match node with
  | .scalar tag content isPlain =>
      rw [Node.make]
      exact Made.tidy_ofScalar _ _
  | .sequence tag elements =>
      rw [Node.make]
      exact Made.tidy_ofSequence _ (tidy_makeAll elements)
  | .mapping tag entries =>
      rw [Node.make]
      apply Made.tidy_ofMapping
      rintro _ joined
      obtain ⟨⟨merged, own⟩, made, rfl⟩ := Option.map_eq_some_iff.mp joined
      exact tidy_makeEntries entries merged own made

/-- What is made of the nodes of a sequence is orderly. -/
theorem tidy_makeAll (nodes : List Node) : ∀ made ∈ makeAll nodes, made.Tidy := by
  match nodes with
  | [] => exact List.forall_mem_nil _
  | node :: rest =>
      rw [makeAll]
      exact List.forall_mem_cons.mpr ⟨tidy_make node, tidy_makeAll rest⟩

/-- What is made of the entries of a mapping is orderly. -/
theorem tidy_makeEntries (entries : List (Node × Node)) :
    ∀ merged own, makeEntries entries = some (merged, own) →
      ∀ entry ∈ merged ++ own, entry.value.Tidy := by
  intro merged own made
  match entries with
  | [] =>
      cases made
      exact List.forall_mem_nil _
  | (key, value) :: rest =>
      rw [makeEntries] at made
      obtain ⟨⟨before, behind⟩, restMade, made⟩ := Option.bind_eq_some_iff.mp made
      have tidyRest := tidy_makeEntries rest before behind restMade
      have valueTidy := tidy_make value
      have own : ∀ key, ∀ entry ∈ before ++ Made.entry key value.make :: behind,
          entry.value.Tidy := by
        intro key entry member
        rcases List.mem_append.mp member with inBefore | inBehind
        · exact tidyRest entry (List.mem_append_left _ inBefore)
        · rcases List.mem_cons.mp inBehind with rfl | inBehind
          · exact valueTidy.value
          · exact tidyRest entry (List.mem_append_right _ inBehind)
      dsimp only at made
      split at made
      · obtain ⟨first, firstMerged, joined⟩ := Option.bind_eq_some_iff.mp made
        cases joined
        rw [List.append_assoc]
        exact List.forall_mem_append.mpr ⟨valueTidy.merged first firstMerged, tidyRest⟩
      · cases made
        exact own _
      · cases made
        exact own _

end

/-- **Every value that is read is tidy.** -/
theorem tidy_of_read {text : List Char} {value : Value} (read : Yaml.read text = .ok value) :
    value.Tidy := by
  unfold Yaml.read at read
  split at read
  · cases read
  · next node _ =>
      split at read
      · cases read
      · cases read
        exact (tidy_make node).value

end Yaml

namespace Settings

/-- The sections of a document are tidy. -/
theorem tidy_document [Host] {files : FileStore} {path : Path} {entries : Entries}
    (read : document files path = .ok entries) : (Value.record entries).Tidy := by
  have empty : (Value.record []).Tidy := .record List.nodup_nil (List.forall_mem_nil _)
  unfold document at read
  split at read
  · cases read
    exact empty
  · cases read
  · split at read
    · cases read
    · split at read
      · cases read
      · cases read
      · next parsed =>
          cases read
          exact Yaml.tidy_of_read parsed
      · split at read
        · cases read
        · cases read
          exact empty

end Settings

end ModelAssist
