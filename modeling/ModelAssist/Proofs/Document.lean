import ModelAssist.Document
import ModelAssist.Proofs.Path

/-!
# Coherent document stores

What holds of every store that documents are opened in, changed in and closed in, and which texts
such a change leaves alone: all but those at the path of the document.  If no two documents ever
have one path, every document owns its path, and its text is found there.
-/

namespace ModelAssist

namespace DocumentStore

/-- The open documents after one was closed. -/
theorem get?_close (store : DocumentStore) (uri other : String) :
    (store.close uri).get? other = if other = uri then none else store.get? other := by
  unfold close
  split
  · next absent =>
      by_cases same : other = uri
      · rw [if_pos same, same, absent]
      · rw [if_neg same]
  · exact OrderedMap.get?_erase _ _ _

section

variable [Host]

/-- A document that was opened is found with its path, text and version. -/
theorem get?_openDocument_self (store : DocumentStore) (uri text : String) (version : Int) :
    (store.openDocument uri text version).get? uri = some ⟨uri, Uri.path? uri, text, version⟩ :=
  OrderedMap.get?_insert_self _ _ _

/-- The open documents after one was opened. -/
theorem get?_openDocument_of_ne (store : DocumentStore) (uri text : String) (version : Int)
    {other : String} (different : other ≠ uri) :
    (store.openDocument uri text version).get? other = store.get? other :=
  OrderedMap.get?_insert_of_ne _ _ different

/-- The other documents are left alone by a change. -/
theorem get?_update_of_ne (store : DocumentStore) (uri text : String) (version : Int)
    {other : String} (different : other ≠ uri) :
    (store.update uri text version).get? other = store.get? other := by
  unfold update
  split
  · exact store.get?_openDocument_of_ne uri text version different
  · exact OrderedMap.get?_insert_of_ne _ _ different

/-- A document that was changed is found with the new text and version. -/
theorem get?_update_self {store : DocumentStore} {uri : String} {document : Document}
    (found : store.get? uri = some document) (text : String) (version : Int) :
    (store.update uri text version).get? uri = some { document with text, version } := by
  simp only [update, found]
  exact OrderedMap.get?_insert_self _ _ _

/-- Holds if the documents of a store go by their own names and own their own paths. -/
structure Coherent (store : DocumentStore) : Prop where
  distinct : store.byUri.keys.Nodup
  named : ∀ uri document, store.get? uri = some document →
    document.uri = uri ∧ document.path = Uri.path? uri
  owned : ∀ path uri, store.owners.get? path = some uri → Uri.path? uri = some path

/-- A store without documents is coherent. -/
theorem coherent_empty : (∅ : DocumentStore).Coherent where
  distinct := List.nodup_nil
  named _ _ found := by cases found
  owned _ _ found := by cases found

namespace Coherent

variable {store : DocumentStore} (coherent : store.Coherent)
include coherent

/-- Opening a document keeps a store coherent. -/
theorem openDocument (uri text : String) (version : Int) :
    (store.openDocument uri text version).Coherent := by
  refine ⟨OrderedMap.nodup_keys_insert coherent.distinct _ _, ?_, ?_⟩
  · intro other document found
    change (store.byUri.insert uri _).get? other = some document at found
    rw [OrderedMap.get?_insert] at found
    split at found
    · next same =>
        obtain rfl := Option.some.inj found
        exact ⟨same.symm, same ▸ rfl⟩
    · exact coherent.named other document found
  · intro path other found
    simp only [DocumentStore.openDocument] at found
    split at found
    · next own located =>
        rw [OrderedMap.get?_insert] at found
        split at found
        · next same => rw [← Option.some.inj found, located, same]
        · exact coherent.owned path other found
    · exact coherent.owned path other found

/-- Changing a document keeps a store coherent. -/
theorem update (uri text : String) (version : Int) : (store.update uri text version).Coherent := by
  unfold DocumentStore.update
  split
  · exact coherent.openDocument uri text version
  · next document found =>
      refine ⟨OrderedMap.nodup_keys_insert coherent.distinct _ _, ?_, coherent.owned⟩
      intro other changed found'
      change (store.byUri.insert uri _).get? other = some changed at found'
      rw [OrderedMap.get?_insert] at found'
      split at found'
      · next same =>
          obtain rfl := Option.some.inj found'
          rw [same]
          exact coherent.named uri document found
      · exact coherent.named other changed found'

/-- Closing a document keeps a store coherent. -/
theorem close (uri : String) : (store.close uri).Coherent := by
  unfold DocumentStore.close
  split
  · exact coherent
  · next document found =>
      refine ⟨OrderedMap.nodup_keys_erase coherent.distinct _, ?_, ?_⟩
      · intro other kept found'
        change (store.byUri.erase uri).get? other = some kept at found'
        rw [OrderedMap.get?_erase] at found'
        split at found'
        · cases found'
        · exact coherent.named other kept found'
      · intro path other found'
        simp only at found'
        split at found'
        · rw [OrderedMap.get?_erase] at found'
          split at found'
          · cases found'
          · exact coherent.owned path other found'
        · exact coherent.owned path other found'

/-- The owner of a path is not a document with another path. -/
private theorem owner_ne {uri owner : String} {path : Path}
    (elsewhere : Uri.path? uri ≠ some path) (owns : store.owners.get? path = some owner) :
    owner ≠ uri := by
  rintro rfl
  exact elsewhere (coherent.owned path owner owns)

/-- A change of an open document leaves the texts at other paths alone. -/
theorem textFor?_update {uri : String} (opened : (store.get? uri).isSome) (text : String)
    (version : Int) {path : Path} (elsewhere : Uri.path? uri ≠ some path.normalize) :
    (store.update uri text version).textFor? path = store.textFor? path := by
  obtain ⟨document, found⟩ := Option.isSome_iff_exists.mp opened
  simp only [DocumentStore.update, found, textFor?, byPath?]
  cases owns : store.owners.get? path.normalize with
  | none => rfl
  | some owner =>
      simp only [Option.bind_some, get?]
      rw [OrderedMap.get?_insert, if_neg (coherent.owner_ne elsewhere owns)]

/-- Closing a document leaves the texts at other paths alone. -/
theorem textFor?_close (uri : String) {path : Path}
    (elsewhere : Uri.path? uri ≠ some path.normalize) :
    (store.close uri).textFor? path = store.textFor? path := by
  cases found : store.get? uri with
  | none => simp only [DocumentStore.close, found]
  | some document =>
      have owners : (store.close uri).owners.get? path.normalize =
          store.owners.get? path.normalize := by
        simp only [DocumentStore.close, found]
        split
        · next own located =>
            rw [OrderedMap.get?_erase, if_neg]
            rintro rfl
            exact elsewhere ((coherent.named uri document found).2.symm.trans located)
        · rfl
      simp only [textFor?, byPath?, owners]
      cases owns : store.owners.get? path.normalize with
      | none => rfl
      | some owner =>
          simp only [Option.bind_some]
          rw [get?_close, if_neg (coherent.owner_ne elsewhere owns)]

end Coherent

/-- Holds of the stores that documents were opened in, changed in and closed in. -/
inductive Reachable : DocumentStore → Prop where
  | empty : Reachable ∅
  | openDocument {store : DocumentStore} (uri text : String) (version : Int) :
      Reachable store → Reachable (store.openDocument uri text version)
  | update {store : DocumentStore} (uri text : String) (version : Int) :
      Reachable store → Reachable (store.update uri text version)
  | close {store : DocumentStore} (uri : String) : Reachable store → Reachable (store.close uri)

/-- A store that came about by opening, changing and closing is coherent. -/
theorem Reachable.coherent {store : DocumentStore} (reachable : store.Reachable) :
    store.Coherent := by
  induction reachable with
  | empty => exact coherent_empty
  | openDocument uri text version _ coherent => exact coherent.openDocument uri text version
  | update uri text version _ coherent => exact coherent.update uri text version
  | close uri _ coherent => exact coherent.close uri

end

/-- Holds if no two documents have one path. -/
def Distinct (store : DocumentStore) : Prop :=
  ∀ first second document other path, store.get? first = some document →
    store.get? second = some other → document.path = some path → other.path = some path →
      first = second

/-- Holds if every document owns its path. -/
def Owns (store : DocumentStore) : Prop :=
  ∀ uri document path, store.get? uri = some document → document.path = some path →
    store.owners.get? path = some uri

/-- A store without documents owns all that it needs. -/
theorem owns_empty : (∅ : DocumentStore).Owns := by
  intro uri document path found
  cases found

namespace Owns

variable {store : DocumentStore} (owns : store.Owns)
include owns

/-- A store that is owned has no two documents of one path. -/
theorem distinct : store.Distinct :=
  fun first second document other path found found' located located' =>
    Option.some.inj ((owns first document path found located).symm.trans
      (owns second other path found' located'))

/-- The text for the path of a document is that of the document. -/
theorem textFor?_eq [Host] {uri : String} {document : Document} {path : Path}
    (found : store.get? uri = some document) (located : document.path = some path)
    (normal : path.IsNormal) : store.textFor? path = some document.text := by
  rw [textFor?, byPath?, normal.normalize_eq, owns uri document path found located,
    Option.bind_some, found, Option.map_some]

/-- Opening a document keeps a store owned if its paths stay distinct. -/
theorem openDocument [Host] {uri text : String} {version : Int}
    (distinct : (store.openDocument uri text version).Distinct) :
    (store.openDocument uri text version).Owns := by
  intro other document path found located
  have own := store.get?_openDocument_self uri text version
  by_cases same : other = uri
  · subst same
    obtain rfl := Option.some.inj (own.symm.trans found)
    have ownLocated : Uri.path? other = some path := located
    simp only [DocumentStore.openDocument, ownLocated]
    exact OrderedMap.get?_insert_self _ _ _
  · have kept : store.get? other = some document :=
      (store.get?_openDocument_of_ne uri text version same).symm.trans found
    have owned := owns other document path kept located
    simp only [DocumentStore.openDocument]
    split
    · next ownPath ownLocated =>
        have apart : path ≠ ownPath := by
          rintro rfl
          exact same (distinct _ _ _ _ _ found own located ownLocated)
        rw [OrderedMap.get?_insert_of_ne _ _ apart]
        exact owned
    · exact owned

/-- Changing a document keeps a store owned. -/
theorem update [Host] {uri : String} (opened : (store.get? uri).isSome) (text : String)
    (version : Int) : (store.update uri text version).Owns := by
  obtain ⟨earlier, known⟩ := Option.isSome_iff_exists.mp opened
  intro other document path found located
  have owners : (store.update uri text version).owners = store.owners := by
    simp only [DocumentStore.update, known]
  rw [owners]
  by_cases same : other = uri
  · subst same
    obtain rfl := Option.some.inj ((get?_update_self known text version).symm.trans found)
    exact owns other earlier path known located
  · rw [store.get?_update_of_ne uri text version same] at found
    exact owns other document path found located

/-- Closing a document keeps a store owned. -/
theorem close (uri : String) : (store.close uri).Owns := by
  intro other document path found located
  rw [store.get?_close] at found
  split at found
  · cases found
  · next different =>
      have owned := owns other document path found located
      unfold DocumentStore.close
      split
      · exact owned
      · next closed known =>
          simp only
          split
          · next own ownLocated =>
              have apart : path ≠ own := by
                rintro rfl
                exact different (owns.distinct _ _ _ _ _ found known located ownLocated)
              rw [OrderedMap.get?_erase, if_neg apart]
              exact owned
          · exact owned

end Owns

end DocumentStore

end ModelAssist
