import Mathlib.Data.List.Infix
import ModelAssist.Proofs.Document

/-!
# What a document store answers

A history is what an editor did with its documents, the last change first.  For a URI the store
answers with what the last change of that document gave.  For a path it answers with the text of the
document that was opened there last, until any document there is closed (`owner?`).  So it finds the
text that was last given to an open document of the path (`latestText?`) unless two documents were
open there at once; `after_answers` puts this together, and `after_answers_twins` has two documents
at one path of which one is closed: the other one is still open and has no text by path.
-/

namespace ModelAssist

namespace DocumentStore

/-- What an editor does with a document. -/
inductive Change where
  | opened (uri text : String) (version : Int)
  | updated (uri text : String) (version : Int)
  | closed (uri : String)

namespace Change

def uri : Change → String
  | opened uri _ _ | updated uri _ _ | closed uri => uri

/-- The text and the version that a document has after a change of it; a closed one has none. -/
def given? : Change → Option (String × Int)
  | opened _ text version | updated _ text version => some (text, version)
  | closed _ => none

/-- Holds if a change of a document that is open or not opens or closes it. -/
def turns : Change → Bool → Bool
  | opened .., _ => true
  | updated .., isOpen => !isOpen
  | closed _, isOpen => isOpen

end Change

/-- The store after a change. -/
def apply [Host] (store : DocumentStore) : Change → DocumentStore
  | .opened uri text version => store.openDocument uri text version
  | .updated uri text version => store.update uri text version
  | .closed uri => store.close uri

/-- The store after a history. -/
def after [Host] : List Change → DocumentStore
  | [] => ∅
  | change :: earlier => (after earlier).apply change

/-- The text and the version of a document, if it is open. -/
def lastGiven? (history : List Change) (uri : String) : Option (String × Int) :=
  (history.find? (·.uri = uri)).bind Change.given?

section

variable [Host]

/-- The documents that are open at a path. -/
def openAt (history : List Change) (path : Path) : List String :=
  (history.map Change.uri).filter fun uri =>
    (lastGiven? history uri).isSome && Uri.path? uri = some path

/-- The document that was opened at a path last, unless one was closed there since. -/
def owner? : List Change → Path → Option String
  | [], _ => none
  | change :: earlier, path =>
    if Uri.path? change.uri = some path ∧ change.turns (lastGiven? earlier change.uri).isSome then
      change.given?.map fun _ => change.uri
    else owner? earlier path

/-- The text that was last given to a document that is open at a path. -/
def latestText? (history : List Change) (path : Path) : Option String :=
  ((history.find? fun change => change.uri ∈ openAt history path).bind Change.given?).map (·.1)

/-- Holds if there were never two open documents at a path. -/
def Alone (history : List Change) (path : Path) : Prop :=
  ∀ earlier ∈ history.tails, ∀ first ∈ openAt earlier path, ∀ second ∈ openAt earlier path,
    first = second

instance (history : List Change) (path : Path) : Decidable (Alone history path) :=
  List.decidableBAll _ _

section Step

variable {store : DocumentStore} (coherent : store.Coherent)
include coherent

/-- Every change keeps a store coherent. -/
theorem Coherent.apply (change : Change) : (store.apply change).Coherent := by
  cases change with
  | opened uri text version => exact coherent.openDocument uri text version
  | updated uri text version => exact coherent.update uri text version
  | closed uri => exact coherent.close uri

/-- The document of a change has what the change gave it, and the others stay. -/
theorem get?_apply (change : Change) (uri : String) :
    (store.apply change).get? uri =
      if change.uri = uri then
        change.given?.map fun given => ⟨uri, Uri.path? uri, given.1, given.2⟩
      else store.get? uri := by
  by_cases own : change.uri = uri
  · subst own
    rw [if_pos rfl]
    cases change with
    | opened uri text version => exact store.get?_openDocument_self uri text version
    | updated uri text version =>
        change (store.update uri text version).get? uri = some ⟨uri, Uri.path? uri, text, version⟩
        cases found : store.get? uri with
        | none =>
            simp only [DocumentStore.update, found]
            exact store.get?_openDocument_self uri text version
        | some document =>
            obtain ⟨named, located⟩ := coherent.named uri document found
            rw [get?_update_self found, named, located]
    | closed uri => exact (store.get?_close uri uri).trans (if_pos rfl)
  · rw [if_neg own]
    have different : uri ≠ change.uri := Ne.symm own
    cases change with
    | opened _ text version => exact store.get?_openDocument_of_ne _ text version different
    | updated _ text version => exact store.get?_update_of_ne _ text version different
    | closed _ => exact (store.get?_close _ uri).trans (if_neg different)

end Step

/-- Opening a document makes it the owner of its path. -/
theorem owners_openDocument (store : DocumentStore) (uri text : String) (version : Int)
    (path : Path) :
    (store.openDocument uri text version).owners.get? path =
      if Uri.path? uri = some path then some uri else store.owners.get? path := by
  simp only [openDocument]
  split
  · next own located =>
      rw [OrderedMap.get?_insert, located]
      simp only [Option.some.injEq, eq_comm]
  · next unlocated => rw [unlocated, if_neg (Option.some_ne_none path).symm]

/-- A path gets a new owner where a document is opened, and loses it where one is closed. -/
theorem owners_apply {store : DocumentStore} (coherent : store.Coherent) (change : Change)
    (path : Path) :
    (store.apply change).owners.get? path =
      if Uri.path? change.uri = some path ∧ change.turns (store.get? change.uri).isSome then
        change.given?.map fun _ => change.uri
      else store.owners.get? path := by
  cases change with
  | opened uri text version =>
      simp only [apply, owners_openDocument, Change.turns, and_true]
      rfl
  | updated uri text version =>
      cases found : store.get? uri with
      | none =>
          simp only [apply, update, found, owners_openDocument, Change.uri, Change.turns,
            Option.isSome_none, Bool.not_false, and_true]
          rfl
      | some document => simp [apply, update, Change.uri, Change.turns, found]
  | closed uri =>
      cases found : store.get? uri with
      | none => simp [apply, close, Change.uri, Change.turns, found]
      | some document =>
          have located := (coherent.named uri document found).2
          cases own : Uri.path? uri with
          | none => simp [apply, close, Change.uri, found, located, own]
          | some ownPath =>
              simp only [apply, close, Change.uri, Change.turns, Change.given?, found, located, own,
                OrderedMap.get?_erase, Option.some.injEq, Option.isSome_some, and_true,
                Option.map_none]
              simp only [eq_comm]

/-- A store is coherent after any history. -/
theorem coherent_after (history : List Change) : (after history).Coherent := by
  induction history with
  | nil => exact coherent_empty
  | cons change earlier ih => exact ih.apply change

end

/-- The last change of a URI decides what was given for it last. -/
theorem lastGiven?_cons (change : Change) (earlier : List Change) (uri : String) :
    lastGiven? (change :: earlier) uri =
      if change.uri = uri then change.given? else lastGiven? earlier uri := by
  unfold lastGiven?
  rw [List.find?_cons]
  by_cases own : change.uri = uri <;> simp [own]

/-- A document is found with what was given for it last. -/
theorem get?_after [Host] (history : List Change) (uri : String) :
    (after history).get? uri =
      (lastGiven? history uri).map fun given => ⟨uri, Uri.path? uri, given.1, given.2⟩ := by
  induction history with
  | nil => rfl
  | cons change earlier ih =>
      rw [after, get?_apply (coherent_after earlier), lastGiven?_cons, ih]
      split <;> rfl

/-- The owner of a path after a history is read off the history. -/
theorem owners_after [Host] (history : List Change) (path : Path) :
    (after history).owners.get? path = owner? history path := by
  induction history with
  | nil => rfl
  | cons change earlier ih =>
      rw [after, owners_apply (coherent_after earlier), get?_after, Option.isSome_map, ih]
      rfl

/-- The documents open at a path are those that were given something last and have this path. -/
theorem mem_openAt [Host] {history : List Change} {path : Path} {uri : String} :
    uri ∈ openAt history path ↔
      (lastGiven? history uri).isSome ∧ Uri.path? uri = some path := by
  simp only [openAt, List.mem_filter, Bool.and_eq_true, decide_eq_true_eq, and_iff_right_iff_imp]
  rintro ⟨isOpen, -⟩
  obtain ⟨given, last⟩ := Option.isSome_iff_exists.mp isOpen
  obtain ⟨change, found, -⟩ := Option.bind_eq_some_iff.mp last
  have same : change.uri = uri := by simpa using List.find?_some found
  rw [← same]
  exact List.mem_map_of_mem (List.mem_of_find?_eq_some found)

/-- A change says of its own URI alone whether it is open at a path. -/
theorem mem_openAt_cons [Host] {change : Change} {earlier : List Change} {path : Path}
    {uri : String} : uri ∈ openAt (change :: earlier) path ↔
      if change.uri = uri then change.given?.isSome ∧ Uri.path? uri = some path
      else uri ∈ openAt earlier path := by
  rw [mem_openAt, lastGiven?_cons]
  split
  · exact Iff.rfl
  · exact mem_openAt.symm

/-- A document is open before a change that does not turn it exactly if it is open afterwards. -/
theorem Change.isOpen_of_not_turns {change : Change} {isOpen : Bool}
    (stays : ¬ change.turns isOpen) : isOpen = change.given?.isSome := by
  cases change with
  | opened _ _ _ => exact absurd rfl stays
  | updated _ _ _ => simpa [turns, given?] using stays
  | closed _ => simpa [turns, given?] using stays

/-- What is closed was open. -/
theorem Change.isOpen_of_turns {change : Change} {isOpen : Bool} (turned : change.turns isOpen)
    (closes : change.given? = none) : isOpen := by
  cases change with
  | opened _ _ _ => cases closes
  | updated _ _ _ => cases closes
  | closed _ => exact turned

section

variable [Host]

/-- The owner of a path is open. -/
theorem mem_openAt_of_owner? {history : List Change} {path : Path} {uri : String}
    (owns : owner? history path = some uri) : uri ∈ openAt history path := by
  induction history with
  | nil => cases owns
  | cons change earlier ih =>
      rw [owner?] at owns
      rw [mem_openAt_cons]
      split at owns
      · next turned =>
          obtain ⟨given, opened, rfl⟩ := Option.map_eq_some_iff.mp owns
          rw [if_pos rfl, opened]
          exact ⟨rfl, turned.1⟩
      · next kept =>
          have member := ih owns
          split
          · next own =>
              subst own
              obtain ⟨isOpen, located⟩ := mem_openAt.mp member
              have stays : ¬ change.turns (lastGiven? earlier change.uri).isSome :=
                fun turns => kept ⟨located, turns⟩
              exact ⟨Change.isOpen_of_not_turns stays ▸ isOpen, located⟩
          · exact member

/-- A path was always alone if it is now and was before. -/
theorem alone_cons {change : Change} {earlier : List Change} {path : Path} :
    Alone (change :: earlier) path ↔
      (∀ first ∈ openAt (change :: earlier) path, ∀ second ∈ openAt (change :: earlier) path,
        first = second) ∧ Alone earlier path := by
  rw [Alone, List.tails_cons, List.forall_mem_cons, ← Alone]

/-- A path that was always alone has at most one open document. -/
theorem Alone.eq_of_mem {history : List Change} {path : Path} (alone : Alone history path)
    {first second : String} (member : first ∈ openAt history path)
    (member' : second ∈ openAt history path) : first = second :=
  alone history ((List.mem_tails _ _).mpr List.suffix_rfl) first member second member'

/-- A document that was always alone at its path owns the path while it is open. -/
theorem owner?_of_alone {history : List Change} {path : Path} (alone : Alone history path)
    {uri : String} (member : uri ∈ openAt history path) : owner? history path = some uri := by
  induction history with
  | nil => cases member
  | cons change earlier ih =>
      obtain ⟨now, aloneBefore⟩ := alone_cons.mp alone
      have stands := mem_openAt_cons.mp member
      rw [owner?]
      by_cases own : change.uri = uri
      · subst own
        rw [if_pos rfl] at stands
        obtain ⟨given, located⟩ := stands
        split
        · next turned =>
            obtain ⟨content, gives⟩ := Option.isSome_iff_exists.mp given
            rw [gives]
            rfl
        · next kept =>
            have stays : ¬ change.turns (lastGiven? earlier change.uri).isSome :=
              fun turns => kept ⟨located, turns⟩
            exact ih aloneBefore
              (mem_openAt.mpr ⟨Change.isOpen_of_not_turns stays ▸ given, located⟩)
      · rw [if_neg own] at stands
        split
        · next turned =>
            -- Whatever a change of another document opens or closes here was open beside this one.
            exfalso
            cases gives : change.given? with
            | some given =>
                have opened : change.uri ∈ openAt (change :: earlier) path := by
                  rw [mem_openAt_cons, if_pos rfl, gives]
                  exact ⟨rfl, turned.1⟩
                exact own (now _ opened _ member)
            | none =>
                have closed : change.uri ∈ openAt earlier path :=
                  mem_openAt.mpr ⟨Change.isOpen_of_turns turned.2 gives, turned.1⟩
                exact own (aloneBefore.eq_of_mem closed stands)
        · exact ih aloneBefore stands

/-- If documents were always alone at a path, its text is the one that was last given there. -/
theorem owner?_eq_latestText? {history : List Change} {path : Path} (alone : Alone history path) :
    ((owner? history path).bind (lastGiven? history)).map (·.1) = latestText? history path := by
  have asked : (owner? history path).bind (lastGiven? history) =
      (history.find? fun change => change.uri ∈ openAt history path).bind Change.given? := by
    cases owns : owner? history path with
    | none =>
        have closed : ∀ uri, uri ∉ openAt history path := by
          intro uri member
          rw [owner?_of_alone alone member] at owns
          cases owns
        rw [List.find?_eq_none.mpr fun change _ => by simpa using closed change.uri]
        rfl
    | some uri =>
        have only : ∀ other, other ∈ openAt history path ↔ other = uri := by
          intro other
          constructor
          · intro member
            exact Option.some.inj ((owner?_of_alone alone member).symm.trans owns)
          · rintro rfl
            exact mem_openAt_of_owner? owns
        simp only [only]
        rfl
  rw [asked, latestText?]

/-- There is a latest text of a path that was always alone if a document is open there. -/
theorem isSome_latestText? {history : List Change} {path : Path} (alone : Alone history path) :
    (latestText? history path).isSome ↔ ∃ uri, uri ∈ openAt history path := by
  rw [← owner?_eq_latestText? alone, Option.isSome_map]
  constructor
  · intro found
    obtain ⟨given, last⟩ := Option.isSome_iff_exists.mp found
    obtain ⟨uri, owns, -⟩ := Option.bind_eq_some_iff.mp last
    exact ⟨uri, mem_openAt_of_owner? owns⟩
  · rintro ⟨uri, member⟩
    rw [owner?_of_alone alone member]
    exact (mem_openAt.mp member).1

/-- The text for a path is what was given last for its owner. -/
theorem textFor?_after (history : List Change) (path : Path) :
    (after history).textFor? path =
      ((owner? history path.normalize).bind (lastGiven? history)).map (·.1) := by
  rw [textFor?, byPath?, owners_after]
  cases owner? history path.normalize with
  | none => rfl
  | some uri =>
      rw [Option.bind_some, Option.bind_some, get?_after, Option.map_map]
      rfl

end

/-- **What a store answers after a history.**  By URI it has what the last change of a document
gave.  By path it has a text only from an open document, the one that owns the path; and if open
documents were always alone at the path, it has the text that was last given there exactly if one is
open. -/
theorem after_answers [Host] (history : List Change) :
    (∀ uri,
      (after history).get? uri =
          (lastGiven? history uri).map (fun given => ⟨uri, Uri.path? uri, given.1, given.2⟩) ∧
        (after history).version? uri = (lastGiven? history uri).map (·.2)) ∧
    ∀ path : Path,
      (after history).textFor? path =
          ((owner? history path.normalize).bind (lastGiven? history)).map (·.1) ∧
        (∀ uri, owner? history path.normalize = some uri → uri ∈ openAt history path.normalize) ∧
        (Alone history path.normalize →
          (after history).textFor? path = latestText? history path.normalize ∧
            (((after history).textFor? path).isSome ↔
              ∃ uri, uri ∈ openAt history path.normalize)) := by
  refine ⟨fun uri => ⟨get?_after history uri, ?_⟩, fun path => ?_⟩
  · rw [version?, get?_after, Option.map_map]
    rfl
  · refine ⟨textFor?_after history path, fun uri owns => mem_openAt_of_owner? owns, fun alone => ?_⟩
    have latest : (after history).textFor? path = latestText? history path.normalize :=
      (textFor?_after history path).trans (owner?_eq_latestText? alone)
    exact ⟨latest, latest ▸ isSome_latestText? alone⟩

/-- Two documents are opened at one path and the later one is closed; another path has one document
only. -/
private def twins : List Change :=
  [.closed "file:///w/%61.ump", .opened "file:///w/%61.ump" "second" 1,
    .updated "file:///w/b.ump" "changed" 2, .opened "file:///w/b.ump" "other" 1,
    .opened "file:///w/a.ump" "first" 1]

section

open scoped Trial

/-- A document that is still open has no text by path once its twin is closed. -/
theorem after_answers_twins :
    (after twins).textFor? (Path.ofText "/w/a.ump") = none ∧
      (after twins).get? "file:///w/a.ump" =
        some ⟨"file:///w/a.ump", Uri.path? "file:///w/a.ump", "first", 1⟩ ∧
      "file:///w/a.ump" ∈ openAt twins (Path.normalized "/w/a.ump") ∧
      Alone twins (Path.normalized "/w/b.ump") ∧
      (after twins).textFor? (Path.ofText "/w/b.ump") = some "changed" := by
  obtain ⟨byUri, byPath⟩ := after_answers twins
  have alone : Alone twins (Path.normalized "/w/b.ump") := by decide +kernel
  refine ⟨?_, ?_, by decide +kernel, alone, ?_⟩
  · rw [(byPath (Path.ofText "/w/a.ump")).1]
    decide +kernel
  · rw [(byUri "file:///w/a.ump").1]
    decide +kernel
  · rw [((byPath (Path.ofText "/w/b.ump")).2.2 alone).1]
    decide +kernel

end

end DocumentStore

end ModelAssist
