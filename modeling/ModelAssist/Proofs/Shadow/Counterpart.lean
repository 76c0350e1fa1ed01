import ModelAssist.Proofs.FileStore.Clear
import ModelAssist.Proofs.Shadow.Extent

/-!
# Counterparts

Every file that a shadow is made for has a counterpart in it: its unsaved text, a link to it, or a
copy of it (`Shadow.IsCounterpart`).  While a shadow is filled it holds the counterparts of the
files that were handled, and directories only where directories are mirrored (`Shadow.IsFilled`).
So no file is in the way of another one (`Shadow.IsFilled.layOut`).
-/

namespace ModelAssist

namespace Shadow

variable {request : ShadowRequest} {root common path found : Path} {number : Nat}
  {base store after : FileStore} {handled : List Path} {own : List String} {entry : FileEntry}

/-- A text can be written wherever nothing stands and every directory is clear. -/
theorem writeText_of_clear (clear : store.IsClear found)
    (top : store.entry? ⟨found.anchor, []⟩ = some .directory)
    (free : store.entry? found = none) (text : String) :
    ∃ after, writeText store found text = .ok after ∧
      store.Gains after found (.file (Text.utf8 text.toList)) := by
  have named := FileStore.parts_ne_nil_of_free top free
  obtain ⟨next, nextEq, made⟩ := FileStore.makeDirectories_of_clear clear.parent top
  obtain ⟨after, afterEq, gains⟩ :=
    FileStore.write_of_clear made clear free named (Text.utf8 text.toList)
  refine ⟨after, ?_, gains⟩
  simp only [writeText, nextEq, bind, Except.bind]
  exact afterEq

/-- No text is written over a directory. -/
theorem writeText_of_directory (clear : store.IsClear found)
    (top : store.entry? ⟨found.anchor, []⟩ = some .directory)
    (there : store.entry? found = some .directory) (text : String) :
    writeText store found text = .error (.isDirectory found) := by
  obtain ⟨next, nextEq, made⟩ := FileStore.makeDirectories_of_clear clear.parent top
  have kept : next.entry? found = some .directory := by
    rw [made.entry?_directory, there, ite_self]
  simp only [writeText, nextEq, bind, Except.bind, FileStore.write,
    (made.isClear clear).isDirect.resolve_eq, kept]

/-- A file is linked to a free place, or copied to it where links are refused. -/
theorem linkOrCopy_of_clear (clear : store.IsClear found)
    (top : store.entry? ⟨found.anchor, []⟩ = some .directory)
    (free : store.entry? found = none) {content : List UInt8}
    (readable : ∀ next : FileStore, store.Gains next found.parent .directory →
      next.read path = .ok content ∧ next.resolve path ≠ found) :
    ∃ after, linkOrCopy store path found = .ok after ∧
      (store.links = .allowed ∧ store.Gains after found (.link path) ∨
        store.links = .refused ∧ store.Gains after found (.file content)) := by
  have named := FileStore.parts_ne_nil_of_free top free
  obtain ⟨next, nextEq, made⟩ := FileStore.makeDirectories_of_clear clear.parent top
  obtain ⟨reads, apart⟩ := readable next made
  rcases FileStore.makeLink?_of_clear made clear free named path with
    ⟨refused, none_⟩ | ⟨allowed, after, linked, gains⟩
  · obtain ⟨after, copied, gains⟩ := FileStore.copy_of_clear made clear free named reads apart
    refine ⟨after, ?_, Or.inr ⟨refused, gains⟩⟩
    simp only [linkOrCopy, nextEq, none_, bind, Except.bind]
    exact copied
  · refine ⟨after, ?_, Or.inl ⟨allowed, gains⟩⟩
    simp only [linkOrCopy, nextEq, linked, bind, Except.bind]
    rfl

variable [Host]

/-- Holds of the files besides the document that a shadow is made for. -/
structure IsOther (request : ShadowRequest) (path : Path) : Prop where
  reached : path ∈ paths request
  other : path ≠ request.document.normalize

/-- Holds of the stores whose live state a shadow can show. -/
structure IsMirrorable (request : ShadowRequest) (number : Nat) (base : FileStore) : Prop where
  tree : base.IsTree
  temporary : base.entry? (directory number).parent = some .directory
  /-- The directory of the shadow is a new one. -/
  fresh : base.entry? (directory number) = none
  /-- No other file leads into it. -/
  unnamed : ∀ path, IsOther request path → ¬ (directory number).isAncestorOf (base.resolve path)
  single : ∀ path ∈ paths request, path.anchor = .root
  home : base.isDirectory request.document.normalize.parent
  readable : ∀ path, IsOther request path → base.has path → ∃ content, base.read path = .ok content
  /-- Where files are linked, the links on the way to them leave room for one more. -/
  short : base.links = .allowed → ∀ path, IsOther request path → base.has path →
    base.follow (FileStore.linkLimit - 1) ⟨path.anchor, []⟩ path.parts = base.resolve path

/-- What stands in a shadow for a file. -/
inductive IsCounterpart (request : ShadowRequest) (base : FileStore) : Path → FileEntry → Prop where
  | document : IsCounterpart request base request.document.normalize
      (.file (Text.utf8 (withTrailingBlankLine request.text).toList))
  | unsaved {path : Path} {text : String} (other : path ≠ request.document.normalize)
      (there : base.has path) (given : request.unsaved path = .ok (some text)) :
      IsCounterpart request base path (.file (Text.utf8 text.toList))
  | linked {path : Path} (other : path ≠ request.document.normalize) (there : base.has path)
      (saved : request.unsaved path = .ok none) (allowed : base.links = .allowed) :
      IsCounterpart request base path (.link path)
  | copied {path : Path} {content : List UInt8} (other : path ≠ request.document.normalize)
      (there : base.has path) (saved : request.unsaved path = .ok none)
      (refused : base.links = .refused) (readable : base.read path = .ok content) :
      IsCounterpart request base path (.file content)

/-- A store while a shadow is filled, with the store from before and the files that were handled:
these have their counterparts, and nothing else is in the shadow but directories that stand for
directories. -/
structure IsFilled (request : ShadowRequest) (root common : Path) (base : FileStore)
    (handled : List Path) (store : FileStore) : Prop where
  policy : store.links = base.links
  tree : store.IsTree
  outside : ∀ path, ¬ root.isAncestorOf path → store.entry? path = base.entry? path
  kept : ∀ own entry, common.descend own ∈ handled →
    IsCounterpart request base (common.descend own) entry →
    store.entry? (root.descend own) = some entry
  only : ∀ own entry, store.entry? (root.descend own) = some entry →
    (entry = .directory ∧ base.isDirectory (common.descend own)) ∨
      common.descend own ∈ handled ∧ IsCounterpart request base (common.descend own) entry

/-- A path has at most one counterpart. -/
theorem IsCounterpart.unique {other : FileEntry} (first : IsCounterpart request base path entry)
    (second : IsCounterpart request base path other) : entry = other := by
  cases first with
  | document =>
      cases second with
      | document => rfl
      | unsaved apart | linked apart | copied apart => exact absurd rfl apart
  | unsaved apart there given =>
      cases second with
      | document => exact absurd rfl apart
      | unsaved _ _ given' =>
          obtain rfl := Option.some.inj (Except.ok.inj (given.symm.trans given'))
          rfl
      | linked _ _ saved | copied _ _ saved => cases given.symm.trans saved
  | linked apart there saved allowed =>
      cases second with
      | document => exact absurd rfl apart
      | unsaved _ _ given => cases given.symm.trans saved
      | linked => rfl
      | copied _ _ _ refused => cases allowed.symm.trans refused
  | copied apart there saved refused readable =>
      cases second with
      | document => exact absurd rfl apart
      | unsaved _ _ given => cases given.symm.trans saved
      | linked _ _ _ allowed => cases allowed.symm.trans refused
      | copied _ _ _ _ readable' =>
          obtain rfl := Except.ok.inj (readable.symm.trans readable')
          rfl

/-- Besides the document only what exists has a counterpart. -/
theorem IsCounterpart.has (counts : IsCounterpart request base path entry)
    (other : path ≠ request.document.normalize) : base.has path := by
  cases counts with
  | document => exact absurd rfl other
  | unsaved _ there | linked _ there | copied _ there => exact there

namespace IsMirrorable

variable (mirrorable : IsMirrorable request number base)

include mirrorable

/-- Everything above the fresh directory is a directory of the original store. -/
theorem above (higher : path.isAncestorOf (directory number)) (strict : path ≠ directory number) :
    base.entry? path = some .directory :=
  mirrorable.tree.entry?_above_parent mirrorable.temporary higher strict

/-- Nothing stood below the fresh directory. -/
theorem empty (inside : (directory number).isAncestorOf path) : base.entry? path = none := by
  obtain ⟨own, rfl⟩ := Path.isAncestorOf_iff.mp inside
  by_cases root : own = []
  · rw [root, Path.descend_nil, mirrorable.fresh]
  · exact mirrorable.tree.entry?_below (by simp [mirrorable.fresh]) root

/-- No other file of a request is a directory. -/
theorem not_isDirectory (other : IsOther request path) : ¬ base.isDirectory path := by
  intro folder
  rw [FileStore.isDirectory, decide_eq_true_eq] at folder
  have there : base.has path := by
    rw [FileStore.has, folder]
  obtain ⟨content, readable⟩ := mirrorable.readable path other there
  rw [FileStore.read_eq_ok_iff, folder] at readable
  cases readable

/-- What is between the common directory and a file that exists are directories. -/
theorem isDirectory_of_has {own start : List String} (there : base.has (common.descend own))
    (shorter : start <+: own) (strict : start ≠ own) : base.isDirectory (common.descend start) :=
  mirrorable.tree.isDirectory_of_lookup? (FileStore.has_iff.mp there).1
    ((Path.descend_isAncestorOf_iff common).mpr shorter)
    fun same => strict (Path.descend_inj.mp same)

/-- In a store that changed in the shadow only the other files are seen as before. -/
theorem sees (same : ∀ path, ¬ (directory number).isAncestorOf path →
      after.entry? path = base.entry? path) (other : IsOther request path) :
    after.resolve path = base.resolve path ∧ after.lookup? path = base.lookup? path := by
  have apart := mirrorable.unnamed path other
  have leads : after.resolve path = base.resolve path :=
    FileStore.follow_of_outside same (fun _ => mirrorable.empty) apart
  exact ⟨leads, by rw [FileStore.lookup?, leads, same _ apart, FileStore.lookup?]⟩

/-- Whether another file of a request exists is the same in any store that agrees outside the
shadow. -/
theorem has_eq (same : ∀ path, ¬ (directory number).isAncestorOf path →
      after.entry? path = base.entry? path) (other : IsOther request path) :
    after.has path = base.has path := by
  rw [FileStore.has, (mirrorable.sees same other).2, FileStore.has]

/-- The common ancestor of a request is a directory. -/
theorem isDirectory_common : base.isDirectory (extent request).1 := by
  have document := document_mem_paths request
  exact mirrorable.tree.isDirectory_above mirrorable.home
    ((extent_isAncestorOf_iff document).mpr (mirrorable.single _ document))

/-- What a shadow is made for lies below the common directory as its place below the root. -/
theorem exists_own (reached : path ∈ paths request) :
    ∃ own, path = (extent request).1.descend own ∧
      place (directory number) (extent request).1 path = .ok ((directory number).descend own) := by
  obtain ⟨_, _, _, placed⟩ := place_eq (directory number) reached (mirrorable.single path reached)
  obtain ⟨own, pathEq, foundEq⟩ := place_eq_ok placed
  exact ⟨own, pathEq, foundEq ▸ placed⟩

end IsMirrorable

namespace IsFilled

variable (mirrorable : IsMirrorable request number base)
  (filled : IsFilled request (directory number) common base handled store)

include mirrorable filled

/-- Everything above the fresh directory stays a directory while it is filled. -/
theorem above (higher : path.isAncestorOf (directory number)) (strict : path ≠ directory number) :
    store.entry? path = some .directory := by
  rw [filled.outside, mirrorable.above higher strict]
  exact fun lower => strict (Path.isAncestorOf_antisymm higher lower)

/-- The top of the tree stays a directory while the shadow is filled. -/
theorem top : store.entry? ⟨(directory number).anchor, []⟩ = some .directory :=
  filled.above mirrorable (Path.isAncestorOf_iff.mpr ⟨(directory number).parts, rfl⟩)
    (by simp [directory])

/-- Files that were handled do not stand in the way of others. -/
theorem isClear (others : ∀ path ∈ handled, IsOther request path)
    (new : common.descend own ∉ handled)
    (folders : ∀ start, start <+: own → start ≠ own → base.isDirectory (common.descend start)) :
    store.IsClear ((directory number).descend own) := by
  -- a counterpart on the way would stand for a directory, and the other files are none
  have inside (start : List String) (shorter : start <+: own) :
      store.entry? ((directory number).descend start) = none ∨
        store.entry? ((directory number).descend start) = some .directory := by
    cases there : store.entry? ((directory number).descend start) with
    | none => exact Or.inl rfl
    | some entry =>
        rcases filled.only start entry there with ⟨rfl, -⟩ | ⟨member, -⟩
        · exact Or.inr rfl
        · have strict : start ≠ own := by
            rintro rfl
            exact new member
          exact absurd (folders start shorter strict)
            (mirrorable.not_isDirectory (others _ member))
  intro above higher
  rcases Path.isAncestorOf_descend_iff.mp higher with rooted | ⟨start, shorter, rfl⟩
  · by_cases same : above = directory number
    · simpa [same] using inside [] List.nil_prefix
    · exact Or.inr (filled.above mirrorable rooted same)
  · exact inside start shorter

omit mirrorable in
/-- The place of a file that was not handled yet is free. -/
theorem free (new : common.descend own ∉ handled)
    (file : ¬ base.isDirectory (common.descend own)) :
    store.entry? ((directory number).descend own) = none := by
  by_contra there
  obtain ⟨entry, there⟩ := Option.ne_none_iff_exists'.mp there
  rcases filled.only own entry there with ⟨-, folder⟩ | ⟨member, -⟩
  · exact file folder
  · exact new member

/-- The counterpart of one more file is added below directories that stand for directories. -/
theorem gain (others : ∀ path ∈ handled, IsOther request path)
    (new : common.descend own ∉ handled)
    (free : store.entry? ((directory number).descend own) = none)
    (folders : ∀ start, start <+: own → start ≠ own → base.isDirectory (common.descend start))
    (counterpart : IsCounterpart request base (common.descend own) entry)
    (gains : store.Gains after ((directory number).descend own) entry) :
    IsFilled request (directory number) common base (handled ++ [common.descend own]) after := by
  refine ⟨gains.policy.trans filled.policy, gains.isTree filled.tree free, fun path outside => ?_,
    fun other found member counts => ?_, fun other found there => ?_⟩
  · rw [gains.entry?_outside (fun path => filled.above mirrorable) outside,
      filled.outside path outside]
  · -- an older counterpart is not above the new one, so no directory is made over it
    rcases List.mem_append.mp member with old | last
    · have apart : ¬ ((directory number).descend other).isAncestorOf
          ((directory number).descend own) := by
        rw [Path.descend_isAncestorOf_iff]
        intro shorter
        have strict : other ≠ own := by
          rintro rfl
          exact new old
        exact mirrorable.not_isDirectory (others _ old) (folders other shorter strict)
      rw [gains.entry?_of_not_above apart, filled.kept other found old counts]
    · obtain rfl := Path.descend_inj.mp (List.mem_singleton.mp last)
      rw [gains.entry?_place, counterpart.unique counts]
  · rw [gains.entries] at there
    split at there
    · next same =>
        obtain rfl := Path.descend_inj.mp same
        obtain rfl := Option.some.inj there
        exact Or.inr ⟨by simp, counterpart⟩
    · next strict =>
        split at there
        · next higher =>
            have shorter := (Path.descend_isAncestorOf_iff _).mp higher
            exact Or.inl ⟨(Option.some.inj there).symm,
              folders other shorter fun same => strict (by rw [same])⟩
        · rcases filled.only other found there with folder | ⟨member, counts⟩
          · exact Or.inl folder
          · exact Or.inr ⟨List.mem_append_left _ member, counts⟩

/-- With the directories made for its place a file is read as before. -/
theorem reads {next : FileStore} (named : own ≠ [])
    (made : store.Gains next ((directory number).descend own).parent .directory)
    (other : IsOther request path) :
    next.read path = base.read path ∧ next.resolve path ≠ (directory number).descend own := by
  rw [Path.parent_descend _ named] at made
  have same (path : Path) (outside : ¬ (directory number).isAncestorOf path) :
      next.entry? path = base.entry? path := by
    rw [made.entry?_outside (fun path => filled.above mirrorable) outside,
      filled.outside path outside]
  obtain ⟨leads, there⟩ := mirrorable.sees same other
  refine ⟨by rw [FileStore.read, there, FileStore.read], fun same => ?_⟩
  refine mirrorable.unnamed path other ?_
  rw [← leads, same]
  exact Path.isAncestorOf_descend _ own

/-- One more file gets its counterpart, if it exists. -/
theorem layOut (others : ∀ path ∈ handled, IsOther request path)
    (new : common.descend own ∉ handled) (other : IsOther request (common.descend own))
    (named : own ≠ []) {text : Option String}
    (known : request.unsaved (common.descend own) = .ok text) :
    ∃ after, layOut store (common.descend own) ((directory number).descend own) text = .ok after ∧
      IsFilled request (directory number) common base (handled ++ [common.descend own]) after := by
  unfold Shadow.layOut
  rw [mirrorable.has_eq filled.outside other]
  by_cases there : base.has (common.descend own)
  · have folders (start : List String) (shorter : start <+: own) (strict : start ≠ own) :=
      mirrorable.isDirectory_of_has there shorter strict
    have clear := filled.isClear mirrorable others new folders
    have free := filled.free new (mirrorable.not_isDirectory other)
    rw [there]
    cases text with
    | some text =>
        obtain ⟨after, written, gains⟩ :=
          writeText_of_clear clear (filled.top mirrorable) free text
        have counts := IsCounterpart.unsaved other.other there known
        exact ⟨after, written, filled.gain mirrorable others new free folders counts gains⟩
    | none =>
        obtain ⟨content, readable⟩ := mirrorable.readable _ other there
        obtain ⟨after, made, ⟨allowed, gains⟩ | ⟨refused, gains⟩⟩ :=
          linkOrCopy_of_clear clear (filled.top mirrorable) free fun next made =>
            (filled.reads mirrorable named made other).imp_left (·.trans readable)
        · have counts := IsCounterpart.linked other.other there known
            (filled.policy.symm.trans allowed)
          exact ⟨after, made, filled.gain mirrorable others new free folders counts gains⟩
        · have counts := IsCounterpart.copied other.other there known
            (filled.policy.symm.trans refused) readable
          exact ⟨after, made, filled.gain mirrorable others new free folders counts gains⟩
  · rw [Bool.not_eq_true] at there
    rw [there]
    refine ⟨store, rfl, filled.policy, filled.tree, filled.outside,
      fun inner found member counts => ?_, fun inner found inside => ?_⟩
    · rcases List.mem_append.mp member with old | last
      · exact filled.kept inner found old counts
      · rw [List.mem_singleton.mp last] at counts
        exact absurd (counts.has other.other) (by simp [there])
    · exact (filled.only inner found inside).imp_right
        fun ⟨member, counts⟩ => ⟨List.mem_append_left _ member, counts⟩

end IsFilled

end Shadow

end ModelAssist
