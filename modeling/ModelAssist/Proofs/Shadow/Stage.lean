import Mathlib.Data.List.Basic
import ModelAssist.Proofs.FileStore.Tree
import ModelAssist.Proofs.Shadow.Place

/-!
# The store while a shadow is made

A shadow links a reached directory as a whole, so a place below such a link is covered by it: it
leads to the original (`Shadow.IsStage.resolve_place`).  While files get their counterparts, all
links stand in the shadow, and outside it only texts below linked directories change
(`Shadow.IsStage.layOut_eq_ok`).
-/

namespace ModelAssist

/-- Holds of the stores in which directories stand above everything and no links are. -/
structure FileStore.IsRegular (store : FileStore) : Prop where
  unlinked : ∀ path, store.Unlinked path
  above : ∀ {path other : Path}, other.isAncestorOf path → other ≠ path →
    store.entry? path ≠ none → store.entry? other = some .directory

/-- A regular store is a tree. -/
theorem FileStore.IsRegular.isTree {store : FileStore} (regular : store.IsRegular) : store.IsTree :=
  fun _ _ => regular.above

/-- A tree is regular if its entries are no links and directories stand above each of them. -/
theorem FileStore.isRegular_of_entries {store : FileStore}
    (links : ∀ entry ∈ store.entries.entries, ∀ target, entry.2 ≠ .link target)
    (directories : ∀ entry ∈ store.entries.entries, ∀ count < entry.1.parts.length,
      store.entry? ⟨entry.1.anchor, entry.1.parts.take count⟩ = some .directory) :
    store.IsRegular := by
  constructor
  · exact FileStore.unlinked_of_entries links
  · intro path other higher strict present
    obtain ⟨entry, there⟩ := Option.ne_none_iff_exists'.mp present
    obtain ⟨rest, rfl⟩ := Path.isAncestorOf_iff.mp higher
    have below : rest ≠ [] := by
      rintro rfl
      exact strict (Path.descend_nil other).symm
    have shorter : other.parts.length < (other.descend rest).parts.length := by
      have := List.length_pos_of_ne_nil below
      rw [Path.descend, List.length_append]
      omega
    simpa [Path.descend] using directories _ (OrderedMap.mem_entries_of_get? there) _ shorter

namespace Shadow

variable {request : ShadowRequest} {root common : Path} {base store after : FileStore}

/-- Holds of the reached files and directories that a shadow links. -/
structure IsLinked [Host] (request : ShadowRequest) (store : FileStore) (path : Path) : Prop where
  allowed : store.links = .allowed
  named : path.parts ≠ []
  reached : path ∈ paths request
  other : path ≠ request.document.normalize
  saved : request.unsaved path = .ok none
  present : store.entry? path ≠ none

/-- Holds of the paths below a directory that a shadow links. -/
def IsExposed [Host] (request : ShadowRequest) (store : FileStore) (path : Path) : Prop :=
  ∃ directory, IsLinked request store directory ∧ store.entry? directory = some .directory ∧
    directory.isAncestorOf path ∧ directory ≠ path

/-- What a shadow puts in the place of an entry outside it. -/
inductive Spoils [Host] (request : ShadowRequest) (store : FileStore) :
    Path → FileEntry → Prop where
  | overlay {path : Path} {text : String} {content : List UInt8}
      (exposed : IsExposed request store path) (reached : path ∈ paths request)
      (other : path ≠ request.document.normalize)
      (unsaved : request.unsaved path = .ok (some text))
      (file : store.entry? path = some (.file content)) :
      Spoils request store path (.file (Text.utf8 text.toList))
  | document (exposed : IsExposed request store request.document.normalize) :
      Spoils request store request.document.normalize
        (.file (Text.utf8 (withTrailingBlankLine request.text).toList))
  | above {path : Path} (exposed : IsExposed request store request.document.normalize)
      (higher : path.isAncestorOf request.document.normalize)
      (other : path ≠ request.document.normalize) (missing : store.entry? path = none) :
      Spoils request store path .directory

/-- A store while a shadow is made, with the store from before: all links are in the shadow, and
outside it at most texts of files changed. -/
structure IsStage [Host] (request : ShadowRequest) (root common : Path) (base store : FileStore) :
    Prop where
  named : root.parts ≠ []
  policy : store.links = base.links
  above : ∀ path : Path, path.isAncestorOf root → store.entry? path = some .directory
  linked : ∀ path target, store.entry? path = some (.link target) →
    ∃ own, path = root.descend own ∧ target = common.descend own ∧ IsLinked request base target
  outside : ∀ path, ¬ root.isAncestorOf path →
    store.entry? path = base.entry? path ∨
      ∃ old new, base.entry? path = some (.file old) ∧ store.entry? path = some (.file new) ∧
        path ≠ request.document.normalize ∧ Spoils request base path (.file new)

/-- Holds of the components below the root of a shadow that run through a link. -/
def IsCovered (root : Path) (store : FileStore) (own : List String) : Prop :=
  ∃ start target, start <+: own ∧ store.entry? (root.descend start) = some (.link target)

/-- Components that run through a link do so with further ones below them. -/
theorem IsCovered.mono {start own : List String} (covered : IsCovered root store start)
    (shorter : start <+: own) : IsCovered root store own := by
  obtain ⟨first, target, within, linked⟩ := covered
  exact ⟨first, target, within.trans shorter, linked⟩

variable [Host]

/-- What becomes of an entry when the file that lies some components below the common directory
gets its counterpart, perhaps with an unsaved text. -/
inductive Change (request : ShadowRequest) (root common : Path) (base store : FileStore)
    (own : List String) (text : Option String) : Path → Option FileEntry → Prop where
  | kept (path : Path) : Change request root common base store own text path (store.entry? path)
  | made {path : Path} (missing : store.entry? path = none)
      (within : root.isAncestorOf path ∨
        IsExposed request base (common.descend own) ∧
          path.isAncestorOf (common.descend own) ∧ path ≠ common.descend own) :
      Change request root common base store own text path (some .directory)
  | written {content : List UInt8}
      (free : store.entry? (root.descend own) ≠ some .directory)
      (unlinked : store.Unlinked (root.descend own)) :
      Change request root common base store own text (root.descend own) (some (.file content))
  /-- The text goes through the link of a directory. -/
  | passed {new : String} (exposed : IsExposed request base (common.descend own))
      (free : store.entry? (common.descend own) ≠ some .directory)
      (readable : store.entry? (common.descend own) ≠ some .sealed)
      (unsaved : text = some new) :
      Change request root common base store own text (common.descend own)
        (some (.file (Text.utf8 new.toList)))
  | linked (source : IsLinked request base (common.descend own))
      (missing : store.entry? (root.descend own) = none) :
      Change request root common base store own text (root.descend own)
        (some (.link (common.descend own)))

/-- Outside a shadow entries change only through links of directories. -/
theorem Change.outside {own : List String} {text : Option String} {path : Path}
    {entry : Option FileEntry} (changed : Change request root common base store own text path entry)
    (outside : ¬ root.isAncestorOf path) :
    entry = store.entry? path ∨
      (store.entry? path = none ∧ entry = some .directory ∧
        IsExposed request base (common.descend own) ∧ path.isAncestorOf (common.descend own) ∧
        path ≠ common.descend own) ∨
      (path = common.descend own ∧ IsExposed request base path ∧
        store.entry? path ≠ some .directory ∧ store.entry? path ≠ some .sealed ∧
        ∃ new, text = some new ∧ entry = some (.file (Text.utf8 new.toList))) := by
  cases changed with
  | kept => exact Or.inl rfl
  | made missing within =>
      exact Or.inr (Or.inl ⟨missing, rfl, within.resolve_left outside⟩)
  | written => exact absurd (Path.isAncestorOf_descend _ own) outside
  | passed exposed free readable unsaved =>
      exact Or.inr (Or.inr ⟨rfl, exposed, free, readable, _, unsaved, rfl⟩)
  | linked => exact absurd (Path.isAncestorOf_descend _ own) outside

namespace IsStage

/-- Outside of the shadow no link is on the way at any stage. -/
theorem unlinked (stage : IsStage request root common base store) {path : Path}
    (outside : ¬ root.isAncestorOf path) : store.Unlinked path := by
  intro target linked
  obtain ⟨own, rfl, -⟩ := stage.linked path target linked
  exact outside (Path.isAncestorOf_descend _ own)

/-- No link is on the way to the shadow. -/
theorem unlinked_above (stage : IsStage request root common base store) {path : Path}
    (higher : path.isAncestorOf root) : store.Unlinked path := by
  intro target linked
  rw [stage.above path higher] at linked
  cases linked

/-- Outside a shadow paths lead to themselves. -/
theorem resolve_outside (stage : IsStage request root common base store) {path : Path}
    (outside : ¬ root.isAncestorOf path) : store.resolve path = path :=
  FileStore.resolve_of_unlinked fun _ higher =>
    stage.unlinked fun below => outside (Path.isAncestorOf_trans below higher)

/-- Paths above the shadow resolve to themselves at every stage. -/
theorem resolve_above (stage : IsStage request root common base store) {path : Path}
    (higher : path.isAncestorOf root) : store.resolve path = path :=
  FileStore.resolve_of_unlinked fun _ further =>
    stage.unlinked_above (Path.isAncestorOf_trans further higher)

/-- Outside of the shadow a stage has an entry exactly where the original store has one. -/
theorem entry?_eq_none_iff (stage : IsStage request root common base store) {path : Path}
    (outside : ¬ root.isAncestorOf path) :
    store.entry? path = none ↔ base.entry? path = none := by
  rcases stage.outside path outside with same | ⟨old, new, before, now, -⟩
  · rw [same]
  · simp [before, now]

/-- Outside of the shadow a stage has directories exactly where the original store has them. -/
theorem entry?_eq_directory_iff (stage : IsStage request root common base store) {path : Path}
    (outside : ¬ root.isAncestorOf path) :
    store.entry? path = some .directory ↔ base.entry? path = some .directory := by
  rcases stage.outside path outside with same | ⟨old, new, before, now, -⟩
  · rw [same]
  · simp [before, now]

/-- Below the root of a shadow a path leads on inside until its first link, and from there on to
what it stands for. -/
theorem follow_place (stage : IsStage request root common base store) (rest : List String)
    {walked : List String}
    (clear : ¬ IsCovered root store walked)
    (outside : ¬ root.isAncestorOf (common.descend (walked ++ rest))) :
    ¬ IsCovered root store (walked ++ rest) ∧
        store.follow FileStore.linkLimit (root.descend walked) rest =
          root.descend (walked ++ rest) ∨
      IsCovered root store (walked ++ rest) ∧
        store.follow FileStore.linkLimit (root.descend walked) rest =
          common.descend (walked ++ rest) := by
  -- what was walked so far is free of links, so it lies in the shadow
  induction rest generalizing walked with
  | nil =>
      rw [FileStore.follow_nil, List.append_nil]
      exact Or.inl ⟨clear, rfl⟩
  | cons part rest ih =>
      have split : walked ++ part :: rest = walked ++ [part] ++ rest := by simp
      rw [split] at outside ⊢
      by_cases first : ∃ target, store.entry? ((root.descend walked).child part) =
          some (.link target)
      · obtain ⟨target, linked⟩ := first
        have covered : IsCovered root store (walked ++ [part]) :=
          ⟨_, target, List.prefix_rfl, by rwa [Path.child_eq, Path.descend_descend] at linked⟩
        refine Or.inr ⟨covered.mono (List.prefix_append _ rest), ?_⟩
        obtain ⟨own, place, rfl, -⟩ := stage.linked _ _ linked
        rw [Path.child_eq, Path.descend_descend] at place
        obtain rfl := Path.descend_inj.mp place
        -- the link leads outside, where no further one is on the way
        have leads := store.follow_of_unlinked (FileStore.linkLimit - 1)
          (common.descend (walked ++ [part] ++ rest))
          fun above higher => stage.unlinked
            fun below => outside (Path.isAncestorOf_trans below higher)
        rw [FileStore.linkLimit, FileStore.follow_link 39 rest linked]
        simpa [Path.descend, FileStore.linkLimit] using leads
      · have unlinked : store.Unlinked ((root.descend walked).child part) :=
          fun target linked => first ⟨target, linked⟩
        rw [FileStore.follow_child _ rest unlinked, Path.child_eq, Path.descend_descend]
        refine ih ?_ outside
        rintro ⟨start, target, shorter, linked⟩
        rcases List.prefix_concat_iff.mp shorter with rfl | shorter
        · rw [Path.child_eq, Path.descend_descend] at unlinked
          exact unlinked target linked
        · exact clear ⟨start, target, shorter, linked⟩

/-- No link is on the way to a place whose path has none in the original store. -/
theorem unlinked_place (stage : IsStage request root common base store) {own : List String}
    (unlinked : ¬ IsLinked request base (common.descend own)) :
    store.Unlinked (root.descend own) := by
  intro target linked
  obtain ⟨first, place, rfl, source⟩ := stage.linked _ _ linked
  obtain rfl := Path.descend_inj.mp place
  exact unlinked source

/-- Whatever is missing above a place is missing in the shadow. -/
theorem inside_of_missing (stage : IsStage request root common base store) {own : List String}
    {path : Path} (missing : store.entry? path = none)
    (higher : path.isAncestorOf (root.descend own)) : root.isAncestorOf path := by
  rcases Path.isAncestorOf_descend_iff.mp higher with rooted | ⟨start, -, rfl⟩
  · rw [stage.above path rooted] at missing
    cases missing
  · exact Path.isAncestorOf_descend _ start

/-- A directory made for a place is made in the shadow, or outside it above what a link covers. -/
theorem made_within (stage : IsStage request root common base store) {own : List String}
    {path place : Path}
    (leads : ¬ IsCovered root store own ∧ place = root.descend own ∨
      IsCovered root store own ∧ place = common.descend own)
    (missing : store.entry? path = none)
    (way : (root.isAncestorOf path ∨
      IsCovered root store own ∧ path.isAncestorOf (common.descend own)) ∨
      path.isAncestorOf place) :
    root.isAncestorOf path ∨
      IsCovered root store own ∧ place = common.descend own ∧
        path.isAncestorOf (common.descend own) := by
  rcases leads with ⟨uncovered, rfl⟩ | ⟨covered, rfl⟩
  · rcases way with (inside | ⟨covered, -⟩) | higher
    · exact Or.inl inside
    · exact absurd covered uncovered
    · exact Or.inl (stage.inside_of_missing missing higher)
  · rcases way with (inside | ⟨-, higher⟩) | higher
    · exact Or.inl inside
    · exact Or.inr ⟨covered, rfl, higher⟩
    · exact Or.inr ⟨covered, rfl, higher⟩

section

variable {own : List String} (stage : IsStage request root common base store)
  (outside : ¬ root.isAncestorOf (common.descend own))

include stage outside

/-- A place in a shadow that no link covers leads to itself, and a covered one to what it stands
for. -/
theorem resolve_place :
    ¬ IsCovered root store own ∧ store.resolve (root.descend own) = root.descend own ∨
      IsCovered root store own ∧ store.resolve (root.descend own) = common.descend own := by
  have clear : ¬ IsCovered root store [] := by
    rintro ⟨start, target, empty, linked⟩
    rw [List.prefix_nil.mp empty, Path.descend_nil] at linked
    exact stage.unlinked_above (Path.isAncestorOf_refl _) target linked
  have walk := store.follow_append FileStore.linkLimit ⟨root.anchor, []⟩ root.parts own
    fun start _ shorter => stage.unlinked_above ((Path.descend_isAncestorOf_iff _).mpr shorter)
  have reached := stage.follow_place own clear outside
  rw [Path.descend_nil, List.nil_append] at reached
  rw [FileStore.resolve]
  exact walk ▸ reached

/-- The directories made for a place are in the shadow, unless links cover the place. -/
theorem makeDirectories_place
    (made : store.makeDirectories (root.descend own).parent = .ok after) :
    store.Extends after fun path => root.isAncestorOf path ∨
      IsCovered root store own ∧ path.isAncestorOf (common.descend own) := by
  obtain ⟨extended, -⟩ := FileStore.makeDirectories_eq_ok made
  refine ⟨extended.policy, fun path => (extended.entries path).imp_right ?_⟩
  rintro ⟨missing, new, above, higher, leads⟩
  refine ⟨missing, new, ?_⟩
  have higher := Path.isAncestorOf_trans higher (Path.parent_isAncestorOf _)
  rcases Path.isAncestorOf_descend_iff.mp higher with rooted | ⟨start, shorter, rfl⟩
  · rw [stage.resolve_above rooted] at leads
    rw [stage.above path (Path.isAncestorOf_trans leads rooted)] at missing
    cases missing
  · have within := (Path.descend_isAncestorOf_iff common).mpr shorter
    rcases stage.resolve_place fun below => outside (Path.isAncestorOf_trans below within) with
      ⟨-, place⟩ | ⟨covered, place⟩
    · rw [place] at leads
      exact Or.inl (stage.inside_of_missing missing leads)
    · rw [place] at leads
      exact Or.inr ⟨covered.mono shorter, Path.isAncestorOf_trans leads within⟩

/-- A covered place stands for what lies below a linked directory, if directories lead down to
it and it is no link itself. -/
theorem exposed_of_covered (covered : IsCovered root store own)
    (unlinked : store.Unlinked (root.descend own))
    (made : store.makeDirectories (root.descend own).parent = .ok after) :
    IsExposed request base (common.descend own) := by
  obtain ⟨start, target, shorter, linked⟩ := covered
  obtain ⟨first, place, rfl, source⟩ := stage.linked _ _ linked
  obtain rfl := Path.descend_inj.mp place
  have strict : start ≠ own := by
    rintro rfl
    exact unlinked _ linked
  have apart (above : Path) : above.descend start ≠ above.descend own :=
    fun same => strict (Path.descend_inj.mp same)
  have within := (Path.descend_isAncestorOf_iff common).mpr shorter
  have outsideStart : ¬ root.isAncestorOf (common.descend start) :=
    fun below => outside (Path.isAncestorOf_trans below within)
  refine ⟨_, source, ?_, within, apart _⟩
  have resolved : store.resolve (root.descend start) = common.descend start := by
    rcases stage.resolve_place outsideStart with ⟨uncovered, -⟩ | ⟨-, leads⟩
    · exact absurd ⟨start, _, List.prefix_rfl, linked⟩ uncovered
    · exact leads
  -- a link to a file would have been in the way of the directories
  have way := (FileStore.makeDirectories_eq_ok made).2 (root.descend start)
    (Path.isAncestorOf_parent ((Path.descend_isAncestorOf_iff _).mpr shorter) (apart _))
    fun rootless => stage.named (List.append_eq_nil_iff.mp rootless).1
  rw [FileStore.lookup?, resolved, stage.entry?_eq_none_iff outsideStart,
    stage.entry?_eq_directory_iff outsideStart] at way
  exact way.resolve_left source.present

/-- Writing an unsaved text changes its own place and creates what leads to it. -/
theorem writeText_eq_ok {text : String}
    (unlinked : ¬ IsLinked request base (common.descend own))
    (written : writeText store (root.descend own) text = .ok after) :
    after.links = store.links ∧
      (∀ path, Change request root common base store own (some text) path (after.entry? path)) ∧
      (IsCovered root store own →
        after.entry? (common.descend own) = some (.file (Text.utf8 text.toList)) ∧
        ∀ path : Path, path.isAncestorOf (common.descend own) → after.entry? path ≠ none) := by
  simp only [writeText, bind, Except.bind] at written
  split at written
  · cases written
  · next next made =>
      have extended := stage.makeDirectories_place outside made
      obtain ⟨rfl, free, readable⟩ := FileStore.write_eq_ok written
      rw [extended.resolve_eq] at free readable ⊢
      have unlinkedPlace := stage.unlinked_place unlinked
      have exposed covered := stage.exposed_of_covered outside covered unlinkedPlace made
      have leads := stage.resolve_place outside
      generalize store.resolve (root.descend own) = place at free readable leads ⊢
      have free : store.entry? place ≠ some .directory := fun there =>
        free (extended.entry?_of_some there)
      have readable : store.entry? place ≠ some .sealed := fun there =>
        readable (extended.entry?_of_some there)
      refine ⟨extended.policy, fun path => ?_, fun covered => ⟨?_, fun path higher => ?_⟩⟩
      · by_cases same : path = place
        · rw [FileStore.entry?_put, if_pos same, same]
          -- behind a link the text goes to the file that the place stands for
          rcases leads with ⟨-, rfl⟩ | ⟨covered, rfl⟩
          · exact .written free unlinkedPlace
          · exact .passed (exposed covered) free readable rfl
        · rcases extended.entry?_put_of_ne (.file (Text.utf8 text.toList)) same with
            kept | ⟨missing, new, way⟩
          · rw [kept]
            exact .kept path
          · rw [new]
            refine .made missing ?_
            refine (stage.made_within leads missing way).imp_right ?_
            rintro ⟨covered, rfl, higher⟩
            exact ⟨exposed covered, higher, same⟩
      · obtain rfl := (leads.resolve_left fun uncovered => uncovered.1 covered).2
        rw [FileStore.entry?_put, if_pos rfl]
      · obtain rfl := (leads.resolve_left fun uncovered => uncovered.1 covered).2
        exact next.entry?_put_ne_none _ higher

/-- The place of a link is a place in the shadow, unless a link covers the directory above it. -/
theorem resolveParent_place :
    store.resolveParent (root.descend own) = root.descend own ∨
      store.resolveParent (root.descend own) = common.descend own := by
  rcases List.eq_nil_or_concat own with rfl | ⟨start, name, rfl⟩
  · left
    rw [Path.descend_nil, ← Path.parent_child_name stage.named, FileStore.resolveParent_child,
      stage.resolve_above (Path.parent_isAncestorOf _)]
  · have shorter := (Path.descend_isAncestorOf_iff common).mpr
      (List.prefix_append start [name])
    simp only [List.concat_eq_append] at outside ⊢
    rw [← Path.descend_descend, ← Path.child_eq, FileStore.resolveParent_child]
    rcases stage.resolve_place fun below => outside (Path.isAncestorOf_trans below shorter) with
      ⟨-, leads⟩ | ⟨-, leads⟩
    · exact Or.inl (by rw [leads])
    · exact Or.inr (by rw [leads, Path.child_eq, Path.descend_descend])

/-- For a file that is there nothing is made outside the shadow. -/
theorem made_inside {path : Path} (regular : base.IsRegular)
    (present : base.entry? (common.descend own) ≠ none)
    (missing : store.entry? path = none)
    (way : (root.isAncestorOf path ∨
      IsCovered root store own ∧ path.isAncestorOf (common.descend own)) ∨
      path.isAncestorOf (root.descend own)) :
    root.isAncestorOf path := by
  rcases way with (inside | ⟨-, higher⟩) | higher
  · exact inside
  · have outsidePath : ¬ root.isAncestorOf path :=
      fun below => outside (Path.isAncestorOf_trans below higher)
    rw [stage.entry?_eq_none_iff outsidePath] at missing
    by_cases same : path = common.descend own
    · exact absurd (same ▸ missing) present
    · rw [regular.above higher same present] at missing
      cases missing
  · exact stage.inside_of_missing missing higher

/-- An entry put at the place itself, with directories made for it, changes nothing else. -/
theorem change_put {next : FileStore} {text : Option String} {entry : FileEntry}
    (regular : base.IsRegular) (present : base.entry? (common.descend own) ≠ none)
    (extended : store.Extends next fun path => root.isAncestorOf path ∨
      IsCovered root store own ∧ path.isAncestorOf (common.descend own))
    (new : Change request root common base store own text (root.descend own) (some entry))
    (path : Path) :
    Change request root common base store own text path
      (FileStore.entry? (next.put (root.descend own) entry) path) := by
  by_cases same : path = root.descend own
  · rwa [FileStore.entry?_put, if_pos same, same]
  · rcases extended.entry?_put_of_ne entry same with kept | ⟨missing, new, way⟩
    · rw [kept]
      exact .kept path
    · rw [new]
      exact .made missing (Or.inl (stage.made_inside outside regular present missing way))

/-- Linking or copying a saved file changes its own place alone. -/
theorem linkOrCopy_eq_ok (regular : base.IsRegular)
    (present : base.entry? (common.descend own) ≠ none)
    (reached : common.descend own ∈ paths request)
    (other : common.descend own ≠ request.document.normalize)
    (saved : request.unsaved (common.descend own) = .ok none)
    (linked : linkOrCopy store (common.descend own) (root.descend own) = .ok after) :
    after.links = store.links ∧
      (∀ path, Change request root common base store own none path (after.entry? path)) ∧
      (base.links = .allowed → base.entry? (common.descend own) = some .directory →
        after.entry? (root.descend own) = some (.link (common.descend own))) := by
  simp only [linkOrCopy, bind, Except.bind] at linked
  split at linked
  · cases linked
  · next next made =>
      have extended := stage.makeDirectories_place outside made
      have change {entry : FileEntry} (new : Change request root common base store own none
          (root.descend own) (some entry)) := stage.change_put outside regular present extended new
      split at linked
      · next made =>
          obtain rfl := Except.ok.inj linked
          obtain ⟨allowed, missing, rfl⟩ := FileStore.makeLink?_eq_some made
          rw [extended.policy, stage.policy] at allowed
          rw [extended.resolveParent_eq] at missing ⊢
          have missing := extended.eq_none missing
          rcases stage.resolveParent_place outside with place | place
          · rw [place] at missing ⊢
            have named : (common.descend own).parts ≠ [] := by
              intro rooted
              obtain rfl : own = [] := (List.append_eq_nil_iff.mp rooted).2
              rw [Path.descend_nil, stage.above _ (Path.isAncestorOf_refl _)] at missing
              cases missing
            refine ⟨extended.policy, change (.linked ?_ missing), fun _ _ => ?_⟩
            · exact ⟨allowed, named, reached, other, saved, present⟩
            · rw [FileStore.entry?_put, if_pos rfl]
          · rw [place, stage.entry?_eq_none_iff outside] at missing
            exact absurd missing present
      · next refused =>
          -- a copy never goes through a link: it would be one of a file onto itself
          obtain ⟨content, file, apart, written⟩ := FileStore.copy_eq_ok linked
          obtain ⟨rfl, free, -⟩ := FileStore.write_eq_ok written
          rw [FileStore.lookup?, extended.resolve_eq, stage.resolve_outside outside] at file
          rw [extended.resolve_eq, extended.resolve_eq, stage.resolve_outside outside] at apart
          rw [extended.resolve_eq] at free ⊢
          obtain ⟨uncovered, place⟩ := (stage.resolve_place outside).resolve_right
            fun covered => apart covered.2.symm
          rw [place] at free ⊢
          refine ⟨extended.policy, change (.written ?_ ?_), fun _ there => ?_⟩
          · exact fun there => free (extended.entry?_of_some there)
          · exact fun target linked => uncovered ⟨own, target, List.prefix_rfl, linked⟩
          · rw [← stage.entry?_eq_directory_iff outside] at there
            rw [extended.entry?_of_some there] at file
            cases file

/-- A file whose place can be read again was a file of the original store. -/
theorem entry?_eq_file (free : store.entry? (common.descend own) ≠ some .directory)
    (readable : store.entry? (common.descend own) ≠ some .sealed)
    (present : base.entry? (common.descend own) ≠ none) :
    ∃ content, base.entry? (common.descend own) = some (.file content) := by
  rcases stage.outside _ outside with same | ⟨old, -, before, -⟩
  · have unlinked := stage.unlinked outside
    rw [same] at free readable
    rw [FileStore.Unlinked, same] at unlinked
    cases there : base.entry? (common.descend own) with
    | none => exact absurd there present
    | some entry =>
        cases entry with
        | file content => exact ⟨content, rfl⟩
        | sealed => exact absurd there readable
        | directory => exact absurd there free
        | link target => exact absurd there (unlinked target)
  · exact ⟨old, before⟩

/-- Counterparts of files that are there keep all links inside and change texts outside only. -/
theorem change {text : Option String} (regular : base.IsRegular)
    (reached : common.descend own ∈ paths request)
    (other : common.descend own ≠ request.document.normalize)
    (asked : request.unsaved (common.descend own) = .ok text)
    (present : base.entry? (common.descend own) ≠ none)
    (policy : after.links = store.links)
    (changes : ∀ path, Change request root common base store own text path (after.entry? path)) :
    IsStage request root common base after := by
  refine ⟨stage.named, policy.trans stage.policy, fun path higher => ?_,
    fun path target linked => ?_, fun path outsidePath => ?_⟩
  · have there := stage.above path higher
    have changed := changes path
    generalize after.entry? path = entry at changed ⊢
    cases changed with
    | kept => exact there
    | made => rfl
    | written free => exact absurd there free
    | passed _ free => exact absurd there free
    | linked _ missing => exact absurd there (by simp [missing])
  · have changed := changes path
    generalize entryEq : after.entry? path = entry at changed linked
    cases changed with
    | kept => exact stage.linked path target linked
    | made => cases linked
    | written => cases linked
    | passed => cases linked
    | linked source =>
        obtain rfl := FileEntry.link.inj (Option.some.inj linked)
        exact ⟨own, rfl, rfl, source⟩
  · rcases (changes path).outside outsidePath with
      kept | ⟨missing, -, -, higher, strict⟩ | ⟨rfl, exposed, free, readable, new, unsaved, now⟩
    · rw [kept]
      exact stage.outside path outsidePath
    · rw [stage.entry?_eq_none_iff outsidePath, regular.above higher strict present] at missing
      cases missing
    · obtain ⟨old, file⟩ := stage.entry?_eq_file outside free readable present
      have asked := asked.trans (congrArg Except.ok unsaved)
      exact Or.inr ⟨old, _, file, now, other, .overlay exposed reached other asked file⟩

/-- What is left when a file got its counterpart. -/
theorem layOut_eq_ok {text : Option String} (regular : base.IsRegular)
    (reached : common.descend own ∈ paths request)
    (other : common.descend own ≠ request.document.normalize)
    (asked : request.unsaved (common.descend own) = .ok text)
    (laid : layOut store (common.descend own) (root.descend own) text = .ok after) :
    IsStage request root common base after ∧
      (∀ path, Change request root common base store own text path (after.entry? path)) ∧
      (IsLinked request base (common.descend own) →
        base.entry? (common.descend own) = some .directory →
        after.entry? (root.descend own) =
          some (.link (common.descend own))) ∧
      (IsCovered root store own → base.entry? (common.descend own) ≠ none →
        ∀ new, text = some new →
          after.entry? (common.descend own) = some (.file (Text.utf8 new.toList))) := by
  have has : store.has (common.descend own) = true ↔
      base.entry? (common.descend own) ≠ none := by
    rw [FileStore.has_iff, FileStore.lookup?, stage.resolve_outside outside, ne_eq,
      stage.entry?_eq_none_iff outside]
    exact and_iff_left (stage.unlinked outside)
  unfold layOut at laid
  split at laid
  · next gone =>
      obtain rfl := Except.ok.inj laid
      have gone : ¬ base.entry? (common.descend own) ≠ none := by
        rw [← has]
        simpa using gone
      exact ⟨stage, fun path => .kept path, fun linked => absurd linked.present gone,
        fun _ present => absurd present gone⟩
  · next there =>
      have present := has.mp (by simpa using there)
      cases text with
      | some new =>
          have unlinked : ¬ IsLinked request base (common.descend own) := by
            intro linked
            rw [linked.saved] at asked
            cases asked
          obtain ⟨policy, changes, passed⟩ := stage.writeText_eq_ok outside unlinked laid
          refine ⟨stage.change outside regular reached other asked present policy changes, changes,
            fun linked => absurd linked unlinked, fun covered _ text same => ?_⟩
          rw [← Option.some.inj same]
          exact (passed covered).1
      | none =>
          obtain ⟨policy, changes, linked⟩ :=
            stage.linkOrCopy_eq_ok outside regular present reached other asked laid
          refine ⟨stage.change outside regular reached other asked present policy changes, changes,
            fun source => linked source.allowed, fun _ _ new same => ?_⟩
          cases same

end

end IsStage

end Shadow

end ModelAssist
