import ModelAssist.Proofs.Shadow.Filling
import ModelAssist.Proofs.Shadow.Stage

/-!
# What shadows change outside

Once every file of a request got its counterpart, the directories that a shadow links are links, and
all unsaved files below them are overwritten (`Shadow.IsDone`), as is a document below one.  So a
shadow spoils exactly these entries outside its own directory (`Shadow.entry?_enter_outside`).
-/

namespace ModelAssist

namespace Shadow

variable {request : ShadowRequest} {number : Nat} {root common : Path}
  {base store after : FileStore}

section

variable [Host]

/-- What is done when some files got their counterparts: linked directories are links, and exposed
files hold their unsaved texts. -/
structure IsDone (request : ShadowRequest) (root common : Path) (base store : FileStore)
    (handled : List Path) : Prop where
  linked : ∀ path ∈ handled, IsLinked request base path → base.entry? path = some .directory →
    ∃ own, path = common.descend own ∧ store.entry? (root.descend own) = some (.link path)
  written : ∀ path ∈ handled, ∀ text content, IsExposed request base path →
    request.unsaved path = .ok (some text) → base.entry? path = some (.file content) →
      store.entry? path = some (.file (Text.utf8 text.toList))

/-- What is done stays done. -/
theorem IsDone.change {handled : List Path} {own : List String} {text : Option String}
    (done : IsDone request root common base store handled)
    (outside : ¬ root.isAncestorOf (common.descend own))
    (outsideHandled : ∀ path ∈ handled, ¬ root.isAncestorOf path)
    (asked : request.unsaved (common.descend own) = .ok text)
    (changes : ∀ path, Change request root common base store own text path (after.entry? path)) :
    IsDone request root common base after handled := by
  refine ⟨fun path member source there => ?_,
    fun path member new content exposed unsaved file => ?_⟩
  · obtain ⟨first, rfl, linked⟩ := done.linked path member source there
    refine ⟨first, rfl, ?_⟩
    have changed := changes (root.descend first)
    generalize placeEq : root.descend first = place at changed linked ⊢
    generalize after.entry? place = entry at changed ⊢
    cases changed with
    | kept => exact linked
    | made missing => exact absurd linked (by simp [missing])
    | written _ unlinked => exact absurd linked (unlinked _)
    | passed => exact absurd (placeEq ▸ Path.isAncestorOf_descend _ first) outside
    | linked _ missing => exact absurd linked (by simp [missing])
  · have holds := done.written path member new content exposed unsaved file
    rcases (changes path).outside (outsideHandled path member) with
      kept | ⟨missing, -⟩ | ⟨rfl, -, -, -, other, same, now⟩
    · rw [kept, holds]
    · rw [missing] at holds
      cases holds
    · rw [asked, same] at unsaved
      rw [now, Option.some.inj (Except.ok.inj unsaved)]

/-- Links cover the place of an exposed file once the directories above it are linked. -/
theorem IsDone.isCovered {handled : List Path} {own : List String}
    (done : IsDone request root common base store handled)
    (exposed : IsExposed request base (common.descend own))
    (before : ∀ above, IsLinked request base above → above.isAncestorOf (common.descend own) →
      above ≠ common.descend own → above ∈ handled) :
    IsCovered root store own := by
  obtain ⟨above, source, there, higher, strict⟩ := exposed
  obtain ⟨start, rfl, link⟩ :=
    done.linked above (before above source higher strict) source there
  exact ⟨start, _, (Path.descend_isAncestorOf_iff _).mp higher, link⟩

/-- The order in which files get their counterparts: directories come before what is below them. -/
def IsOrdered (request : ShadowRequest) (files : List Path) : Prop :=
  files.Pairwise
      (fun first second => second.parts ≠ [] → second.isAncestorOf first → second = first) ∧
    ∀ path, path ∈ files ↔ path ∈ paths request ∧ path ≠ request.document.normalize

/-- With the next file what is done grows by that file, as linked directories above it come before
it. -/
theorem IsDone.layOut {handled rest : List Path} {own : List String} {text : Option String}
    (done : IsDone request root common base store handled)
    (unnamed : ∀ path ∈ paths request, ¬ root.isAncestorOf path)
    (ordered : IsOrdered request (handled ++ common.descend own :: rest))
    (stage : IsStage request root common base store) (regular : base.IsRegular)
    (asked : request.unsaved (common.descend own) = .ok text)
    (laid : layOut store (common.descend own) (root.descend own) text = .ok after) :
    IsStage request root common base after ∧
      IsDone request root common base after (handled ++ [common.descend own]) := by
  obtain ⟨reached, other⟩ := (ordered.2 (common.descend own)).mp (by simp)
  have outsideHandled (path : Path) (member : path ∈ handled) : ¬ root.isAncestorOf path :=
    unnamed path ((ordered.2 path).mp (by simp [member])).1
  obtain ⟨stage', changes, linked, passed⟩ :=
    stage.layOut_eq_ok (unnamed _ reached) regular reached other asked laid
  have kept := done.change (unnamed _ reached) outsideHandled asked changes
  refine ⟨stage', fun path member => ?_, fun path member => ?_⟩
  · rcases List.mem_append.mp member with old | new
    · exact kept.linked path old
    · obtain rfl := List.mem_singleton.mp new
      exact fun source there => ⟨own, rfl, linked source there⟩
  · rcases List.mem_append.mp member with old | new
    · exact kept.written path old
    · obtain rfl := List.mem_singleton.mp new
      intro text content exposed unsaved file
      refine passed (done.isCovered exposed fun above source higher strict => ?_) (by simp [file])
        text (Except.ok.inj (asked.symm.trans unsaved))
      have member := (ordered.2 above).mpr ⟨source.reached, source.other⟩
      have later := (List.pairwise_append.mp ordered.1).2.1
      rcases List.mem_append.mp member with before | after
      · exact before
      · rcases List.mem_cons.mp after with same | after
        · exact absurd same strict
        · exact absurd ((List.pairwise_cons.mp later).1 above after source.named higher) strict

/-- Laying out further files keeps the stage and ends with all of them done. -/
theorem Lays.stage {handled rest : List Path} {work : Progress Unit}
    (lays : Lays request root common store handled rest work) (regular : base.IsRegular)
    (unnamed : ∀ path ∈ paths request, ¬ root.isAncestorOf path)
    (stage : IsStage request root common base store)
    (done : IsDone request root common base store handled)
    (ordered : IsOrdered request (handled ++ rest)) :
    IsStage request root common base work.store ∧
      (work.result = .ok () → IsDone request root common base work.store (handled ++ rest)) := by
  -- a failure keeps the store from before it
  induction lays with
  | done =>
      rw [List.append_nil]
      exact ⟨stage, fun _ => done⟩
  | cancelled => exact ⟨stage, nofun⟩
  | unsaved => exact ⟨stage, nofun⟩
  | unplaced => exact ⟨stage, nofun⟩
  | failed => exact ⟨stage, nofun⟩
  | laid known placed given further ih =>
      obtain ⟨own, rfl, rfl⟩ := place_eq_ok placed
      obtain ⟨stage', done'⟩ := done.layOut unnamed ordered stage regular known given
      simpa using ih stage' done' (by simpa using ordered)

/-- What a shadow leaves outside: nothing changed but what it spoils. -/
def Confined (request : ShadowRequest) (root : Path) (base after : FileStore) : Prop :=
  ∀ path, ¬ root.isAncestorOf path → after.entry? path = base.entry? path ∨
    ∃ entry, Spoils request base path entry ∧ after.entry? path = some entry

/-- A stage changes nothing outside of the shadow but what it spoils. -/
theorem IsStage.confined (stage : IsStage request root common base store) :
    Confined request root base store := by
  intro path outside
  refine (stage.outside path outside).imp_right ?_
  rintro ⟨old, new, -, now, -, spoils⟩
  exact ⟨_, spoils, now⟩

/-- Writing the document completes what a shadow spoils. -/
theorem writeDocument_spoils (unnamed : ∀ path ∈ paths request, ¬ root.isAncestorOf path)
    (stage : IsStage request root common base store) {own : List String}
    (document : request.document.normalize = common.descend own)
    (written : writeText store (root.descend own) (withTrailingBlankLine request.text) =
      .ok after) :
    Confined request root base after ∧
      ∀ handled, IsDone request root common base store handled →
        (∀ path, path ∈ handled ↔ path ∈ paths request ∧ path ≠ request.document.normalize) →
        ∀ path entry, Spoils request base path entry → after.entry? path = some entry := by
  have reached := document_mem_paths request
  have unlinked : ¬ IsLinked request base (common.descend own) :=
    fun linked => linked.other document.symm
  obtain ⟨-, changes, passed⟩ :=
    stage.writeText_eq_ok (document ▸ unnamed _ reached) unlinked written
  rw [← document] at passed
  refine ⟨fun path outside => ?_, fun handled done all path entry spoils => ?_⟩
  · rcases (changes path).outside outside with
      kept | ⟨missing, new, exposed, higher, strict⟩ | ⟨same, exposed, -, -, text, textEq, now⟩
    · rw [kept]
      exact stage.confined path outside
    · rw [← document] at exposed higher strict
      rw [stage.entry?_eq_none_iff outside] at missing
      exact Or.inr ⟨_, .above exposed higher strict missing, new⟩
    · obtain rfl := same.trans document.symm
      obtain rfl := Option.some.inj textEq
      exact Or.inr ⟨_, .document exposed, now⟩
  · have covered (exposed : IsExposed request base request.document.normalize) :
        IsCovered root store own :=
      done.isCovered (document ▸ exposed) fun above source _ _ =>
        (all above).mpr ⟨source.reached, source.other⟩
    cases spoils with
    | overlay exposed member other unsaved file =>
        have holds := done.written path ((all path).mpr ⟨member, other⟩) _ _ exposed unsaved file
        rcases (changes path).outside (unnamed path member) with
          kept | ⟨missing, -⟩ | ⟨same, -⟩
        · rw [kept, holds]
        · rw [missing] at holds
          cases holds
        · exact absurd (same.trans document.symm) other
    | document exposed => exact (passed (covered exposed)).1
    | above exposed higher other missing =>
        have outside : ¬ root.isAncestorOf path :=
          fun below => unnamed _ reached (Path.isAncestorOf_trans below higher)
        have there := (passed (covered exposed)).2 path higher
        rcases (changes path).outside outside with kept | ⟨-, new, -⟩ | ⟨same, -⟩
        · rw [kept, ne_eq, stage.entry?_eq_none_iff outside] at there
          exact absurd missing there
        · exact new
        · exact absurd (same.trans document.symm) other

/-- Holds if there is a directory of temporary files, and nothing that a shadow is made for is named
in the shadow. -/
structure IsFresh (request : ShadowRequest) (number : Nat) (store : FileStore) : Prop where
  temporary : store.entry? (directory number).parent = some .directory
  unnamed : ∀ path ∈ paths request, ¬ (directory number).isAncestorOf path

/-- The fresh directory alone is a stage. -/
theorem isStage_put (regular : base.IsRegular) (fresh : IsFresh request number base) :
    IsStage request (directory number) common base (base.put (directory number) .directory) := by
  have above {path : Path} (higher : path.isAncestorOf (directory number))
      (strict : path ≠ directory number) : base.entry? path = some .directory :=
    regular.isTree.entry?_above_parent fresh.temporary higher strict
  have named : (directory number).parts ≠ [] := by simp [directory]
  refine ⟨named, rfl, fun path higher => ?_, fun path target linked => ?_,
    fun path outside => Or.inl ?_⟩
  · rw [FileStore.entry?_put]
    by_cases same : path = directory number
    · rw [if_pos same]
    · simp [same, above higher same]
  · rw [FileStore.entry?_put] at linked
    split at linked
    · cases linked
    · split at linked
      · cases linked
      · exact absurd linked (regular.unlinked path target)
  · have strict : path ≠ directory number := by
      rintro rfl
      exact outside (Path.isAncestorOf_refl _)
    rw [FileStore.entry?_put, if_neg strict, if_neg]
    rintro ⟨missing, higher⟩
    rw [above higher strict] at missing
    cases missing

/-- The files of a request stand in an order in which directories precede what is below them. -/
theorem isOrdered_extent (request : ShadowRequest) :
    IsOrdered request ((extent request).2.filter (· ≠ request.document.normalize)) := by
  rw [snd_extent]
  refine ⟨List.Pairwise.filter _ ?_, fun path => by simp⟩
  exact (Path.pairwise_sort _).imp fun ascending named higher =>
    Path.eq_of_sortsBefore named higher ascending

theorem fill_spoils (regular : base.IsRegular) (fresh : IsFresh request number base) :
    let work := fill request (directory number) (base.put (directory number) .directory)
    Confined request (directory number) base work.store ∧
      ∀ shadow, work.result = .ok shadow → shadow.root = directory number ∧
        ∀ path entry, Spoils request base path entry → work.store.entry? path = some entry := by
  have ordered := isOrdered_extent request
  have nothing : IsDone request (directory number) (extent request).1 base
      (base.put (directory number) .directory) [] := ⟨nofun, nofun⟩
  obtain ⟨laid, lays, writes⟩ := writes_fill request (directory number)
    (base.put (directory number) .directory)
  obtain ⟨stage, done⟩ := lays.stage regular fresh.unnamed (isStage_put regular fresh) nothing
    ordered
  rw [List.nil_append] at done
  generalize fill request (directory number) (base.put (directory number) .directory) = work
    at writes
  cases writes with
  | unready => exact ⟨stage.confined, nofun⟩
  | cancelled => exact ⟨stage.confined, nofun⟩
  | unplaced => exact ⟨stage.confined, nofun⟩
  | failed => exact ⟨stage.confined, nofun⟩
  | written ready placed given =>
      obtain ⟨own, document, rfl⟩ := place_eq_ok placed
      obtain ⟨confined, spoils⟩ := writeDocument_spoils fresh.unnamed stage document given
      refine ⟨confined, fun shadow made => ?_⟩
      rw [← Except.ok.inj made]
      exact ⟨rfl, spoils _ (done ready) ordered.2⟩

/-- **A shadow spoils exactly what lies below the directories that it links.**  Outside its own
directory an entry stays as it is, unless it is an unsaved file or the document below a linked
directory, or missing above such a document; after a shadow was made, all these were written.
Leaving a shadow changes nothing outside it. -/
theorem entry?_enter_outside {path : Path} (regular : store.IsRegular)
    (fresh : IsFresh request number store) (outside : ¬ (directory number).isAncestorOf path) :
    let work := enter request number store
    (work.store.entry? path = store.entry? path ∨
      ∃ entry, Spoils request store path entry ∧ work.store.entry? path = some entry) ∧
    ∀ shadow, work.result = .ok shadow →
      (∀ entry, Spoils request store path entry → work.store.entry? path = some entry) ∧
      ∀ later, FileStore.entry? (leave shadow later) path = later.entry? path := by
  intro work
  obtain ⟨confined, made⟩ := fill_spoils regular fresh
  have removed (later : FileStore) :
      FileStore.entry? (removeDirectory later (directory number)) path = later.entry? path := by
    rw [removeDirectory, FileStore.entry?_removeTree, if_neg outside]
  simp only [work, enter]
  split
  · next shadow resultEq =>
      refine ⟨confined path outside, fun shadow same => ?_⟩
      obtain ⟨root, spoils⟩ := made shadow same
      refine ⟨spoils path, fun later => ?_⟩
      rw [leave, root, removed]
  · next fault resultEq =>
      simp only [removed, resultEq]
      refine ⟨confined path outside, fun shadow made => ?_⟩
      cases made

end

/-- A directory with the name of a model, and a file in it. -/
def folderTree : FileStore where
  entries := ⟨[(⟨.root, []⟩, .directory), (⟨.root, ["tmp"]⟩, .directory),
    (⟨.root, ["w"]⟩, .directory), (⟨.root, ["w", "d.ump"]⟩, .directory),
    (⟨.root, ["w", "d.ump", "b.ump"]⟩, .file [])]⟩
  links := .allowed

section

open scoped Trial

/-- A document that reaches the directory it lies in is overwritten itself. -/
theorem entry?_enter_folderTree :
    let document : Path := ⟨.root, ["w", "d.ump", "b.ump"]⟩
    let request := couple document ⟨.root, ["w", "d.ump"]⟩
    folderTree.IsRegular ∧ IsFresh request 1 folderTree ∧
      ¬ (directory 1).isAncestorOf document ∧ folderTree.entry? document = some (.file []) ∧
      (enter request 1 folderTree).store.entry? document =
        some (.file (Text.utf8 "\n\n".toList)) := by
  intro document request
  let folder : Path := ⟨.root, ["w", "d.ump"]⟩
  have root : directory 1 = ⟨.root, ["tmp", "umple-shadow-1"]⟩ := rfl
  have sorted : paths request = [folder, document] := by
    have swapped (first second : Path) (after : Path.sortsBefore first second = false) :
        Path.sort [first, second] = [second, first] := by
      simp [Path.sort, List.mergeSort, List.MergeSort.Internal.splitInTwo, after]
    exact swapped document folder (by decide)
  have common : extent request = (⟨.root, ["w"]⟩, [folder, document]) := by
    simp only [extent, sorted]
    rfl
  have regular : folderTree.IsRegular :=
    FileStore.isRegular_of_entries (by simp [folderTree]) (by decide)
  have fresh : IsFresh request 1 folderTree := by
    constructor
    · rw [root]
      rfl
    · rw [sorted, root]
      decide
  have outside : ¬ (directory 1).isAncestorOf document := by
    rw [root]
    decide
  have made : (enter request 1 folderTree).result =
      .ok ⟨directory 1, ⟨.root, ["tmp", "umple-shadow-1", "d.ump", "b.ump"]⟩⟩ := by
    simp only [enter, fill]
    rw [common, root]
    simp [request, document, folder, couple, folderTree, layOutAll, writeDocument, place, layOut,
      writeText, linkOrCopy, Path.normalize, Path.join, Path.resolveDots, Path.isAbsolute,
      Path.partsBelow?, Path.isAncestorOf, Path.parent, Path.child, FileStore.put,
      FileStore.makeDirectories, FileStore.makeDirectoriesFrom, FileStore.makeLink?,
      FileStore.write, FileStore.has, FileStore.isDirectory, FileStore.lookup?, FileStore.entry?,
      FileStore.resolveParent, FileStore.resolve, FileStore.follow, FileStore.walk,
      FileStore.linkLimit,
      OrderedMap.get?, OrderedMap.lookup, OrderedMap.contains, OrderedMap.insert, OrderedMap.put,
      List.range, List.range.loop, bind, Except.bind, pure, Except.pure]
  have linked : IsLinked request folderTree folder := by
    refine ⟨rfl, by decide, ?_, by decide, rfl, by decide⟩
    rw [sorted]
    exact List.mem_cons_self
  have exposed : IsExposed request folderTree document :=
    ⟨folder, linked, rfl, by decide, by decide⟩
  refine ⟨regular, fresh, outside, rfl, ?_⟩
  exact ((entry?_enter_outside regular fresh outside).2 _ made).1 _ (.document exposed)

end

end Shadow

end ModelAssist
