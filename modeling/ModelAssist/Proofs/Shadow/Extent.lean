import Mathlib.Data.List.TakeDrop
import ModelAssist.Path.Uri
import ModelAssist.Proofs.Shadow.Filling
import ModelAssist.Proofs.Shadow.Place
import ModelAssist.Proofs.Text.Ascii
import ModelAssist.Proofs.Text.Utf8

/-!
# What has a place in a shadow

The common directory of some paths is the deepest one above all of them, but it is written with one
leading slash whatever the paths are written with.  So exactly the paths with one leading slash have
a place in a shadow, each its own, and no shadow is made for a document that is written with two
(`Shadow.placed_iff_single`).
-/

namespace ModelAssist

namespace Path

/-- A start of both lists is a start of what they have in common. -/
theorem isPrefix_commonStart {start first second : List String} (below : start <+: first)
    (below' : start <+: second) : start <+: commonStart first second := by
  induction start generalizing first second with
  | nil => exact List.nil_prefix
  | cons part start ih =>
      obtain ⟨rest, rfl⟩ := below
      obtain ⟨rest', rfl⟩ := below'
      rw [List.cons_append, List.cons_append, commonStart, if_pos rfl]
      exact List.cons_prefix_cons.mpr
        ⟨rfl, ih (List.prefix_append _ _) (List.prefix_append _ _)⟩

/-- A start of all paths is a start of what they have in common. -/
theorem isPrefix_foldl_commonStart {start first : List String} {paths : List Path}
    (below : start <+: first) (others : ∀ path ∈ paths, start <+: path.parts) :
    start <+: paths.foldl (fun common path => commonStart common path.parts) first := by
  induction paths generalizing first with
  | nil => exact below
  | cons path rest ih =>
      obtain ⟨own, others⟩ := List.forall_mem_cons.mp others
      exact ih (isPrefix_commonStart below own) others

/-- No directory above some paths is deeper than their common directory. -/
theorem isPrefix_commonAncestor {paths : List Path} {common : Path} {start : List String}
    (found : commonAncestor paths = .ok common)
    (above : ∀ path ∈ paths, start <+: path.parent.parts) : start <+: common.parts := by
  unfold commonAncestor at found
  cases paths with
  | nil => cases found
  | cons first rest =>
      obtain ⟨own, others⟩ := List.forall_mem_cons.mp above
      simp only [List.map_cons] at found
      split at found
      · cases found
      · rw [← Except.ok.inj found]
        exact isPrefix_foldl_commonStart own (List.forall_mem_map.mpr others)

end Path

namespace Uri

variable {text : List Char}

/-- Decoding a text without escapes decodes its own bytes after the pending ones. -/
theorem unescapeFrom_of_plain (pending : List UInt8)
    (plain : ∀ char ∈ text, char.toNat < 128 ∧ char ≠ '%') :
    unescapeFrom pending text = Text.decodeMarking (pending.reverse ++ Text.utf8 text) := by
  induction text generalizing pending with
  | nil => simp [unescapeFrom, Text.utf8]
  | cons char rest ih =>
      obtain ⟨⟨ascii, noEscape⟩, plain⟩ := List.forall_mem_cons.mp plain
      rw [unescapeFrom.eq_3 _ _ _ fun _ _ _ same _ => noEscape same, if_pos ascii, ih _ plain]
      simp [Text.utf8, Text.utf8EncodeChar_of_ascii ascii]

/-- A text without escapes is decoded to itself. -/
theorem unescape_of_plain (plain : ∀ char ∈ text, char.toNat < 128 ∧ char ≠ '%') :
    unescape text = text := by
  rw [unescape, unescapeFrom_of_plain [] plain]
  exact Text.decodeMarking_utf8 text

end Uri

namespace Shadow

variable {request : ShadowRequest} {root path : Path} {number : Nat} {store : FileStore}
  {fault : ShadowFault}

/-- The common ancestor of a request always lies under the single root. -/
theorem anchor_extent [Host] (request : ShadowRequest) : (extent request).1.anchor = .root := by
  obtain ⟨parts, extentEq, -⟩ := extent_eq request
  rw [extentEq]

/-- The common ancestor of the paths of a request is its extent. -/
theorem commonAncestor_paths [Host] (request : ShadowRequest) :
    Path.commonAncestor (paths request) = .ok (extent request).1 := by
  obtain ⟨parts, commonEq, -⟩ :=
    Path.commonAncestor_eq_ok (List.ne_nil_of_mem (document_mem_paths request))
    fun path member => (isNormal_of_mem_paths member).absolute
  simp only [extent, commonEq]

/-- The common directory lies above exactly those paths that are written with one leading slash. -/
theorem extent_isAncestorOf_iff [Host] (member : path ∈ paths request) :
    (extent request).1.isAncestorOf path.parent ↔ path.anchor = .root := by
  obtain ⟨parts, extentEq, above⟩ := extent_eq request
  rw [extentEq, Path.isAncestorOf, Bool.and_eq_true, decide_eq_true_eq, List.isPrefixOf_iff_prefix]
  exact ⟨fun higher => higher.1.symm, fun single => ⟨single.symm, above path member⟩⟩

/-- A path that is not under the single root has no place in a shadow. -/
theorem place_of_double [Host] (root : Path) (double : path.anchor ≠ .root) :
    place root (extent request).1 path = .error (.outside path (extent request).1) := by
  have apart : ¬ (extent request).1.isAncestorOf path := by
    rw [Path.isAncestorOf, anchor_extent, Bool.and_eq_true, decide_eq_true_eq]
    exact fun higher => double higher.1.symm
  rw [place, Path.partsBelow?, if_neg apart]

/-- Two paths with the same place are the same path. -/
theorem place_inj {common first second found : Path} (placed : place root common first = .ok found)
    (placed' : place root common second = .ok found) : first = second := by
  obtain ⟨own, rfl, rfl⟩ := place_eq_ok placed
  obtain ⟨own', rfl, same⟩ := place_eq_ok placed'
  rw [Path.descend_inj.mp same]

section

variable [Host]

/-- A path written with one leading slash has a place strictly below the root of the shadow. -/
theorem exists_place (normal : root.IsNormal) (member : path ∈ paths request)
    (single : path.anchor = .root) :
    ∃ found, place root (extent request).1 path = .ok found ∧ found.IsNormal ∧
      root.isAncestorOf found ∧ (path.parts ≠ [] → found ≠ root) := by
  obtain ⟨own, split, named, placed⟩ := place_eq root member single
  refine ⟨root.descend own, placed, ⟨normal.absolute, fun dots => ?_⟩,
    Path.isAncestorOf_descend root own, fun below same => ?_⟩
  · rcases List.mem_append.mp dots with above | below
    · exact normal.dotless above
    · refine (isNormal_of_mem_paths member).dotless ?_
      rw [split]
      exact List.mem_append_right _ below
  · rw [← Path.descend_nil root, Path.descend_descend, Path.descend_inj] at same
    exact named below (by simpa using same)

/-- What keeps a shadow from being made: a fault of the files, a cancellation, an unsaved text that
cannot be asked for, or a path that is written with two leading slashes. -/
inductive Hinders (request : ShadowRequest) : ShadowFault → Prop where
  | file (fault : FileFault) : Hinders request (.file fault)
  | cancelled {count : Nat} {reason : String} (given : request.cancelled count = some reason) :
      Hinders request (.cancelled reason)
  | unsaved {path : Path} {message : String} (reached : path ∈ paths request)
      (given : request.unsaved path = .error message) : Hinders request (.unsaved message)
  | outside {path : Path} (reached : path ∈ paths request) (double : path.anchor ≠ .root) :
      Hinders request (.outside path (extent request).1)

/-- The fault of a failed work hinders the request as the work says. -/
theorem Hinders.of_eq {Result : Type} {other : ShadowFault} (hinders : Hinders request fault)
    (failed : (.error fault : Except ShadowFault Result) = .error other) :
    Hinders request other :=
  Except.error.inj failed ▸ hinders

/-- A path without a place hinders the request. -/
theorem hinders_of_place (member : path ∈ paths request)
    (unplaced : place root (extent request).1 path = .error fault) : Hinders request fault := by
  by_cases single : path.anchor = .root
  · obtain ⟨own, -, -, placed⟩ := place_eq root member single
    rw [placed] at unplaced
    cases unplaced
  · rw [place_of_double root single] at unplaced
    obtain rfl := Except.error.inj unplaced
    exact .outside member single

/-- Only paths under the single root have a place. -/
theorem single_of_place {found : Path} (placed : place root (extent request).1 path = .ok found) :
    path.anchor = .root := by
  by_contra double
  rw [place_of_double root double] at placed
  cases placed

/-- What fails while files are laid out hinders the request, and otherwise all of them lie under the
root. -/
theorem Lays.hinders {asked files : List Path} {work : Progress Unit}
    (lays : Lays request root (extent request).1 store asked files work)
    (reached : ∀ path ∈ files, path ∈ paths request) :
    (∀ fault, work.result = .error fault → Hinders request fault) ∧
      (work.result = .ok () → ∀ path ∈ files, path.anchor = .root) := by
  induction lays with
  | done => exact ⟨nofun, fun _ => nofun⟩
  | cancelled given => exact ⟨fun _ => (Hinders.cancelled given).of_eq, nofun⟩
  | unsaved given =>
      exact ⟨fun _ => (Hinders.unsaved (reached _ List.mem_cons_self) given).of_eq, nofun⟩
  | unplaced given =>
      exact ⟨fun _ => (hinders_of_place (reached _ List.mem_cons_self) given).of_eq, nofun⟩
  | failed known placed given => exact ⟨fun _ => (Hinders.file _).of_eq, nofun⟩
  | laid known placed given further ih =>
      obtain ⟨fails, made⟩ := ih fun path member => reached path (List.mem_cons_of_mem _ member)
      exact ⟨fails, fun done => List.forall_mem_cons.mpr ⟨single_of_place placed, made done⟩⟩

/-- What keeps a shadow from being filled, and how its paths are written where nothing does. -/
theorem fill_hinders (request : ShadowRequest) (root : Path) (store : FileStore) :
    (∀ fault, (fill request root store).result = .error fault → Hinders request fault) ∧
      ∀ shadow, (fill request root store).result = .ok shadow →
        ∀ path ∈ paths request, path.anchor = .root := by
  obtain ⟨work, lays, writes⟩ := writes_fill request root store
  have others (path : Path) : path ∈ (extent request).2.filter (· ≠ request.document.normalize) ↔
      path ∈ paths request ∧ path ≠ request.document.normalize := by
    simp [snd_extent]
  obtain ⟨fails, made⟩ := lays.hinders fun path member => ((others path).mp member).1
  have document := document_mem_paths request
  generalize fill request root store = filling at writes
  cases writes with
  | unready given => exact ⟨fun _ => (fails _ given).of_eq, nofun⟩
  | cancelled ready given => exact ⟨fun _ => (Hinders.cancelled given).of_eq, nofun⟩
  | unplaced ready given => exact ⟨fun _ => (hinders_of_place document given).of_eq, nofun⟩
  | failed ready placed given => exact ⟨fun _ => (Hinders.file _).of_eq, nofun⟩
  | written ready placed given =>
      refine ⟨nofun, fun shadow _ path member => ?_⟩
      by_cases own : path = request.document.normalize
      · exact own ▸ single_of_place placed
      · exact made ready path ((others path).mpr ⟨member, own⟩)

/-- **Exactly the paths with one leading slash have a place in a shadow, each its own.**  The paths
of a shadow always have a deepest common directory, and it lies above those of them that are written
with one leading slash.  These have places strictly below the root of the shadow, of which no two
are the same; a path with two leading slashes has none, and then no shadow is made.  Nothing else
keeps a shadow from being made but faults of the files, cancellations, and unsaved texts that cannot
be asked for. -/
theorem placed_iff_single (request : ShadowRequest) :
    ∃ common, Path.commonAncestor (paths request) = .ok common ∧
      (∀ path ∈ paths request, common.isAncestorOf path.parent ↔ path.anchor = .root) ∧
      (∀ above : Path, (∀ path ∈ paths request, above.isAncestorOf path.parent) →
        above.parts <+: common.parts) ∧
      (∀ root : Path, root.IsNormal →
        (∀ path ∈ paths request, path.anchor = .root → ∃ found,
          place root common path = .ok found ∧ found.IsNormal ∧ root.isAncestorOf found ∧
            (path.parts ≠ [] → found ≠ root)) ∧
        (∀ path ∈ paths request, path.anchor ≠ .root →
          place root common path = .error (.outside path common)) ∧
        ∀ first second found, place root common first = .ok found →
          place root common second = .ok found → first = second) ∧
      ∀ number store,
        (∀ fault, (enter request number store).result = .error fault → Hinders request fault) ∧
        ∀ shadow, (enter request number store).result = .ok shadow →
          ∀ path ∈ paths request, path.anchor = .root := by
  refine ⟨(extent request).1, commonAncestor_paths request,
    fun path member => extent_isAncestorOf_iff member, fun above higher => ?_,
    fun root normal => ⟨fun path => exists_place normal,
      fun path _ double => place_of_double root double, fun first second found => place_inj⟩,
    fun number store => ?_⟩
  · refine Path.isPrefix_commonAncestor (commonAncestor_paths request) fun path member => ?_
    obtain ⟨rest, below⟩ := Path.isAncestorOf_iff.mp (higher path member)
    exact ⟨rest, (congrArg Path.parts below).symm⟩
  · rw [result_enter]
    exact fill_hinders request _ _

end

section

open scoped Trial

/-- The document of a URI with an authority has no shadow. -/
theorem not_enter_authority :
    let document : Path := ⟨.doubleRoot, ["localhost", "w", "A.ump"]⟩
    Uri.path? "file://localhost/w/A.ump" = some document ∧
      ∀ number store shadow,
        (enter (couple document document) number store).result ≠ .ok shadow := by
  intro document
  refine ⟨?_, fun number store shadow made => ?_⟩
  · have authority := @Uri.unescape_of_plain "localhost".toList (by simp)
    have rest := @Uri.unescape_of_plain "/w/A.ump".toList (by simp)
    have written : Uri.writtenPath? "file://localhost/w/A.ump" =
        some "//localhost/w/A.ump".toList := by
      simp [Uri.writtenPath?, List.span_eq_takeWhile_dropWhile] at authority rest ⊢
      simp [authority, rest]
    simp only [Uri.path?, written]
    rfl
  · obtain ⟨common, -, -, -, -, entered⟩ := placed_iff_single (couple document document)
    have single := (entered number store).2 shadow made document (document_mem_paths _)
    cases single

end

end Shadow

end ModelAssist
