import Mathlib.Data.List.Nodup
import ModelAssist.Proofs.Shadow.Counterpart
import ModelAssist.Proofs.Shadow.Frame
import ModelAssist.Proofs.Text.Position

/-!
# What a shadow shows

File by file a shadow is filled with counterparts (`Shadow.Lays.filled`), with that of the document
at last, and nothing is in the way unless the document is a directory (`Shadow.fill_filled`).  So a
shadow shows the document and all that it reaches as an editor shows them (`Shadow.enter_shows`).
-/

namespace ModelAssist

namespace Shadow

variable {request : ShadowRequest} {root common path found : Path} {number : Nat}
  {base store after : FileStore} {handled : List Path} {own : List String} {entry : FileEntry}

/-- The next file gets its counterpart as nothing is in the way. -/
theorem IsFilled.handle [Host] {rest : List Path} {text : Option String}
    (mirrorable : IsMirrorable request number base)
    (filled : IsFilled request (directory number) (extent request).1 base handled store)
    (others : ∀ other ∈ handled ++ path :: rest, IsOther request other)
    (distinct : (handled ++ path :: rest).Nodup) (known : request.unsaved path = .ok text)
    (placed : place (directory number) (extent request).1 path = .ok found) :
    ∃ after, Shadow.layOut store path found text = .ok after ∧
      IsFilled request (directory number) (extent request).1 base (handled ++ [path]) after := by
  obtain ⟨own, rfl, rfl⟩ := place_eq_ok placed
  have other := others ((extent request).1.descend own) (by simp)
  have named : own ≠ [] := by
    rintro rfl
    rw [Path.descend_nil] at other
    exact mirrorable.not_isDirectory other mirrorable.isDirectory_common
  have new : (extent request).1.descend own ∉ handled := fun member =>
    (List.nodup_append.mp distinct).2.2 _ member _ List.mem_cons_self rfl
  exact filled.layOut mirrorable (fun path member => others path (List.mem_append_left _ member))
    new other named known

/-- While a shadow is filled nothing fails for the sake of the files. -/
theorem Lays.filled [Host] {rest : List Path} {work : Progress Unit}
    (lays : Lays request (directory number) (extent request).1 store handled rest work)
    (mirrorable : IsMirrorable request number base)
    (filled : IsFilled request (directory number) (extent request).1 base handled store)
    (others : ∀ other ∈ handled ++ rest, IsOther request other)
    (distinct : (handled ++ rest).Nodup) :
    (∀ fault, work.result ≠ .error (.file fault)) ∧
      (work.result = .ok () → IsFilled request (directory number) (extent request).1 base
        (handled ++ rest) work.store) := by
  -- every file finds its place free, so the cases of failed work on files do not occur
  induction lays with
  | done =>
      rw [List.append_nil]
      exact ⟨nofun, fun _ => filled⟩
  | cancelled => exact ⟨nofun, nofun⟩
  | unsaved => exact ⟨nofun, nofun⟩
  | @unplaced store asked rest path fault given =>
      obtain ⟨own, -, placed⟩ := mirrorable.exists_own (others path (by simp)).reached
      cases given.symm.trans placed
  | failed known placed given =>
      obtain ⟨after, laid, -⟩ := filled.handle mirrorable others distinct known placed
      cases given.symm.trans laid
  | laid known placed given further ih =>
      obtain ⟨after, laid, filled⟩ := filled.handle mirrorable others distinct known placed
      obtain rfl := Except.ok.inj (given.symm.trans laid)
      simpa using ih filled (by simpa using others) (by simpa using distinct)

/-- A directory just made counts as filled with nothing. -/
theorem isFilled_put [Host] (mirrorable : IsMirrorable request number base) :
    IsFilled request (directory number) (extent request).1 base []
      (base.put (directory number) .directory) := by
  have named : (directory number).parts ≠ [] := by simp [directory]
  have start := Path.descend_nil (directory number)
  have gains : base.Gains (base.put (directory number) .directory)
      ((directory number).descend []) .directory := by
    rw [start]
    refine FileStore.Gains.put (FileStore.gains_self fun path higher => ?_) named .directory
    obtain ⟨higher, strict⟩ := (Path.isAncestorOf_parent_iff named).mp higher
    exact mirrorable.above higher strict
  refine ⟨gains.policy, gains.isTree mirrorable.tree (start ▸ mirrorable.fresh),
    fun path => gains.entry?_outside fun path => mirrorable.above,
    fun _ _ member => absurd member List.not_mem_nil, fun own entry there => ?_⟩
  by_cases top : own = []
  · rw [top, gains.entry?_place] at there
    rw [top, Path.descend_nil]
    exact Or.inl ⟨(Option.some.inj there).symm, mirrorable.isDirectory_common⟩
  · have apart : ¬ ((directory number).descend own).isAncestorOf
        ((directory number).descend []) := by
      rwa [Path.descend_isAncestorOf_iff, List.prefix_nil]
    rw [gains.entry?_of_not_above apart,
      mirrorable.empty (Path.isAncestorOf_descend (directory number) own)] at there
    cases there

/-- Nothing is in the way of the document but a directory that stands for a directory. -/
theorem IsFilled.writeDocument [Host] (mirrorable : IsMirrorable request number base)
    (filled : IsFilled request (directory number) (extent request).1 base handled store)
    (others : ∀ other ∈ handled, IsOther request other)
    (placed : place (directory number) (extent request).1 request.document.normalize = .ok found) :
    (base.isDirectory request.document.normalize ∧
        writeText store found (withTrailingBlankLine request.text) = .error (.isDirectory found)) ∨
      ∃ after, writeText store found (withTrailingBlankLine request.text) = .ok after ∧
        IsFilled request (directory number) (extent request).1 base
          (handled ++ [request.document.normalize]) after := by
  obtain ⟨own, document, rfl⟩ := place_eq_ok placed
  have new : (extent request).1.descend own ∉ handled :=
    fun member => (others _ member).other document.symm
  have folders (start : List String) (shorter : start <+: own) (strict : start ≠ own) :
      base.isDirectory ((extent request).1.descend start) := by
    refine mirrorable.tree.isDirectory_above mirrorable.home ?_
    rw [document]
    exact Path.isAncestorOf_parent ((Path.descend_isAncestorOf_iff _).mpr shorter)
      fun same => strict (Path.descend_inj.mp same)
  have clear := filled.isClear mirrorable others new folders
  have top := filled.top mirrorable
  rw [document]
  cases there : store.entry? ((directory number).descend own) with
  | none =>
      obtain ⟨after, written, gains⟩ :=
        writeText_of_clear clear top there (withTrailingBlankLine request.text)
      have counts := document ▸ @IsCounterpart.document _ request base
      exact Or.inr ⟨after, written, filled.gain mirrorable others new there folders counts gains⟩
  | some entry =>
      rcases filled.only own entry there with ⟨rfl, folder⟩ | ⟨member, -⟩
      · exact Or.inl ⟨folder, writeText_of_directory clear top there _⟩
      · exact absurd member new

/-- A shadow is filled only if all unsaved texts can be asked for. -/
theorem Lays.known {asked files : List Path} {work : Progress Unit}
    (lays : Lays request root common store asked files work) (done : work.result = .ok ()) :
    ∀ path ∈ files, ∃ unsaved, request.unsaved path = .ok unsaved := by
  induction lays with
  | done => exact nofun
  | cancelled | unsaved | unplaced | failed => cases done
  | laid known placed given further ih => exact List.forall_mem_cons.mpr ⟨⟨_, known⟩, ih done⟩

/-- What comes of filling a shadow: nothing fails for the sake of the files unless the document is a
directory, and in the end everything has its counterpart. -/
theorem fill_filled [Host] (mirrorable : IsMirrorable request number base) :
    let work := fill request (directory number) (base.put (directory number) .directory)
    (∀ fault, work.result = .error (.file fault) →
      base.isDirectory request.document.normalize) ∧
    ∀ shadow, work.result = .ok shadow → shadow.root = directory number ∧
      place (directory number) (extent request).1 request.document.normalize = .ok shadow.target ∧
      (∀ path, IsOther request path → ∃ unsaved, request.unsaved path = .ok unsaved) ∧
      ∃ handled, (∀ path, path ∈ handled ↔ path ∈ paths request) ∧
        IsFilled request (directory number) (extent request).1 base handled work.store := by
  have document := document_mem_paths request
  obtain ⟨laid, lays, writes⟩ := writes_fill request (directory number)
    (base.put (directory number) .directory)
  rw [snd_extent] at lays
  have others : ∀ path ∈ [] ++ (paths request).filter (· ≠ request.document.normalize),
      IsOther request path := fun path member =>
    ⟨(List.mem_filter.mp member).1, of_decide_eq_true (List.mem_filter.mp member).2⟩
  obtain ⟨unfailing, done⟩ := lays.filled mirrorable (isFilled_put mirrorable) others
    ((nodup_paths request).filter _)
  generalize fill request (directory number) (base.put (directory number) .directory) = work
    at writes
  cases writes with
  | unready given =>
      refine ⟨fun fault failed => ?_, nofun⟩
      obtain rfl := Except.error.inj failed
      exact absurd given (unfailing fault)
  | cancelled => exact ⟨nofun, nofun⟩
  | unplaced ready given =>
      obtain ⟨own, -, placed⟩ := mirrorable.exists_own document
      cases given.symm.trans placed
  | failed ready placed given =>
      refine ⟨fun _ _ => ?_, nofun⟩
      rcases (done ready).writeDocument mirrorable others placed with ⟨folder, -⟩ | ⟨after, ok, -⟩
      · exact folder
      · cases given.symm.trans ok
  | written ready placed given =>
      refine ⟨nofun, fun shadow made => ?_⟩
      obtain rfl := Except.ok.inj made
      rcases (done ready).writeDocument mirrorable others placed with
        ⟨-, failed⟩ | ⟨after, ok, filled⟩
      · cases given.symm.trans failed
      · obtain rfl := Except.ok.inj (given.symm.trans ok)
        have known (path : Path) (other : IsOther request path) :=
          lays.known ready path (by simp [other.reached, other.other])
        refine ⟨rfl, placed, known, _, fun path => ?_, filled⟩
        by_cases own : path = request.document.normalize
        · simp [own, document]
        · simp [own]

/-- A blank line is put after a text by at most two line feeds, and moves none of its lines. -/
theorem withTrailingBlankLine_eq (text : String) :
    ∃ ending ∈ ["", "\n", "\n\n"], withTrailingBlankLine text = text ++ ending ∧
      "\n\n".toList <:+ (text ++ ending).toList ∧
      ∀ line < (Text.lines text.toList).length,
        (Text.lines (text ++ ending).toList)[line]? = (Text.lines text.toList)[line]? := by
  have kept {ending : String} (rest : List Char) (feed : ending.toList = '\n' :: rest)
      (line : Nat) (known : line < (Text.lines text.toList).length) :
      (Text.lines (text ++ ending).toList)[line]? = (Text.lines text.toList)[line]? := by
    rw [String.toList_append, feed, Text.lines_append_feed, List.getElem?_append_left known]
  unfold withTrailingBlankLine
  split
  · next blank =>
      refine ⟨"", by simp, String.append_empty.symm, ?_,
        fun line _ => by rw [String.append_empty]⟩
      rw [String.append_empty]
      exact List.isSuffixOf_iff_suffix.mp blank
  · split
    · next feed =>
        refine ⟨"\n", by simp, rfl, ?_, kept [] rfl⟩
        obtain ⟨start, same⟩ := List.isSuffixOf_iff_suffix.mp feed
        exact ⟨start, by rw [String.toList_append, ← same]; simp⟩
    · refine ⟨"\n\n", by simp, rfl, ?_, kept ['\n'] rfl⟩
      rw [String.toList_append]
      exact List.suffix_append _ _

/-- What an editor shows of a file: its unsaved text, or else its content. -/
def liveContent (base : FileStore) (path : Path) : Option String → Except FileFault (List UInt8)
  | some text => .ok (Text.utf8 text.toList)
  | none => base.read path

section

variable [Host]

/-- Holds of the stores in which a shadow shows what a store held when it was made. -/
structure Shows (request : ShadowRequest) (base store : FileStore) (shadow : Shadow) : Prop where
  document : place shadow.root (extent request).1 request.document.normalize = .ok shadow.target
  /-- There are no files in the shadow but the document and the others that exist. -/
  files : ∀ file, shadow.root.isAncestorOf file →
    ((∃ entry, store.entry? file = some entry ∧ entry ≠ .directory) ↔
      file = shadow.target ∨ ∃ path, IsOther request path ∧ base.has path ∧
        place shadow.root (extent request).1 path = .ok file)
  /-- Every other file has its unsaved text, or else its content. -/
  content : ∀ path, IsOther request path → base.has path → ∃ file unsaved,
    place shadow.root (extent request).1 path = .ok file ∧
    request.unsaved path = .ok unsaved ∧
    store.read file = liveContent base path unsaved
  /-- The document has its text, and a blank line at the end. -/
  text : ∃ ending ∈ ["", "\n", "\n\n"],
    store.read shadow.target = .ok (Text.utf8 (request.text ++ ending).toList) ∧
      "\n\n".toList <:+ (request.text ++ ending).toList ∧
      ∀ line < (Text.lines request.text.toList).length,
        (Text.lines (request.text ++ ending).toList)[line]? =
          (Text.lines request.text.toList)[line]?

/-- The counterpart of a file is never a directory. -/
theorem IsCounterpart.ne_directory (counts : IsCounterpart request base path entry) :
    entry ≠ .directory := by
  cases counts with
  | document | unsaved | linked | copied => exact nofun

/-- Every other file of a request that exists has a counterpart. -/
theorem IsMirrorable.exists_counterpart (mirrorable : IsMirrorable request number base)
    (other : IsOther request path) (there : base.has path) {unsaved : Option String}
    (known : request.unsaved path = .ok unsaved) :
    ∃ entry, IsCounterpart request base path entry := by
  cases unsaved with
  | some text => exact ⟨_, .unsaved other.other there known⟩
  | none =>
      obtain ⟨content, readable⟩ := mirrorable.readable path other there
      cases policy : base.links with
      | allowed => exact ⟨_, .linked other.other there known policy⟩
      | refused => exact ⟨_, .copied other.other there known policy readable⟩

/-- A counterpart that stands in the shadow reads as the live content of its file. -/
theorem IsFilled.read_counterpart (mirrorable : IsMirrorable request number base)
    (filled : IsFilled request (directory number) common base handled store)
    (other : IsOther request path) (there : base.has path) {unsaved : Option String}
    (known : request.unsaved path = .ok unsaved)
    (counts : IsCounterpart request base path entry)
    (stands : store.entry? ((directory number).descend own) = some entry) :
    store.read ((directory number).descend own) = liveContent base path unsaved := by
  cases counts with
  | document => exact absurd rfl other.other
  | unsaved _ _ given =>
      obtain rfl := Except.ok.inj (known.symm.trans given)
      exact filled.tree.read_of_file stands
  | copied _ _ saved _ readable =>
      obtain rfl := Except.ok.inj (known.symm.trans saved)
      rw [filled.tree.read_of_file stands, liveContent, readable]
  | linked _ _ saved allowed =>
      have short := mirrorable.short allowed path other there
      obtain rfl := Except.ok.inj (known.symm.trans saved)
      have named : ((directory number).descend own).parts ≠ [] := by simp [directory, Path.descend]
      have apart := mirrorable.unnamed path other
      -- the link of the shadow is one more on the way
      have leads : store.resolve ((directory number).descend own) = base.resolve path := by
        rw [filled.tree.resolve_of_link named stands, ← short]
        refine FileStore.follow_of_outside filled.outside (fun _ => mirrorable.empty) ?_
        rwa [short]
      obtain ⟨content, readable⟩ := mirrorable.readable path other there
      rw [liveContent, readable, FileStore.read_eq_ok_iff, FileStore.lookup?, leads,
        filled.outside _ apart]
      exact FileStore.read_eq_ok_iff.mp readable

/-- Where everything has its counterpart, a shadow shows the live state. -/
theorem IsFilled.shows {target : Path} (mirrorable : IsMirrorable request number base)
    (filled : IsFilled request (directory number) (extent request).1 base handled store)
    (all : ∀ path, path ∈ handled ↔ path ∈ paths request)
    (known : ∀ path, IsOther request path → ∃ unsaved, request.unsaved path = .ok unsaved)
    (placed : place (directory number) (extent request).1 request.document.normalize = .ok target) :
    Shows request base store ⟨directory number, target⟩ := by
  have document := document_mem_paths request
  have stands {path found : Path} {entry : FileEntry} (reached : path ∈ paths request)
      (counts : IsCounterpart request base path entry)
      (placed : place (directory number) (extent request).1 path = .ok found) :
      store.entry? found = some entry := by
    obtain ⟨own, rfl, rfl⟩ := place_eq_ok placed
    exact filled.kept own entry ((all _).mpr reached) counts
  have text := stands document .document placed
  refine ⟨placed, fun file inside => ⟨?_, ?_⟩, fun path other there => ?_, ?_⟩
  · -- what is no directory is the counterpart of a file, and so stands in the place of that file
    rintro ⟨entry, there, plain⟩
    obtain ⟨own, rfl⟩ := Path.isAncestorOf_iff.mp inside
    rcases filled.only own entry there with ⟨folder, -⟩ | ⟨member, counts⟩
    · exact absurd folder plain
    · have reached := (all _).mp member
      obtain ⟨own', same, placed'⟩ := mirrorable.exists_own reached
      obtain rfl := Path.descend_inj.mp same
      by_cases main : (extent request).1.descend own = request.document.normalize
      · rw [main, placed] at placed'
        exact Or.inl (Except.ok.inj placed').symm
      · exact Or.inr ⟨_, ⟨reached, main⟩, counts.has main, placed'⟩
  · rintro (rfl | ⟨path, other, there, placed'⟩)
    · exact ⟨_, text, nofun⟩
    · obtain ⟨unsaved, given⟩ := known path other
      obtain ⟨entry, counts⟩ := mirrorable.exists_counterpart other there given
      exact ⟨entry, stands other.reached counts placed', counts.ne_directory⟩
  · obtain ⟨own, -, placed'⟩ := mirrorable.exists_own other.reached
    obtain ⟨unsaved, given⟩ := known path other
    obtain ⟨entry, counts⟩ := mirrorable.exists_counterpart other there given
    exact ⟨_, unsaved, placed', given, filled.read_counterpart mirrorable other there given counts
      (stands other.reached counts placed')⟩
  · obtain ⟨ending, few, whole, blank, kept⟩ := withTrailingBlankLine_eq request.text
    rw [whole] at text
    exact ⟨ending, few, filled.tree.read_of_file text, blank, kept⟩

/-- **A shadow shows the live state.**  Where the directory of the document exists, and whatever
else is reached is a file that can be read or nothing at all, a shadow is made unless the work is
cancelled, an unsaved text cannot be asked for, or the document is a directory.  The files in a
shadow are the document, with its text and a blank line at the end, and all others that exist, with
what an editor shows of them. -/
theorem enter_shows (mirrorable : IsMirrorable request number store) :
    let work := enter request number store
    ((∀ count, request.cancelled count = none) →
      (∀ path ∈ paths request, ∃ unsaved, request.unsaved path = .ok unsaved) →
      ¬ store.isDirectory request.document.normalize →
      ∃ shadow, work.result = .ok shadow) ∧
    ∀ shadow, work.result = .ok shadow →
      shadow.root = directory number ∧ Shows request store work.store shadow := by
  intro work
  obtain ⟨unfailing, made⟩ := fill_filled mirrorable
  refine ⟨fun uncancelled known file => ?_, fun shadow entered => ?_⟩
  · cases failed : work.result with
    | ok shadow => exact ⟨shadow, rfl⟩
    | error fault =>
        rw [result_enter] at failed
        cases (fill_hinders request _ _).1 fault failed with
        | file fault => exact absurd (unfailing fault failed) file
        | cancelled given =>
            rw [uncancelled] at given
            cases given
        | unsaved reached given =>
            obtain ⟨unsaved, known⟩ := known _ reached
            cases given.symm.trans known
        | outside reached double => exact absurd (mirrorable.single _ reached) double
  · rw [result_enter] at entered
    obtain ⟨rootEq, placed, known, handled, all, filled⟩ := made shadow entered
    obtain ⟨root, target⟩ := shadow
    obtain rfl : root = directory number := rootEq
    refine ⟨rfl, ?_⟩
    simp only [work, enter_of_fill entered]
    exact filled.shows mirrorable all known placed

end

section

open scoped Trial

/-- A document that was never saved is shown beside a file that it reaches. -/
theorem enter_shows_folderTree :
    let request := couple ⟨.root, ["w", "A.ump"]⟩ ⟨.root, ["w", "d.ump", "b.ump"]⟩
    IsMirrorable request 1 folderTree ∧
      ∃ shadow, (enter request 1 folderTree).result = .ok shadow ∧
        Shows request folderTree (enter request 1 folderTree).store shadow := by
  intro request
  let file : Path := ⟨.root, ["w", "d.ump", "b.ump"]⟩
  have root : directory 1 = ⟨.root, ["tmp", "umple-shadow-1"]⟩ := rfl
  have regular : folderTree.IsRegular :=
    FileStore.isRegular_of_entries (by simp [folderTree]) (by decide)
  have leads := FileStore.resolve_of_linkless regular.unlinked
  have main : request.document.normalize = ⟨.root, ["w", "A.ump"]⟩ := rfl
  have reached (path : Path) (member : path ∈ paths request) :
      path = ⟨.root, ["w", "A.ump"]⟩ ∨ path = file :=
    (mem_paths_iff.mp member).imp_right List.mem_singleton.mp
  have only (path : Path) (other : IsOther request path) : path = file :=
    (reached path other.reached).resolve_left (main ▸ other.other)
  have mirrorable : IsMirrorable request 1 folderTree := by
    refine ⟨regular.isTree, rfl, rfl, fun path other => ?_, fun path member => ?_,
      ?_, fun path other _ => ⟨[], ?_⟩, fun _ path _ _ => ?_⟩
    · rw [leads, only path other, root]
      decide
    · rcases reached path member with rfl | rfl <;> rfl
    · rw [FileStore.isDirectory, FileStore.lookup?, leads, main]
      decide
    · rw [FileStore.read_eq_ok_iff, FileStore.lookup?, leads, only path other]
      rfl
    · rw [leads]
      exact folderTree.follow_of_unlinked _ path fun above _ => regular.unlinked above
  have absent : ¬ folderTree.isDirectory request.document.normalize := by
    rw [FileStore.isDirectory, FileStore.lookup?, leads, main]
    decide
  obtain ⟨entered, shows⟩ := enter_shows mirrorable
  obtain ⟨shadow, made⟩ := entered (fun _ => rfl) (fun _ _ => ⟨none, rfl⟩) absent
  exact ⟨mirrorable, shadow, made, (shows shadow made).2⟩

end

end Shadow

end ModelAssist
