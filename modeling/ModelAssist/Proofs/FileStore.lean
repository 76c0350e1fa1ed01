import ModelAssist.FileStore
import ModelAssist.Proofs.Path

/-!
# Changes of file stores

What the operations on a store change, by the entry under each path.  Making directories only adds
directories where nothing was (`FileStore.Extends`), and where a path leads depends on the symbolic
links alone (`FileStore.resolve_congr`).
-/

namespace ModelAssist

namespace FileStore

variable {store after : FileStore}

/-- The directories above a path as `put` lists them. -/
private theorem mem_above_iff {path other : Path} :
    other ∈ (List.range path.parts.length).map
        (fun count => (⟨path.anchor, path.parts.take count⟩ : Path)) ↔
      other.isAncestorOf path ∧ other ≠ path := by
  rw [List.mem_map, Path.isAncestorOf_iff]
  constructor
  · rintro ⟨count, small, rfl⟩
    refine ⟨⟨path.parts.drop count, by simp [Path.descend]⟩, fun same => ?_⟩
    have lengths := congrArg (fun path => path.parts.length) same
    rw [List.mem_range] at small
    simp only [List.length_take] at lengths
    omega
  · rintro ⟨⟨rest, rfl⟩, different⟩
    have below : rest ≠ [] := by
      rintro rfl
      exact different (Path.descend_nil other).symm
    refine ⟨other.parts.length, ?_, by simp [Path.descend]⟩
    have := List.length_pos_iff.mpr below
    rw [List.mem_range, Path.descend, List.length_append]
    omega

/-- Directories are added where nothing is, and nothing is overwritten. -/
private theorem get?_foldl_directory (directories : List Path)
    (entries : OrderedMap Path FileEntry) (other : Path) :
    (directories.foldl
        (fun entries directory =>
          if entries.contains directory then entries else entries.insert directory .directory)
        entries).get? other =
      if entries.get? other = none ∧ other ∈ directories then some .directory
      else entries.get? other := by
  induction directories generalizing entries with
  | nil => simp
  | cons first rest ih =>
      rw [List.foldl_cons, ih]
      by_cases known : entries.contains first
      · rw [if_pos known]
        have present : entries.get? first ≠ none := Option.isSome_iff_ne_none.mp known
        by_cases same : other = first
        · rw [same, if_neg (fun absent => present absent.1), if_neg fun absent => present absent.1]
        · simp [same]
      · rw [if_neg known]
        have absent : entries.get? first = none := Option.not_isSome_iff_eq_none.mp known
        rw [OrderedMap.get?_insert]
        by_cases same : other = first
        · simp [same, absent]
        · simp [same]

/-- Putting an entry changes nothing but its path and the missing directories above it. -/
theorem entry?_put (store : FileStore) (path other : Path) (entry : FileEntry) :
    entry? (store.put path entry) other =
      if other = path then some entry
      else if store.entry? other = none ∧ other.isAncestorOf path then some .directory
      else store.entry? other := by
  unfold put entry?
  simp only
  rw [OrderedMap.get?_insert, get?_foldl_directory]
  by_cases same : other = path
  · rw [if_pos same, if_pos same]
  · rw [if_neg same, if_neg same]
    simp only [mem_above_iff, and_iff_left same]

/-- Above an entry that was put something stands. -/
theorem entry?_put_ne_none (store : FileStore) {path other : Path} (entry : FileEntry)
    (higher : other.isAncestorOf path) :
    entry? (store.put path entry) other ≠ none := by
  rw [entry?_put]
  by_cases same : other = path
  · simp [same]
  · by_cases missing : store.entry? other = none
    · simp [same, missing, higher]
    · simp [same, missing]

/-- Nothing is left of a tree that was removed, and all else stays. -/
theorem entry?_removeTree (store : FileStore) (path other : Path) :
    entry? (store.removeTree path) other =
      if path.isAncestorOf other then none else store.entry? other := by
  obtain ⟨⟨entries⟩, links⟩ := store
  simp only [removeTree, entry?, OrderedMap.get?]
  induction entries with
  | nil => simp [OrderedMap.lookup]
  | cons entry rest ih =>
      rw [List.filter_cons]
      by_cases inside : path.isAncestorOf entry.1
      · simp only [inside, Bool.not_true, Bool.false_eq_true, ↓reduceIte, ih]
        by_cases same : entry.1 = other
        · rw [← same, if_pos inside, if_pos inside]
        · simp only [OrderedMap.lookup, same, ↓reduceIte]
      · simp only [inside, Bool.not_false, ↓reduceIte, OrderedMap.lookup, ih]
        by_cases same : entry.1 = other
        · rw [if_pos same, if_pos same, ← same, if_neg inside]
        · rw [if_neg same, if_neg same]

/-! ## Where paths lead -/

/-- Holds of the paths that no symbolic link stands under. -/
def Unlinked (store : FileStore) (path : Path) : Prop :=
  ∀ target, store.entry? path ≠ some (.link target)

@[simp] theorem follow_nil (store : FileStore) (fuel : Nat) (reached : Path) :
    store.follow fuel reached [] = reached := by
  cases fuel with
  | zero => simp [follow]
  | succ fuel => rfl

/-- Where no more links are followed, a path leads on as it is written. -/
theorem follow_zero (store : FileStore) (reached : Path) (rest : List String) :
    store.follow 0 reached rest = reached.descend rest :=
  rfl

/-- Without links that could be followed a walk goes on as the path is written. -/
theorem follow_onward {fuel : Nat} {reached : Path} {part : String} (rest : List String)
    (straight : fuel = 0 ∨ store.Unlinked (reached.child part)) :
    store.follow fuel reached (part :: rest) = store.follow fuel (reached.child part) rest := by
  cases fuel with
  | zero =>
      rw [follow_zero, follow_zero, Path.child_eq, Path.descend_descend, List.singleton_append]
  | succ fuel =>
      have unlinked := straight.resolve_left (Nat.succ_ne_zero fuel)
      rw [follow, walk]
      split
      · next target linked => exact absurd linked (unlinked target)
      · rfl

/-- Where no link stands, a walk goes on as the path is written. -/
theorem follow_child (fuel : Nat) {reached : Path} {part : String} (rest : List String)
    (unlinked : store.Unlinked (reached.child part)) :
    store.follow fuel reached (part :: rest) = store.follow fuel (reached.child part) rest :=
  follow_onward rest (.inr unlinked)

/-- A walk goes on behind a link from its target. -/
theorem follow_link (fuel : Nat) {reached target : Path} {part : String} (rest : List String)
    (linked : store.entry? (reached.child part) = some (.link target)) :
    store.follow (fuel + 1) reached (part :: rest) =
      store.follow fuel ⟨target.anchor, []⟩ (target.parts ++ rest) := by
  rw [follow, walk, linked]

/-- Induction on a walk: it ends, follows a link, or goes on as the path is written. -/
@[elab_as_elim]
theorem follow_induction (store : FileStore) {motive : Nat → Path → List String → Prop}
    (nil : ∀ fuel reached, motive fuel reached [])
    (link : ∀ fuel reached part rest target,
      store.entry? (reached.child part) = some (.link target) →
        motive fuel ⟨target.anchor, []⟩ (target.parts ++ rest) →
          motive (fuel + 1) reached (part :: rest))
    (onward : ∀ fuel reached part rest, fuel = 0 ∨ store.Unlinked (reached.child part) →
      motive fuel (reached.child part) rest → motive fuel reached (part :: rest))
    (fuel : Nat) (reached : Path) (rest : List String) : motive fuel reached rest := by
  induction fuel generalizing reached rest with
  | zero =>
      induction rest generalizing reached with
      | nil => exact nil 0 reached
      | cons part rest ih => exact onward 0 reached part rest (.inl rfl) (ih _)
  | succ fuel ihFuel =>
      induction rest generalizing reached with
      | nil => exact nil _ reached
      | cons part rest ih =>
          by_cases linked : ∃ target, store.entry? (reached.child part) = some (.link target)
          · obtain ⟨target, linked⟩ := linked
            exact link fuel reached part rest target linked (ihFuel _ _)
          · exact onward _ reached part rest (.inr (not_exists.mp linked)) (ih _)

/-- Walking leads on as the path is written until the first link. -/
theorem follow_append (store : FileStore) (fuel : Nat) (reached : Path)
    (walked rest : List String)
    (unlinked : ∀ start, start ≠ [] → start <+: walked → store.Unlinked (reached.descend start)) :
    store.follow fuel reached (walked ++ rest) =
      store.follow fuel (reached.descend walked) rest := by
  induction walked generalizing reached with
  | nil => simp
  | cons part walked ih =>
      have first : store.Unlinked (reached.child part) :=
        unlinked [part] (by simp) (List.prefix_append [part] walked)
      rw [List.cons_append, follow_child fuel _ first, ih]
      · rw [Path.child_eq, Path.descend_descend, List.singleton_append]
      · intro start _ inside
        rw [Path.child_eq, Path.descend_descend]
        exact unlinked _ (by simp) (List.cons_prefix_cons.mpr ⟨rfl, inside⟩)

/-- A path without links above it leads to itself. -/
theorem follow_of_unlinked (store : FileStore) (fuel : Nat) (path : Path)
    (unlinked : ∀ above : Path, above.isAncestorOf path → store.Unlinked above) :
    store.follow fuel ⟨path.anchor, []⟩ path.parts = path := by
  have walk := follow_append store fuel ⟨path.anchor, []⟩ path.parts []
    fun start _ shorter => unlinked _ (((Path.descend_isAncestorOf_iff _).mpr shorter))
  rwa [List.append_nil, follow_nil] at walk

/-- A path leads to itself where no links are on the way. -/
theorem resolve_of_unlinked {path : Path}
    (unlinked : ∀ above : Path, above.isAncestorOf path → store.Unlinked above) :
    store.resolve path = path :=
  follow_of_unlinked store linkLimit path unlinked

/-- No links stand where none are among the entries. -/
theorem unlinked_of_entries
    (linkless : ∀ entry ∈ store.entries.entries, ∀ target, entry.2 ≠ .link target) (path : Path) :
    store.Unlinked path :=
  fun target linked => linkless _ (OrderedMap.mem_entries_of_get? linked) target rfl

/-- Where no links stand, putting another entry makes none. -/
theorem unlinked_put (linkless : ∀ path, store.Unlinked path) (place : Path) {entry : FileEntry}
    (other : ∀ target, entry ≠ .link target) (path : Path) :
    (store.put place entry).Unlinked path := by
  intro target linked
  rw [entry?_put] at linked
  split at linked
  · exact other target (Option.some.inj linked)
  · split at linked
    · cases linked
    · exact linkless path target linked

/-- There are no links in a fresh store. -/
theorem unlinked_initial [Host] (links : LinkPolicy) (path : Path) :
    Unlinked (initial links) path :=
  unlinked_put (unlinked_put (unlinked_of_entries (by simp)) _ (by simp)) _ (by simp) path

/-- In a store without links every path leads to itself. -/
theorem resolve_of_linkless (linkless : ∀ path, store.Unlinked path) (path : Path) :
    store.resolve path = path :=
  resolve_of_unlinked fun above _ => linkless above

/-- In a store without links the text of a path is that of its own entry. -/
theorem readText?_of_linkless (linkless : ∀ path, store.Unlinked path) (path : Path) :
    store.readText? path =
      match store.entry? path with
      | some (.file content) => textOf? content
      | _ => none := by
  have leads : store.lookup? path = store.entry? path :=
    congrArg store.entry? (resolve_of_linkless linkless path)
  exact congrArg (fun entry? => match entry? with
    | some (.file content) => textOf? content
    | _ => none) leads

/-- Walks depend on the symbolic links alone. -/
theorem follow_congr
    (links : ∀ path target, store.entry? path = some (.link target) ↔
      after.entry? path = some (.link target)) (fuel : Nat) (reached : Path) (rest : List String) :
    store.follow fuel reached rest = after.follow fuel reached rest := by
  induction fuel, reached, rest using follow_induction store with
  | nil fuel reached => rw [follow_nil, follow_nil]
  | link fuel reached part rest target linked ih =>
      rw [follow_link fuel rest linked, follow_link fuel rest ((links _ _).mp linked), ih]
  | onward fuel reached part rest straight ih =>
      rw [follow_onward rest straight, ih]
      exact (follow_onward rest (straight.imp_right fun unlinked target linked =>
        unlinked target ((links _ _).mpr linked))).symm

/-- Where a path leads depends on the symbolic links alone. -/
theorem resolve_congr
    (links : ∀ path target, store.entry? path = some (.link target) ↔
      after.entry? path = some (.link target)) (path : Path) :
    store.resolve path = after.resolve path :=
  follow_congr links _ _ _

/-- A path leads to something if it leads to an entry that is no link of a ring. -/
theorem has_iff {path : Path} : store.has path = true ↔
    store.lookup? path ≠ none ∧ store.Unlinked (store.resolve path) := by
  unfold has Unlinked lookup?
  cases store.entry? (store.resolve path) with
  | none => simp
  | some entry => cases entry <;> simp

/-- A file can be read if its path leads to a regular one. -/
theorem read_eq_ok_iff {path : Path} {content : List UInt8} :
    store.read path = .ok content ↔ store.lookup? path = some (.file content) := by
  unfold read
  cases store.lookup? path with
  | none => simp
  | some entry => cases entry <;> simp

/-- The last name of a path is not followed. -/
theorem resolveParent_child (store : FileStore) (directory : Path) (name : String) :
    store.resolveParent (directory.child name) = (store.resolve directory).child name := by
  simp [resolveParent, Path.child, Path.parent]

/-! ## Operations that succeed -/

/-- What is left of a store by an operation that only makes directories where nothing was. -/
structure Extends (store after : FileStore) (made : Path → Prop) : Prop where
  policy : after.links = store.links
  entries : ∀ path, after.entry? path = store.entry? path ∨
    store.entry? path = none ∧ after.entry? path = some .directory ∧ made path

namespace Extends

variable {made : Path → Prop}

/-- Directories are made only where nothing was, so what was there stays. -/
theorem entry?_of_some (extended : store.Extends after made) {path : Path} {entry : FileEntry}
    (there : store.entry? path = some entry) : after.entry? path = some entry := by
  rcases extended.entries path with kept | ⟨missing, -⟩
  · rw [kept, there]
  · rw [missing] at there
    cases there

/-- Making directories makes no links and removes none. -/
theorem link_iff (extended : store.Extends after made) (path target : Path) :
    store.entry? path = some (.link target) ↔ after.entry? path = some (.link target) := by
  rcases extended.entries path with kept | ⟨missing, new, -⟩
  · rw [kept]
  · simp [missing, new]

/-- Making directories is no matter of where paths lead. -/
theorem resolve_eq (extended : store.Extends after made) (path : Path) :
    after.resolve path = store.resolve path :=
  (resolve_congr extended.link_iff path).symm

/-- Making directories is no matter of where the parents of paths lead. -/
theorem resolveParent_eq (extended : store.Extends after made) (path : Path) :
    after.resolveParent path = store.resolveParent path := by
  simp only [resolveParent, extended.resolve_eq]

/-- What is missing after directories were made was missing before. -/
theorem eq_none (extended : store.Extends after made) {path : Path}
    (missing : after.entry? path = none) : store.entry? path = none := by
  rcases extended.entries path with kept | ⟨there, -⟩
  · rw [← kept, missing]
  · exact there

/-- Putting an entry after making directories changes its path, and makes directories. -/
theorem entry?_put_of_ne (extended : store.Extends after made) {place path : Path}
    (entry : FileEntry) (other : path ≠ place) :
    entry? (after.put place entry) path = store.entry? path ∨
      store.entry? path = none ∧ entry? (after.put place entry) path = some .directory ∧
        (made path ∨ path.isAncestorOf place) := by
  rw [entry?_put, if_neg other]
  split
  · next missing =>
      rcases extended.entries path with kept | ⟨-, new, -⟩
      · exact Or.inr ⟨kept ▸ missing.1, rfl, Or.inr missing.2⟩
      · rw [new] at missing
        cases missing.1
  · exact (extended.entries path).imp_right fun ⟨missing, new, made⟩ => ⟨missing, new, Or.inl made⟩

end Extends

/-- Putting a directory where nothing was extends a store. -/
theorem extends_put {place : Path} (missing : store.entry? place = none) :
    store.Extends (store.put place .directory) (·.isAncestorOf place) := by
  refine ⟨rfl, fun path => ?_⟩
  rw [entry?_put]
  by_cases same : path = place
  · rw [if_pos same, same]
    exact Or.inr ⟨missing, rfl, Path.isAncestorOf_refl place⟩
  · rw [if_neg same]
    split
    · next made => exact Or.inr ⟨made.1, rfl, made.2⟩
    · exact Or.inl rfl

/-- Making directories makes some on the way down to them, where it finds directories or nothing. -/
theorem makeDirectoriesFrom_eq_ok {target directory : Path} {parts : List String}
    (made : makeDirectoriesFrom store target directory parts = .ok after) :
    store.Extends after (fun path =>
      ∃ start, start <+: parts ∧ path.isAncestorOf (store.resolve (directory.descend start))) ∧
    ∀ start, start ≠ [] → start <+: parts →
      store.lookup? (directory.descend start) = none ∨
        store.lookup? (directory.descend start) = some .directory := by
  induction parts generalizing store directory with
  | nil =>
      obtain rfl : store = after := Except.ok.inj made
      refine ⟨⟨rfl, fun path => Or.inl rfl⟩, fun start below shorter => ?_⟩
      exact absurd (List.prefix_nil.mp shorter) below
  | cons part rest ih =>
      -- The first component makes one directory or none; the others are made in what it leaves.
      obtain ⟨next, first, free, made⟩ : ∃ next : FileStore,
          store.Extends next (·.isAncestorOf (store.resolve (directory.descend [part]))) ∧
          (store.lookup? (directory.descend [part]) = none ∨
            store.lookup? (directory.descend [part]) = some .directory) ∧
          makeDirectoriesFrom next target (directory.descend [part]) rest = .ok after := by
        rw [makeDirectoriesFrom] at made
        split at made
        · next there => exact ⟨store, ⟨rfl, fun path => Or.inl rfl⟩, Or.inr there, made⟩
        · cases made
        · next missing => exact ⟨_, extends_put missing, Or.inl missing, made⟩
      obtain ⟨extended, ways⟩ := ih made
      simp only [Path.descend_descend, List.singleton_append, first.resolve_eq, lookup?]
        at extended ways
      refine ⟨⟨extended.policy.trans first.policy, fun path => ?_⟩, fun start below shorter => ?_⟩
      · rcases first.entries path with kept | ⟨missing, new, above⟩
        · rw [← kept]
          refine (extended.entries path).imp_right ?_
          rintro ⟨missing, new, start, shorter, above⟩
          exact ⟨missing, new, part :: start, List.cons_prefix_cons.mpr ⟨rfl, shorter⟩, above⟩
        · exact Or.inr ⟨missing, extended.entry?_of_some new, [part], by simp, above⟩
      · cases start with
        | nil => exact absurd rfl below
        | cons head start =>
            obtain ⟨rfl, inside⟩ := List.cons_prefix_cons.mp shorter
            by_cases last : start = []
            · rwa [last]
            · rcases first.entries (store.resolve (directory.descend (head :: start))) with
                kept | ⟨missing, -⟩
              · rw [lookup?, ← kept]
                exact ways start last inside
              · exact Or.inl missing

/-- Directories that were made stand above or at what the parts of a path lead to, where nothing or
a directory was before. -/
theorem makeDirectories_eq_ok {directory : Path}
    (made : store.makeDirectories directory = .ok after) :
    store.Extends after (fun path =>
      ∃ above : Path, above.isAncestorOf directory ∧ path.isAncestorOf (store.resolve above)) ∧
    ∀ above : Path, above.isAncestorOf directory → above.parts ≠ [] →
      store.lookup? above = none ∨ store.lookup? above = some .directory := by
  obtain ⟨extended, ways⟩ := makeDirectoriesFrom_eq_ok made
  have start {above : Path} (higher : above.isAncestorOf directory) :
      above = Path.descend ⟨directory.anchor, []⟩ above.parts ∧
        above.parts <+: directory.parts := by
    obtain ⟨rest, rfl⟩ := Path.isAncestorOf_iff.mp higher
    exact ⟨rfl, List.prefix_append above.parts rest⟩
  refine ⟨⟨extended.policy, fun path => ?_⟩, fun above higher below => ?_⟩
  · refine (extended.entries path).imp_right ?_
    rintro ⟨missing, new, walked, shorter, above⟩
    have higher := (Path.descend_isAncestorOf_iff ⟨directory.anchor, []⟩).mpr shorter
    exact ⟨missing, new, _, higher, above⟩
  · rw [(start higher).1]
    exact ways above.parts below (start higher).2

/-- A file is written where its path leads, over a file that may be read or where nothing was. -/
theorem write_eq_ok {path : Path} {content : List UInt8}
    (written : store.write path content = .ok after) :
    after = store.put (store.resolve path) (.file content) ∧
      store.entry? (store.resolve path) ≠ some .directory ∧
      store.entry? (store.resolve path) ≠ some .sealed := by
  simp only [write] at written
  split at written
  · cases written
  · cases written
  · next free readable =>
      split at written
      · exact ⟨(Except.ok.inj written).symm, free, readable⟩
      · cases written

/-- A link that was made stands where nothing was. -/
theorem makeLink?_eq_some {target path : Path} (made : store.makeLink? target path = some after) :
    store.links = .allowed ∧ store.entry? (store.resolveParent path) = none ∧
      after = store.put (store.resolveParent path) (.link target) := by
  simp only [makeLink?] at made
  split at made
  · next allowed missing => exact ⟨allowed, missing, (Option.some.inj made).symm⟩
  · cases made

/-- A file is copied to another place than its own. -/
theorem copy_eq_ok {source target : Path} (copied : store.copy source target = .ok after) :
    ∃ content, store.lookup? source = some (.file content) ∧
      store.resolve source ≠ store.resolve target ∧ store.write target content = .ok after := by
  simp only [copy, bind, Except.bind, throw, throwThe, MonadExceptOf.throw] at copied
  cases there : store.lookup? source with
  | none => simp [read, isFile, there] at copied
  | some entry =>
      cases entry with
      | file content =>
          by_cases same : store.resolve source = store.resolve target
          · simp [isFile, there, same] at copied
          · simp only [read, isFile, there, same, decide_false, Bool.and_false, Bool.false_eq_true,
              ↓reduceIte] at copied
            exact ⟨content, rfl, same, copied⟩
      | sealed =>
          by_cases same : store.resolve source = store.resolve target
          · simp [isFile, there, same] at copied
          · simp [read, isFile, there, same] at copied
      | directory => simp [read, isFile, there] at copied
      | link => simp [read, isFile, there] at copied

/-! ## Paths that lead anywhere

Symbolic links may lead in circles, so that a path can be as long as one likes without leaving the
tree.  But only so many links are followed, and therefore only finitely many paths lead to an entry
(`FileStore.mem_leading`).
-/

/-- A path leads on as it is written, or a link on the way leads it somewhere else. -/
theorem follow_cases (store : FileStore) (fuel : Nat) (reached : Path) (rest : List String) :
    store.follow fuel reached rest = reached.descend rest ∨
      ∃ fewer walked later target, fuel = fewer + 1 ∧ rest = walked ++ later ∧
        store.entry? (reached.descend walked) = some (.link target) ∧
        store.follow fuel reached rest =
          store.follow fewer ⟨target.anchor, []⟩ (target.parts ++ later) := by
  induction fuel, reached, rest using follow_induction store with
  | nil fuel reached =>
      left
      rw [follow_nil, Path.descend_nil]
  | link fewer reached part rest target linked =>
      exact .inr ⟨fewer, [part], rest, target, rfl, rfl, linked, follow_link fewer rest linked⟩
  | onward fuel reached part rest straight ih =>
      rw [follow_onward rest straight]
      rcases ih with plain | ⟨fewer, walked, later, target, spent, rfl, there, led⟩
      · left
        rw [plain, Path.child_eq, Path.descend_descend, List.singleton_append]
      · refine .inr ⟨fewer, part :: walked, later, target, spent, rfl, ?_, led⟩
        rwa [Path.child_eq, Path.descend_descend, List.singleton_append] at there

/-- The ways on which nothing but entries lie below a place, as they are written. -/
def straightWays (store : FileStore) (reached : Path) : List (List String) :=
  store.entries.keys.map fun path => path.parts.drop reached.parts.length

/-- The ways from a place that may lead to an entry when so many links are followed: those that are
written like that of an entry, and those that go on behind such a way if a link is there. -/
def ways (store : FileStore) : Nat → Path → List (List String)
  | 0, reached => store.straightWays reached
  | fewer + 1, reached =>
    store.straightWays reached ++ (store.straightWays reached).flatMap fun walked =>
      match store.entry? (reached.descend walked) with
      | some (.link target) =>
        (ways store fewer ⟨target.anchor, []⟩).map fun rest =>
          walked ++ rest.drop target.parts.length
      | _ => []

/-- The paths that may lead to an entry. -/
def leading (store : FileStore) : List Path :=
  [.working, .root, .doubleRoot].flatMap fun anchor =>
    (store.ways linkLimit ⟨anchor, []⟩).map fun parts => ⟨anchor, parts⟩

/-- What is written below a place leads to an entry by one of its straight ways. -/
theorem mem_straightWays {reached : Path} {rest : List String}
    (there : store.entry? (reached.descend rest) ≠ none) : rest ∈ store.straightWays reached := by
  refine List.mem_map.mpr ⟨reached.descend rest, ?_, by simp [Path.descend]⟩
  exact (OrderedMap.mem_keys_iff _ _).mpr (Option.isSome_iff_ne_none.mpr there)

/-- What leads to an entry is one of the ways. -/
theorem mem_ways {fuel : Nat} {reached : Path} {rest : List String}
    (leads : store.entry? (store.follow fuel reached rest) ≠ none) :
    rest ∈ store.ways fuel reached := by
  induction fuel generalizing reached rest with
  | zero =>
      rcases store.follow_cases 0 reached rest with straight | ⟨_, _, _, _, spent, _⟩
      · rw [straight] at leads
        exact mem_straightWays leads
      · cases spent
  | succ fewer ih =>
      rw [ways]
      rcases store.follow_cases (fewer + 1) reached rest with
        straight | ⟨_, walked, later, target, spent, rfl, linked, led⟩
      · rw [straight] at leads
        exact List.mem_append_left _ (mem_straightWays leads)
      · obtain rfl := Nat.succ.inj spent
        rw [led] at leads
        refine List.mem_append_right _ (List.mem_flatMap.mpr ⟨walked, ?_, ?_⟩)
        · exact mem_straightWays (by simp [linked])
        · rw [linked]
          exact List.mem_map.mpr ⟨target.parts ++ later, ih leads, by simp⟩

/-- Finitely many paths lead to an entry. -/
theorem mem_leading {path : Path} (leads : store.lookup? path ≠ none) :
    path ∈ store.leading := by
  obtain ⟨anchor, parts⟩ := path
  refine List.mem_flatMap.mpr ⟨anchor, ?_, List.mem_map.mpr ⟨parts, mem_ways leads, rfl⟩⟩
  cases anchor <;> simp

end FileStore

end ModelAssist
