import ModelAssist.Proofs.FileStore.Tree

/-!
# Operations with nothing in the way

Where directories lead down to a free place, or nothing is on the way yet, a file can be written,
linked or copied there.  The store then holds the new entry and directories above it, and everything
else is as it was (`FileStore.Gains`).
-/

namespace ModelAssist

namespace FileStore

variable {store after next : FileStore} {path place directory source : Path} {entry : FileEntry}
  {content : List UInt8}

/-- Holds of the paths that lead through no symbolic links. -/
def IsDirect (store : FileStore) (path : Path) : Prop :=
  ∀ above : Path, above.isAncestorOf path → store.Unlinked above

/-- Holds of the paths on whose way is nothing but directories, and perhaps nothing at all. -/
def IsClear (store : FileStore) (path : Path) : Prop :=
  ∀ above : Path, above.isAncestorOf path →
    store.entry? above = none ∨ store.entry? above = some .directory

/-- What is left of a store when a place got an entry and, where there were none, directories above
it. -/
structure Gains (store after : FileStore) (place : Path) (entry : FileEntry) : Prop where
  policy : after.links = store.links
  entries : ∀ path, after.entry? path =
    if path = place then some entry
    else if path.isAncestorOf place then some .directory else store.entry? path

/-- A direct path leads to itself. -/
theorem IsDirect.resolve_eq (direct : store.IsDirect path) : store.resolve path = path :=
  resolve_of_unlinked direct

/-- A direct path is looked up under its own name. -/
theorem IsDirect.lookup?_eq (direct : store.IsDirect path) :
    store.lookup? path = store.entry? path := by
  rw [lookup?, direct.resolve_eq]

/-- What is above a direct path is direct. -/
theorem IsDirect.parent (direct : store.IsDirect path) : store.IsDirect path.parent :=
  fun above higher => direct above (Path.isAncestorOf_trans higher (Path.parent_isAncestorOf path))

/-- A path that is clear is direct. -/
theorem IsClear.isDirect (clear : store.IsClear path) : store.IsDirect path := by
  intro above higher target linked
  rcases clear above higher with missing | there
  · rw [missing] at linked
    cases linked
  · rw [there] at linked
    cases linked

/-- What is above a clear path is clear. -/
theorem IsClear.parent (clear : store.IsClear path) : store.IsClear path.parent :=
  fun above higher => clear above (Path.isAncestorOf_trans higher (Path.parent_isAncestorOf path))

namespace Gains

/-- What was gained is found at its place. -/
theorem entry?_place (gains : store.Gains after place entry) :
    after.entry? place = some entry := by
  rw [gains.entries, if_pos rfl]

/-- Directories stand above what was gained. -/
theorem entry?_above (gains : store.Gains after place entry) (higher : path.isAncestorOf place)
    (strict : path ≠ place) : after.entry? path = some .directory := by
  rw [gains.entries, if_neg strict, if_pos higher]

/-- Gaining an entry changes nothing apart from what is above it. -/
theorem entry?_of_not_above (gains : store.Gains after place entry)
    (apart : ¬ path.isAncestorOf place) : after.entry? path = store.entry? path := by
  rw [gains.entries, if_neg apart, if_neg]
  rintro rfl
  exact apart (Path.isAncestorOf_refl path)

/-- An entry below a directory leaves everything outside that directory as it was. -/
theorem entry?_outside {root : Path} {own : List String}
    (gains : store.Gains after (root.descend own) entry)
    (rooted : ∀ path : Path, path.isAncestorOf root → path ≠ root →
      store.entry? path = some .directory) (outside : ¬ root.isAncestorOf path) :
    after.entry? path = store.entry? path := by
  by_cases higher : path.isAncestorOf (root.descend own)
  · have above : path.isAncestorOf root := by
      rcases Path.isAncestorOf_descend_iff.mp higher with above | ⟨start, -, rfl⟩
      · exact above
      · exact absurd (Path.isAncestorOf_descend root start) outside
    have strict : path ≠ root := by
      rintro rfl
      exact outside (Path.isAncestorOf_refl _)
    rw [rooted path above strict]
    refine gains.entry?_above higher ?_
    rintro rfl
    exact outside (Path.isAncestorOf_descend root own)
  · exact gains.entry?_of_not_above higher

/-- A directory that is made is a directory, and so is all above it. -/
theorem entry?_directory (gains : store.Gains after directory .directory) :
    after.entry? path =
      if path.isAncestorOf directory then some .directory else store.entry? path := by
  rw [gains.entries]
  by_cases same : path = directory
  · rw [if_pos same, if_pos (same ▸ Path.isAncestorOf_refl path)]
  · rw [if_neg same]

/-- Gaining a directory keeps clear paths clear. -/
theorem isClear (gains : store.Gains after directory .directory) (clear : store.IsClear path) :
    after.IsClear path := by
  intro above higher
  rw [gains.entry?_directory]
  split
  · exact Or.inr rfl
  · exact clear above higher

/-- An entry may be put below a directory that was made. -/
theorem put (made : store.Gains next place.parent .directory) (named : place.parts ≠ [])
    (entry : FileEntry) : store.Gains (next.put place entry) place entry := by
  refine ⟨made.policy, fun path => ?_⟩
  rw [entry?_put, made.entry?_directory]
  simp only [Path.isAncestorOf_parent_iff named]
  by_cases same : path = place
  · rw [if_pos same, if_pos same]
  · by_cases higher : path.isAncestorOf place
    · simp [same, higher]
    · simp [same, higher]

/-- An entry in a free place keeps a tree a tree. -/
theorem isTree (gains : store.Gains after place entry) (tree : store.IsTree)
    (free : store.entry? place = none) : after.IsTree := by
  intro path other higher strict there
  by_cases below : path.isAncestorOf place
  · refine gains.entry?_above (Path.isAncestorOf_trans higher below) ?_
    rintro rfl
    exact strict (Path.isAncestorOf_antisymm higher below)
  · rw [gains.entry?_of_not_above below] at there
    have directory := tree higher strict there
    by_cases above : other.isAncestorOf place
    · refine gains.entry?_above above ?_
      rintro rfl
      rw [free] at directory
      cases directory
    · rw [gains.entry?_of_not_above above, directory]

end Gains

/-- A directory is gained if directories stand at it and above it, and all else is as before. -/
theorem gains_of_directory (policy : after.links = store.links)
    (entries : ∀ path, after.entry? path =
      if path.isAncestorOf directory then some .directory else store.entry? path) :
    store.Gains after directory .directory := by
  refine ⟨policy, fun path => ?_⟩
  rw [entries]
  by_cases same : path = directory
  · rw [if_pos same, if_pos (same ▸ Path.isAncestorOf_refl path)]
  · rw [if_neg same]

/-- A directory that was there is gained by doing nothing. -/
theorem gains_self (above : ∀ other : Path, other.isAncestorOf directory →
    store.entry? other = some .directory) : store.Gains store directory .directory := by
  refine gains_of_directory rfl fun path => ?_
  split
  · next higher => exact above path higher
  · rfl

/-- Gaining a directory above and then the directory is gaining the directory. -/
theorem Gains.below {higher : Path} (made : store.Gains next higher .directory)
    (further : next.Gains after directory .directory) (within : higher.isAncestorOf directory) :
    store.Gains after directory .directory := by
  refine gains_of_directory (further.policy.trans made.policy) fun path => ?_
  rw [further.entry?_directory, made.entry?_directory]
  by_cases inside : path.isAncestorOf directory
  · rw [if_pos inside, if_pos inside]
  · have apart : ¬ path.isAncestorOf higher :=
      fun lower => inside (Path.isAncestorOf_trans lower within)
    rw [if_neg inside, if_neg inside, if_neg apart]

/-- Putting a directory below another one is gaining it. -/
theorem gains_put_child (above : ∀ other : Path, other.isAncestorOf directory →
      store.entry? other = some .directory) (part : String) :
    store.Gains (store.put (directory.child part) .directory) (directory.child part)
      .directory := by
  refine Gains.put ?_ (by simp [Path.child]) .directory
  rw [Path.parent_child]
  exact gains_self above

/-- On a clear path all directories can be made. -/
theorem makeDirectoriesFrom_of_clear (target : Path) {parts : List String}
    (above : ∀ other : Path, other.isAncestorOf directory → store.entry? other = some .directory)
    (clear : store.IsClear (directory.descend parts)) :
    ∃ after, makeDirectoriesFrom store target directory parts = .ok after ∧
      store.Gains after (directory.descend parts) .directory := by
  -- down to the current directory everything is there already
  induction parts generalizing store directory with
  | nil => exact ⟨store, rfl, (Path.descend_nil directory).symm ▸ gains_self above⟩
  | cons part rest ih =>
      have split : directory.descend (part :: rest) = (directory.child part).descend rest := by
        rw [Path.child_eq, Path.descend_descend, List.singleton_append]
      have within := Path.isAncestorOf_descend (directory.child part) rest
      rw [split] at clear ⊢
      have childClear : store.IsClear (directory.child part) :=
        fun other higher => clear other (Path.isAncestorOf_trans higher within)
      rw [makeDirectoriesFrom, childClear.isDirect.lookup?_eq]
      rcases childClear _ (Path.isAncestorOf_refl _) with missing | there
      · have made := gains_put_child above part
        rw [missing, childClear.isDirect.resolve_eq]
        obtain ⟨after, afterEq, further⟩ := ih
          (fun other higher => by rw [made.entry?_directory, if_pos higher]) (made.isClear clear)
        exact ⟨after, afterEq, made.below further within⟩
      · rw [there]
        refine ih (fun other higher => ?_) clear
        by_cases same : other = directory.child part
        · rw [same, there]
        · exact above other
            (Path.parent_child directory part ▸ Path.isAncestorOf_parent higher same)

/-- Directories are made where nothing is in the way. -/
theorem makeDirectories_of_clear (clear : store.IsClear directory)
    (top : store.entry? ⟨directory.anchor, []⟩ = some .directory) :
    ∃ after, store.makeDirectories directory = .ok after ∧
      store.Gains after directory .directory := by
  refine makeDirectoriesFrom_of_clear directory (fun other higher => ?_) clear
  rw [Path.eq_of_isAncestorOf_anchor higher, top]

/-- A place where nothing stands has a name if there is something at the top. -/
theorem parts_ne_nil_of_free (top : store.entry? ⟨place.anchor, []⟩ = some .directory)
    (free : store.entry? place = none) : place.parts ≠ [] := by
  intro none_
  obtain ⟨anchor, parts⟩ := place
  obtain rfl : parts = [] := none_
  rw [top] at free
  cases free

/-- On a clear path a file can be written where nothing stands. -/
theorem write_of_clear (made : store.Gains next place.parent .directory)
    (clear : store.IsClear place) (free : store.entry? place = none)
    (named : place.parts ≠ []) (content : List UInt8) :
    ∃ after, next.write place content = .ok after ∧ store.Gains after place (.file content) := by
  have direct := (made.isClear clear).isDirect
  refine ⟨next.put place (.file content), ?_, made.put named _⟩
  have parent : next.isDirectory place.parent := by
    rw [isDirectory, direct.parent.lookup?_eq, made.entry?_place, decide_eq_true_eq]
  have missing : next.entry? place = none := by
    rw [made.entry?_of_not_above (Path.not_isAncestorOf_parent named), free]
  simp only [write, direct.resolve_eq, missing, parent, ↓reduceIte]

/-- A link is made in a free place of a directory, if links are made at all. -/
theorem makeLink?_of_clear (made : store.Gains next place.parent .directory)
    (clear : store.IsClear place) (free : store.entry? place = none)
    (named : place.parts ≠ []) (source : Path) :
    (store.links = .refused ∧ next.makeLink? source place = none) ∨
      store.links = .allowed ∧ ∃ after, next.makeLink? source place = some after ∧
        store.Gains after place (.link source) := by
  have direct := (made.isClear clear).isDirect
  have itself := next.resolveParent_child place.parent place.name
  rw [direct.parent.resolve_eq, Path.parent_child_name named] at itself
  have missing : next.entry? place = none := by
    rw [made.entry?_of_not_above (Path.not_isAncestorOf_parent named), free]
  simp only [makeLink?, itself, missing, made.policy]
  cases store.links with
  | refused => exact Or.inl ⟨rfl, rfl⟩
  | allowed => exact Or.inr ⟨rfl, _, rfl, made.put named _⟩

/-- On a clear path a file can be copied to where nothing stands. -/
theorem copy_of_clear (made : store.Gains next place.parent .directory)
    (clear : store.IsClear place) (free : store.entry? place = none)
    (named : place.parts ≠ []) (readable : next.read source = .ok content)
    (apart : next.resolve source ≠ place) :
    ∃ after, next.copy source place = .ok after ∧ store.Gains after place (.file content) := by
  obtain ⟨after, written, gains⟩ := write_of_clear made clear free named content
  refine ⟨after, ?_, gains⟩
  simp only [copy, (made.isClear clear).isDirect.resolve_eq, apart, decide_false, Bool.and_false,
    Bool.false_eq_true, ↓reduceIte, readable, bind, Except.bind]
  exact written

end FileStore

end ModelAssist
