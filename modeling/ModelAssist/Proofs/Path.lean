import ModelAssist.Path.Basic

/-!
# Paths

A normalized path is absolute and has no double dots, and normalizing leaves such paths as they are
(`Path.normalize_normalize`).  The text of a path reads back as that path (`Path.ofText_text`) if
its components are such as texts can write (`Path.IsPlain`), which the paths are that lookups come
across; what normalizing a text gives is the normalized path of its own text
(`Path.isCanonical_normalized`).  It makes no difference whether a directory is normalized before or
after a path is followed from it (`Path.normalize_normalize_join`).  What follows the last slash of
a text names the last component (`Path.ofText_append`).
Paths lie above those that they are a start of, and no path is sorted after what lies below it
(`Path.eq_of_sortsBefore`).
-/

namespace ModelAssist.Path

/-- Holds of absolute paths without double dots. -/
structure IsNormal (path : Path) : Prop where
  absolute : path.anchor ≠ .working
  dotless : ".." ∉ path.parts

/-- No double dots are left after all were resolved. -/
private theorem dotless_resolveDots {resolved : List String} (parts : List String)
    (dotless : ".." ∉ resolved) : ".." ∉ resolveDots resolved parts := by
  induction parts generalizing resolved with
  | nil => exact dotless
  | cons part rest ih =>
      rw [resolveDots]
      split
      · exact ih fun member => dotless (List.dropLast_subset resolved member)
      · next different =>
          refine ih fun member => ?_
          rcases List.mem_append.mp member with old | new
          · exact dotless old
          · exact different (List.mem_singleton.mp new).symm

/-- Without double dots nothing is to be resolved. -/
theorem resolveDots_of_dotless (resolved : List String) {parts : List String}
    (dotless : ".." ∉ parts) : resolveDots resolved parts = resolved ++ parts := by
  induction parts generalizing resolved with
  | nil => rw [resolveDots, List.append_nil]
  | cons part rest ih =>
      rw [List.mem_cons, not_or] at dotless
      rw [resolveDots, if_neg (Ne.symm dotless.1), ih _ dotless.2, List.append_assoc,
        List.singleton_append]

/-- A normalized path is normal. -/
theorem isNormal_normalize [Host] (path : Path) : path.normalize.IsNormal := by
  refine ⟨?_, dotless_resolveDots _ List.not_mem_nil⟩
  change (Host.workingDirectory.join path).anchor ≠ .working
  unfold join
  split
  · next absolute => simpa [isAbsolute] using absolute
  · exact Host.absolute

/-- A normal path is normalized already. -/
theorem IsNormal.normalize_eq [Host] {path : Path} (normal : path.IsNormal) :
    path.normalize = path := by
  have joined : Host.workingDirectory.join path = path := by
    rw [join, if_pos (by simpa [isAbsolute] using normal.absolute)]
  rw [normalize, joined, resolveDots_of_dotless _ normal.dotless, List.nil_append]

@[simp] theorem normalize_normalize [Host] (path : Path) :
    path.normalize.normalize = path.normalize :=
  (isNormal_normalize path).normalize_eq

/-- No piece of a path has a slash in it. -/
private theorem slash_not_mem_go {current text : List Char} (clean : '/' ∉ current) :
    ∀ piece ∈ pieces.go current text, '/' ∉ piece.toList := by
  induction text generalizing current with
  | nil =>
      intro piece member
      rw [pieces.go, List.mem_singleton] at member
      simpa [member] using clean
  | cons char rest ih =>
      by_cases slash : char = '/'
      · subst slash
        rw [pieces.go, List.forall_mem_cons]
        exact ⟨by simpa using clean, ih List.not_mem_nil⟩
      · rw [pieces.go.eq_3 _ _ _ (fun same => slash same)]
        apply ih
        rw [List.mem_cons, not_or]
        exact ⟨Ne.symm slash, clean⟩

/-- What a text writes is plain. -/
theorem isPlain_ofText (text : String) : (ofText text).IsPlain := by
  intro part member
  obtain ⟨piece, kept⟩ := List.mem_filter.mp member
  simp only [Bool.and_eq_true, decide_eq_true_eq] at kept
  exact ⟨kept.1, kept.2, slash_not_mem_go List.not_mem_nil part piece⟩

/-- Resolving dots leaves only parts that were there. -/
private theorem mem_resolveDots {resolved parts : List String} {part : String}
    (member : part ∈ resolveDots resolved parts) : part ∈ resolved ∨ part ∈ parts := by
  induction parts generalizing resolved with
  | nil => exact Or.inl member
  | cons first rest ih =>
      rw [resolveDots] at member
      split at member
      · rcases ih member with old | new
        · exact Or.inl (List.dropLast_subset resolved old)
        · exact Or.inr (List.mem_cons_of_mem _ new)
      · rcases ih member with old | new
        · rcases List.mem_append.mp old with older | same
          · exact Or.inl older
          · exact Or.inr (List.mem_singleton.mp same ▸ List.mem_cons_self)
        · exact Or.inr (List.mem_cons_of_mem _ new)

/-- Plain paths lead to plain paths. -/
theorem IsPlain.join {base path : Path} (plain : base.IsPlain) (plain' : path.IsPlain) :
    (base.join path).IsPlain := by
  unfold Path.join
  split
  · exact plain'
  · intro part member
    exact (List.mem_append.mp member).elim (plain part) (plain' part)

/-- A plain path is plain when it is normalized. -/
theorem IsPlain.normalize [Host] {path : Path} (plain : path.IsPlain) : path.normalize.IsPlain := by
  intro part member
  exact (mem_resolveDots member).elim (fun old => absurd old List.not_mem_nil)
    (Host.plain.join plain part)

/-- The parent of a plain path is plain. -/
theorem IsPlain.parent {path : Path} (plain : path.IsPlain) : path.parent.IsPlain :=
  fun part member => plain part (List.dropLast_subset _ member)

/-- A slash ends a piece. -/
private theorem go_append_slash (piece current rest : List Char) :
    pieces.go current (piece ++ '/' :: rest) = pieces.go current piece ++ pieces.go [] rest := by
  induction piece generalizing current with
  | nil => simp [pieces.go]
  | cons char piece ih =>
      by_cases slash : char = '/'
      · subst slash
        rw [List.cons_append, pieces.go, pieces.go, ih, List.cons_append]
      · rw [List.cons_append, pieces.go.eq_3 _ _ _ slash, pieces.go.eq_3 _ _ _ slash, ih]

/-- A text without a slash is one piece. -/
private theorem go_of_clean {piece : List Char} (clean : '/' ∉ piece) (current : List Char) :
    pieces.go current piece = [String.ofList (current.reverse ++ piece)] := by
  induction piece generalizing current with
  | nil => simp [pieces.go]
  | cons char piece ih =>
      rw [List.mem_cons, not_or] at clean
      rw [pieces.go.eq_3 _ _ _ (fun same => clean.1 same.symm), ih clean.2]
      simp

/-- What was joined by slashes falls into its pieces again. -/
private theorem go_intercalate {first : String} {rest : List String}
    (clean : ∀ part ∈ first :: rest, '/' ∉ part.toList) :
    pieces.go [] (String.intercalate "/" (first :: rest)).toList = first :: rest := by
  induction rest generalizing first with
  | nil =>
      rw [String.intercalate_singleton, go_of_clean (clean first List.mem_cons_self)]
      simp
  | cons second rest ih =>
      obtain ⟨cleanFirst, clean⟩ := List.forall_mem_cons.mp clean
      have slash : "/".toList = ['/'] := rfl
      rw [String.intercalate_cons_cons, String.toList_append, String.toList_append, slash,
        List.append_assoc, List.singleton_append, go_append_slash, go_of_clean cleanFirst, ih clean]
      simp

/-- Plain components are all that a text writes which slashes join. -/
private theorem filter_go {parts : List String} (plain : ∀ part ∈ parts, isPlainPart part) :
    (pieces.go [] (String.intercalate "/" parts).toList).filter
      (fun piece => piece ≠ "" && piece ≠ ".") = parts := by
  cases parts with
  | nil => rfl
  | cons first rest =>
      rw [go_intercalate fun part member => (plain part member).2.2, List.filter_eq_self]
      intro part member
      simp [(plain part member).1, (plain part member).2.1]

/-- What is joined of plain parts does not begin with a slash. -/
private theorem head?_intercalate {parts : List String} (plain : ∀ part ∈ parts, isPlainPart part) :
    (String.intercalate "/" parts).toList.head? ≠ some '/' := by
  cases parts with
  | nil => simp
  | cons first rest =>
      obtain ⟨nonempty, -, clean⟩ := plain first List.mem_cons_self
      cases chars : first.toList with
      | nil => exact absurd (String.toList_eq_nil_iff.mp chars) nonempty
      | cons char others =>
          have different : char ≠ '/' := by
            rintro rfl
            exact clean (chars ▸ List.mem_cons_self)
          rw [String.toList_intercalate, List.map_cons, chars, List.intercalate_cons_cons_left]
          simpa using different

/-- One slash in front anchors a path at the root. -/
private theorem anchorOf_slash {text body : String} (head : body.toList.head? ≠ some '/')
    (chars : text.toList = '/' :: body.toList) : anchorOf text = .root := by
  unfold anchorOf
  rw [chars]
  split
  · rfl
  · next same =>
      rw [(List.cons.inj same).2] at head
      exact absurd rfl head
  · rfl
  · next other => exact absurd rfl (other _)

/-- Two slashes in front anchor a path at the double root. -/
private theorem anchorOf_slash_slash {text body : String} (head : body.toList.head? ≠ some '/')
    (chars : text.toList = '/' :: '/' :: body.toList) : anchorOf text = .doubleRoot := by
  unfold anchorOf
  rw [chars]
  split
  · next same =>
      rw [(List.cons.inj (List.cons.inj same).2).2] at head
      exact absurd rfl head
  · rfl
  · next other same => exact absurd (List.cons.inj same).2.symm (other _)
  · next other => exact absurd rfl (other _)

/-- **The text of a path reads back as the path.** -/
theorem ofText_text {path : Path} (absolute : path.anchor ≠ .working) (plain : path.IsPlain) :
    ofText path.text = path := by
  obtain ⟨anchor, parts⟩ := path
  have head := head?_intercalate plain
  have kept := filter_go plain
  cases anchor with
  | working => exact absurd rfl absolute
  | root =>
      have chars : (text ⟨.root, parts⟩).toList = '/' :: (String.intercalate "/" parts).toList :=
        String.toList_append
      rw [ofText, anchorOf_slash head chars, pieces, chars, pieces.go]
      exact congrArg (Path.mk .root) kept
  | doubleRoot =>
      have chars : (text ⟨.doubleRoot, parts⟩).toList =
          '/' :: '/' :: (String.intercalate "/" parts).toList := String.toList_append
      rw [ofText, anchorOf_slash_slash head chars, pieces, chars, pieces.go, pieces.go]
      exact congrArg (Path.mk .doubleRoot) kept

/-- Absolute plain paths are told apart by their texts. -/
theorem eq_of_text_eq {first second : Path} (absolute : first.anchor ≠ .working)
    (plain : first.IsPlain) (absolute' : second.anchor ≠ .working) (plain' : second.IsPlain)
    (same : first.text = second.text) : first = second := by
  rw [← ofText_text absolute plain, same, ofText_text absolute' plain']

/-- The text of a normal path stands for that path. -/
theorem IsNormal.normalized_text [Host] {path : Path} (normal : path.IsNormal)
    (plain : path.IsPlain) : normalized path.text = path := by
  rw [normalized, ofText_text normal.absolute plain, normal.normalize_eq]

/-- Holds of the paths that are the normalized path of their own text, which writes a root and
components without dots. -/
structure IsCanonical [Host] (path : Path) : Prop where
  normal : path.IsNormal
  plain : path.IsPlain
  written : ∃ root ∈ ["/", "//"], path.text = root ++ String.intercalate "/" path.parts
  reads : normalized path.text = path

/-- A normal and plain path is canonical. -/
theorem IsNormal.isCanonical [Host] {path : Path} (normal : path.IsNormal) (plain : path.IsPlain) :
    path.IsCanonical := by
  refine ⟨normal, plain, ?_, normal.normalized_text plain⟩
  obtain ⟨anchor, parts⟩ := path
  cases anchor with
  | working => exact absurd rfl normal.absolute
  | root => exact ⟨"/", List.mem_cons_self, rfl⟩
  | doubleRoot => exact ⟨"//", List.mem_cons_of_mem _ List.mem_cons_self, rfl⟩

/-- Every text names a canonical path once it is normalized. -/
theorem isCanonical_normalized [Host] (text : String) : (normalized text).IsCanonical :=
  (isNormal_normalize _).isCanonical (isPlain_ofText text).normalize

open scoped Trial in
example : normalized "//a/./..//../b/" = ⟨.doubleRoot, ["b"]⟩ := by decide +kernel

/-! ## In a folder -/

/-- The leading slashes of a text. -/
private def slashes (text : List Char) : List Char :=
  text.takeWhile (· = '/')

/-- A text that does not begin with a slash has none in front. -/
private theorem slashes_of_ne {text : List Char} (head : ∀ rest, text ≠ '/' :: rest) :
    slashes text = [] := by
  cases text with
  | nil => rfl
  | cons char rest =>
      have different : char ≠ '/' := fun same => head rest (same ▸ rfl)
      simp [slashes, different]

/-- The count of its leading slashes decides where a text starts. -/
private theorem anchorOf_eq (text : String) :
    anchorOf text =
      match (slashes text.toList).length with
      | 0 => .working
      | 2 => .doubleRoot
      | _ => .root := by
  unfold anchorOf
  split
  · next rest same => simp [same, slashes]
  · next rest noThird same =>
      have alone : slashes rest = [] := slashes_of_ne noThird
      rw [slashes] at alone
      simp [same, slashes, alone]
  · next rest _ noSecond same =>
      have alone : slashes rest = [] := slashes_of_ne noSecond
      rw [slashes] at alone
      simp [same, slashes, alone]
  · next _ _ noFirst =>
      rw [slashes_of_ne noFirst]
      rfl

/-- What follows the last slash is no matter of the anchor. -/
private theorem anchorOf_append {folder last : List Char} (clean : '/' ∉ last) :
    anchorOf (String.ofList (folder ++ last)) = anchorOf (String.ofList folder) := by
  have none_ : last.takeWhile (· = '/') = [] :=
    slashes_of_ne fun rest same => clean (same ▸ List.mem_cons_self)
  have same : slashes (folder ++ last) = slashes folder := by
    rw [slashes, List.takeWhile_append, none_, List.append_nil]
    split
    · next whole => exact ((List.takeWhile_prefix _).eq_of_length whole).symm
    · rfl
  rw [anchorOf_eq, anchorOf_eq, String.toList_ofList, String.toList_ofList, same]

/-- What follows the last slash of a text is the last component of its path. -/
theorem ofText_append {folder last : List Char} (ends : folder = [] ∨ folder.getLast? = some '/')
    (clean : '/' ∉ last) (nonempty : last ≠ []) (dotless : last ≠ ['.']) :
    ofText (String.ofList (folder ++ last)) =
      (ofText (String.ofList folder)).child (String.ofList last) := by
  have named : String.ofList last ≠ "" ∧ String.ofList last ≠ "." := by
    constructor
    · intro same
      exact nonempty (by simpa using congrArg String.toList same)
    · intro same
      exact dotless (by simpa using congrArg String.toList same)
  have parts : (pieces (String.ofList (folder ++ last))).filter
        (fun piece => piece ≠ "" && piece ≠ ".") =
      (pieces (String.ofList folder)).filter (fun piece => piece ≠ "" && piece ≠ ".") ++
        [String.ofList last] := by
    have single := go_of_clean clean []
    rcases ends with rfl | ends
    · simp [pieces, pieces.go, single, named]
    · obtain ⟨above, rfl⟩ := List.getLast?_eq_some_iff.mp ends
      simp only [pieces, String.toList_ofList, List.append_assoc, List.singleton_append,
        go_append_slash, single]
      simp [pieces.go, named]
  rw [ofText, anchorOf_append clean, parts]
  rfl

/-- Dots are resolved from left to right. -/
theorem resolveDots_append (resolved first second : List String) :
    resolveDots resolved (first ++ second) = resolveDots (resolveDots resolved first) second := by
  induction first generalizing resolved with
  | nil => rfl
  | cons part rest ih =>
      rw [List.cons_append, resolveDots, resolveDots]
      split <;> exact ih _

/-- A name may be put behind a path before or after it is joined. -/
theorem join_child (base path : Path) (name : String) :
    base.join (path.child name) = (base.join path).child name := by
  have same : (path.child name).isAbsolute = path.isAbsolute := rfl
  rw [join, join, same]
  split
  · rfl
  · simp [child]

/-- An undotted name stays the last part when the path is brought into normal form. -/
theorem normalize_child [Host] (path : Path) {name : String} (undotted : name ≠ "..") :
    (path.child name).normalize = path.normalize.child name := by
  rw [normalize, join_child]
  simp [child, normalize, resolveDots_append, resolveDots, undotted]

/-! ## From a directory -/

/-- A relative path is looked up below the base. -/
theorem join_of_relative (base : Path) {path : Path} (relative : path.anchor = .working) :
    base.join path = ⟨base.anchor, base.parts ++ path.parts⟩ := by
  rw [join, if_neg (by simp [isAbsolute, relative])]

/-- An absolute path is taken as it is, whatever the base. -/
theorem join_of_absolute (base : Path) {path : Path} (absolute : path.anchor ≠ .working) :
    base.join path = path := by
  rw [join, if_pos (by simpa [isAbsolute] using absolute)]

/-- A path that is followed from a directory may be counted from anywhere together with it. -/
theorem join_join (first second third : Path) :
    first.join (second.join third) = (first.join second).join third := by
  by_cases relative : third.anchor = .working
  · rw [join_of_relative second relative, join_of_relative _ relative]
    obtain ⟨anchor, parts⟩ := second
    cases anchor <;> simp [join, isAbsolute]
  · rw [join_of_absolute second relative, join_of_absolute first relative,
      join_of_absolute _ relative]

/-- A relative path is followed from where the dots of its directory lead. -/
theorem normalize_join [Host] (base : Path) {path : Path} (relative : path.anchor = .working) :
    (base.join path).normalize =
      ⟨base.normalize.anchor, resolveDots base.normalize.parts path.parts⟩ := by
  rw [normalize, join_join, join_of_relative _ relative]
  exact congrArg (Path.mk _) (resolveDots_append [] _ _)

/-- It makes no difference whether the dots of a directory are resolved before or after a path is
followed from it. -/
theorem normalize_normalize_join [Host] (base path : Path) :
    (base.normalize.join path).normalize = (base.join path).normalize := by
  by_cases relative : path.anchor = .working
  · rw [normalize_join _ relative, normalize_join _ relative, normalize_normalize]
  · rw [join_of_absolute _ relative, join_of_absolute _ relative]

/-! ## Above and below -/

/-- The path of what lies some components below a directory. -/
def descend (directory : Path) (parts : List String) : Path :=
  ⟨directory.anchor, directory.parts ++ parts⟩

@[simp] theorem descend_nil (directory : Path) : directory.descend [] = directory := by
  simp [descend]

@[simp] theorem descend_descend (directory : Path) (first second : List String) :
    (directory.descend first).descend second = directory.descend (first ++ second) := by
  simp [descend]

@[simp] theorem descend_inj {directory : Path} {first second : List String} :
    directory.descend first = directory.descend second ↔ first = second := by
  simp [descend]

/-- A child lies one name below its directory. -/
theorem child_eq (directory : Path) (name : String) :
    directory.child name = directory.descend [name] := rfl

/-- The paths above a path are those it is reached from by going down. -/
theorem isAncestorOf_iff {above path : Path} :
    above.isAncestorOf path ↔ ∃ parts, path = above.descend parts := by
  obtain ⟨anchor, start⟩ := above
  obtain ⟨anchor', whole⟩ := path
  simp only [isAncestorOf, Bool.and_eq_true, decide_eq_true_eq, List.isPrefixOf_iff_prefix, descend,
    mk.injEq]
  constructor
  · rintro ⟨rfl, rest, rfl⟩
    exact ⟨rest, rfl, rfl⟩
  · rintro ⟨rest, rfl, rfl⟩
    exact ⟨rfl, List.prefix_append start rest⟩

/-- Going down leads below the directory one starts at. -/
theorem isAncestorOf_descend (directory : Path) (parts : List String) :
    directory.isAncestorOf (directory.descend parts) :=
  isAncestorOf_iff.mpr ⟨parts, rfl⟩

/-- Of two paths below one directory, one lies above the other exactly if its parts come first
there. -/
theorem descend_isAncestorOf_iff (directory : Path) {start parts : List String} :
    (directory.descend start).isAncestorOf (directory.descend parts) ↔ start <+: parts := by
  rw [isAncestorOf_iff]
  constructor
  · rintro ⟨rest, same⟩
    rw [descend_descend] at same
    exact ⟨rest, (descend_inj.mp same).symm⟩
  · rintro ⟨rest, rfl⟩
    exact ⟨rest, by simp⟩

theorem isAncestorOf_refl (path : Path) : path.isAncestorOf path :=
  isAncestorOf_iff.mpr ⟨[], by simp⟩

theorem isAncestorOf_trans {above middle path : Path} (first : above.isAncestorOf middle)
    (second : middle.isAncestorOf path) : above.isAncestorOf path := by
  obtain ⟨start, rfl⟩ := isAncestorOf_iff.mp first
  obtain ⟨rest, rfl⟩ := isAncestorOf_iff.mp second
  exact isAncestorOf_iff.mpr ⟨start ++ rest, by simp⟩

/-- Above a path below a directory stand what lies above the directory and what lies on the way. -/
theorem isAncestorOf_descend_iff {above directory : Path} {parts : List String} :
    above.isAncestorOf (directory.descend parts) ↔
      above.isAncestorOf directory ∨
        ∃ start, start <+: parts ∧ above = directory.descend start := by
  constructor
  · intro higher
    obtain ⟨rest, same⟩ := isAncestorOf_iff.mp higher
    obtain ⟨anchor, start⟩ := above
    obtain ⟨anchor', whole⟩ := directory
    simp only [descend, mk.injEq] at same
    obtain ⟨rfl, same⟩ := same
    rcases List.append_eq_append_iff.mp same with ⟨more, rfl, rfl⟩ | ⟨more, rfl, rfl⟩
    · exact Or.inr ⟨more, List.prefix_append more rest, rfl⟩
    · exact Or.inl (isAncestorOf_iff.mpr ⟨more, rfl⟩)
  · rintro (higher | ⟨start, shorter, rfl⟩)
    · exact isAncestorOf_trans higher (isAncestorOf_descend directory parts)
    · exact (descend_isAncestorOf_iff directory).mpr shorter

/-- A path that has a name is that name below its parent. -/
theorem parent_child_name {path : Path} (named : path.parts ≠ []) :
    path.parent.child path.name = path := by
  rw [child, parent, name, List.getLast?_eq_some_getLast named, Option.getD_some,
    List.dropLast_concat_getLast]

theorem parent_isAncestorOf (path : Path) : path.parent.isAncestorOf path := by
  obtain ⟨rest, same⟩ := List.dropLast_prefix path.parts
  refine isAncestorOf_iff.mpr ⟨rest, ?_⟩
  rw [descend, parent, same]

/-- What stands above a path but is not the path stands above its parent. -/
theorem isAncestorOf_parent {above path : Path} (higher : above.isAncestorOf path)
    (different : above ≠ path) : above.isAncestorOf path.parent := by
  obtain ⟨rest, rfl⟩ := isAncestorOf_iff.mp higher
  have below : rest ≠ [] := by
    rintro rfl
    exact different (descend_nil above).symm
  refine isAncestorOf_iff.mpr ⟨rest.dropLast, ?_⟩
  rw [parent, descend, descend, List.dropLast_append_of_ne_nil below]

/-- Going down one name and up again leads back. -/
theorem parent_child (directory : Path) (name : String) :
    (directory.child name).parent = directory := by
  simp [child, parent]

/-- Going up takes away the last of the parts gone down. -/
theorem parent_descend (directory : Path) {parts : List String} (named : parts ≠ []) :
    (directory.descend parts).parent = directory.descend parts.dropLast := by
  rw [parent, descend, descend, List.dropLast_append_of_ne_nil named]

/-- Two paths each above the other are one path. -/
theorem isAncestorOf_antisymm {first second : Path} (higher : first.isAncestorOf second)
    (lower : second.isAncestorOf first) : first = second := by
  obtain ⟨rest, rfl⟩ := isAncestorOf_iff.mp higher
  obtain ⟨back, same⟩ := isAncestorOf_iff.mp lower
  rw [descend_descend] at same
  have empty : rest ++ back = [] := by
    rw [← descend_inj, ← same, descend_nil]
  rw [(List.append_eq_nil_iff.mp empty).1, descend_nil]

/-- A path that has a name is not above its own parent. -/
theorem not_isAncestorOf_parent {path : Path} (named : path.parts ≠ []) :
    ¬ path.isAncestorOf path.parent := by
  intro higher
  obtain ⟨rest, same⟩ := isAncestorOf_iff.mp higher
  have lengths := congrArg (fun path => path.parts.length) same
  have := List.length_pos_iff.mpr named
  simp only [parent, descend, List.length_dropLast, List.length_append] at lengths
  omega

/-- What is above the parent is what is above the path, short of the path itself. -/
theorem isAncestorOf_parent_iff {above path : Path} (named : path.parts ≠ []) :
    above.isAncestorOf path.parent ↔ above.isAncestorOf path ∧ above ≠ path := by
  refine ⟨fun higher => ⟨isAncestorOf_trans higher (parent_isAncestorOf path), ?_⟩,
    fun strict => isAncestorOf_parent strict.1 strict.2⟩
  rintro rfl
  exact not_isAncestorOf_parent named higher

/-- Nothing stands above an anchor. -/
theorem eq_of_isAncestorOf_anchor {above : Path} {anchor : Anchor}
    (higher : above.isAncestorOf ⟨anchor, []⟩) : above = ⟨anchor, []⟩ := by
  obtain ⟨rest, same⟩ := isAncestorOf_iff.mp higher
  obtain ⟨rfl, parts⟩ := Path.mk.inj same
  exact congrArg (Path.mk above.anchor) (List.append_eq_nil_iff.mp parts.symm).1

/-! ## Order -/

/-- Sorted paths stand in ascending order. -/
theorem pairwise_sort (paths : List Path) :
    (sort paths).Pairwise fun first second => sortsBefore first second := by
  refine List.pairwise_mergeSort ?_ ?_ paths
  · intro first second third
    simp only [sortsBefore, Bool.not_eq_true', decide_eq_false_iff_not]
    exact List.le_trans
  · intro first second
    simp only [sortsBefore, Bool.or_eq_true, Bool.not_eq_true', decide_eq_false_iff_not]
    exact List.le_total first.sortKey second.sortKey

/-- No path is sorted after what lies below it. -/
theorem eq_of_sortsBefore {above path : Path} (named : above.parts ≠ [])
    (higher : above.isAncestorOf path) (before : sortsBefore path above) : above = path := by
  obtain ⟨rest, rfl⟩ := isAncestorOf_iff.mp higher
  obtain ⟨anchor, parts⟩ := above
  have start : (descend ⟨anchor, parts⟩ rest).sortKey = sortKey ⟨anchor, parts⟩ ++ rest := by
    cases anchor <;> simp_all [sortKey, descend]
  simp only [sortsBefore, Bool.not_eq_true', decide_eq_false_iff_not] at before
  have same := List.le_antisymm before (start ▸ List.IsPrefix.le (List.prefix_append _ rest))
  have empty : rest = [] := by simpa [start] using same
  rw [empty, descend_nil]

end ModelAssist.Path
