import Mathlib.Data.List.Basic
import ModelAssist.Import.Closure
import ModelAssist.Proofs.Path
import ModelAssist.Shadow

/-!
# Places in a shadow

A shadow repeats what lies below the common directory of a document and of what it reaches
(`Shadow.place_eq`).  A relative `use` path therefore leads from place to place as it leads from
file to file as long as it does not climb above that directory, and a path that climbs above it
leads out of the shadow (`Shadow.resolve_place_iff`).
-/

namespace ModelAssist

namespace Path

/-- How many levels above the directory where it starts a relative path gets. -/
def climb : List String → Nat
  | [] => 0
  | part :: rest => if part = ".." then climb rest + 1 else climb rest - 1

/-- A path that starts deep enough below a directory stays below it. -/
theorem resolveDots_append_of_climb_le (base : List String) {own steps : List String}
    (low : climb steps ≤ own.length) :
    resolveDots (base ++ own) steps = base ++ resolveDots own steps := by
  induction steps generalizing own with
  | nil => rfl
  | cons part rest ih =>
      rw [climb] at low
      rw [resolveDots, resolveDots]
      by_cases dots : part = ".."
      · rw [if_pos dots] at low
        have deep : own ≠ [] := List.ne_nil_of_length_pos (by omega)
        rw [if_pos dots, if_pos dots, List.dropLast_append_of_ne_nil deep]
        exact ih (by rw [List.length_dropLast]; omega)
      · rw [if_neg dots] at low
        rw [if_neg dots, if_neg dots, List.append_assoc]
        exact ih (by rw [List.length_append, List.length_singleton]; omega)

/-- No path leads into a directory that it starts outside of, unless it names it. -/
theorem not_isPrefix_resolveDots {base outside steps : List String} {last : String}
    (ends : base.getLast? = some last) (unnamed : last ∉ steps) (left : ¬ base <+: outside) :
    ¬ base <+: resolveDots outside steps := by
  induction steps generalizing outside with
  | nil => exact left
  | cons part rest ih =>
      rw [List.mem_cons, not_or] at unnamed
      rw [resolveDots]
      split
      · exact ih unnamed.2 fun inside => left (inside.trans (List.dropLast_prefix outside))
      · refine ih unnamed.2 fun inside => ?_
        rcases List.prefix_concat_iff.mp inside with same | before
        · rw [same, List.getLast?_concat] at ends
          exact unnamed.1 (Option.some.inj ends).symm
        · exact left before

/-- A path that climbs above the directory that it starts below does not lead back into it, unless
it names it. -/
theorem climb_le_of_isPrefix {base own steps : List String} {last : String}
    (ends : base.getLast? = some last) (unnamed : last ∉ steps)
    (inside : base <+: resolveDots (base ++ own) steps) : climb steps ≤ own.length := by
  induction steps generalizing own with
  | nil => exact Nat.zero_le _
  | cons part rest ih =>
      rw [List.mem_cons, not_or] at unnamed
      rw [resolveDots] at inside
      rw [climb]
      by_cases dots : part = ".."
      · rw [if_pos dots] at inside ⊢
        by_cases deep : own = []
        · -- At the directory itself the step leaves it, and the steps left over do not come back.
          have left : ¬ base <+: base.dropLast := by
            intro within
            have shorter := within.length_le
            rw [List.length_dropLast] at shorter
            have nonempty : base ≠ [] := by
              rintro rfl
              cases ends
            have := List.length_pos_of_ne_nil nonempty
            omega
          rw [deep, List.append_nil] at inside
          exact absurd inside (not_isPrefix_resolveDots ends unnamed.2 left)
        · rw [List.dropLast_append_of_ne_nil deep] at inside
          have below := ih unnamed.2 inside
          have := List.length_pos_of_ne_nil deep
          rw [List.length_dropLast] at below
          omega
      · rw [if_neg dots] at inside ⊢
        rw [List.append_assoc] at inside
        have below := ih unnamed.2 inside
        rw [List.length_append, List.length_singleton] at below
        omega

/-- From a normal directory a relative path is followed by its components. -/
theorem normalize_join_of_relative [Host] {directory path : Path} (normal : directory.IsNormal)
    (relative : path.anchor = .working) :
    (directory.join path).normalize =
      ⟨directory.anchor, resolveDots directory.parts path.parts⟩ := by
  rw [normalize_join directory relative, normal.normalize_eq]

/-- The parent of a normal path is normal. -/
theorem IsNormal.parent {path : Path} (normal : path.IsNormal) : path.parent.IsNormal :=
  ⟨normal.absolute, fun member => normal.dotless (List.dropLast_subset _ member)⟩

/-- What two lists have in common at the start is a start of both. -/
theorem commonStart_isPrefix (first second : List String) :
    commonStart first second <+: first ∧ commonStart first second <+: second := by
  induction first generalizing second with
  | nil => simp [commonStart]
  | cons left lefts ih =>
      cases second with
      | nil => simp [commonStart]
      | cons right rights =>
          rw [commonStart]
          split
          · next same =>
              rw [same]
              exact ⟨List.cons_prefix_cons.mpr ⟨rfl, (ih rights).1⟩,
                List.cons_prefix_cons.mpr ⟨rfl, (ih rights).2⟩⟩
          · exact ⟨List.nil_prefix, List.nil_prefix⟩

/-- What the paths have in common at the start is a start of each. -/
theorem foldl_commonStart_isPrefix (paths : List Path) (first : List String) :
    paths.foldl (fun common path => commonStart common path.parts) first <+: first ∧
      ∀ path ∈ paths,
        paths.foldl (fun common path => commonStart common path.parts) first <+: path.parts := by
  induction paths generalizing first with
  | nil => simp
  | cons path rest ih =>
      obtain ⟨below, others⟩ := ih (commonStart first path.parts)
      have start := commonStart_isPrefix first path.parts
      exact ⟨below.trans start.1, List.forall_mem_cons.mpr ⟨below.trans start.2, others⟩⟩

/-- Absolute paths have a common directory, and it lies above all of them. -/
theorem commonAncestor_eq_ok {paths : List Path} (some : paths ≠ [])
    (absolute : ∀ path ∈ paths, path.anchor ≠ .working) :
    ∃ parts, commonAncestor paths = .ok ⟨.root, parts⟩ ∧
      ∀ path ∈ paths, parts <+: path.parent.parts := by
  cases paths with
  | nil => exact absurd rfl some
  | cons first rest =>
      obtain ⟨absoluteFirst, absoluteRest⟩ := List.forall_mem_cons.mp absolute
      have isAbsolute_ : ∀ {path : Path}, path.anchor ≠ .working → path.parent.isAbsolute = true :=
        fun absolute => decide_eq_true absolute
      have unmixed : ((rest.map parent).any (·.isAbsolute ≠ first.parent.isAbsolute)) = false := by
        rw [List.any_eq_false]
        intro directory member
        obtain ⟨path, inside, rfl⟩ := List.mem_map.mp member
        simp [isAbsolute_ absoluteFirst, isAbsolute_ (absoluteRest path inside)]
      have below := foldl_commonStart_isPrefix (rest.map parent) first.parent.parts
      refine ⟨(rest.map parent).foldl (fun common path => commonStart common path.parts)
        first.parent.parts, ?_, List.forall_mem_cons.mpr ⟨below.1, ?_⟩⟩
      · simp only [commonAncestor, List.map_cons]
        rw [unmixed, isAbsolute_ absoluteFirst]
        rfl
      · exact fun path inside => below.2 _ (List.mem_map_of_mem inside)

end Path

namespace Shadow

variable {request : ShadowRequest}

/-- Keeping what is not kept yet keeps exactly the paths found. -/
theorem mem_foldl_kept (found kept : List Path) {path : Path} :
    path ∈ found.foldl (fun kept path => if kept.contains path then kept else kept ++ [path]) kept ↔
      path ∈ kept ∨ path ∈ found := by
  induction found generalizing kept with
  | nil => simp
  | cons first rest ih =>
      rw [List.foldl_cons, ih, List.mem_cons]
      split
      · next known =>
          rw [List.contains_iff_mem] at known
          constructor
          · exact Or.imp_right Or.inr
          · rintro (old | rfl | new)
            exacts [Or.inl old, Or.inl known, Or.inr new]
      · rw [List.mem_append, List.mem_singleton, or_assoc]

/-- Keeping what is not kept yet keeps no path twice. -/
theorem nodup_foldl_kept (found : List Path) {kept : List Path} (distinct : kept.Nodup) :
    (found.foldl (fun kept path => if kept.contains path then kept else kept ++ [path])
      kept).Nodup := by
  induction found generalizing kept with
  | nil => exact distinct
  | cons first rest ih =>
      rw [List.foldl_cons]
      split
      · exact ih distinct
      · next new =>
          rw [List.contains_iff_mem] at new
          exact ih (List.nodup_append.mpr ⟨distinct, by simp,
            fun _ member _ last same => new (List.mem_singleton.mp last ▸ same ▸ member)⟩)

section

variable [Host]

/-- No path of a request is listed twice. -/
theorem nodup_paths (request : ShadowRequest) : (paths request).Nodup := by
  unfold paths Path.sort
  exact (List.mergeSort_perm _ _).nodup_iff.mpr (nodup_foldl_kept _ List.nodup_nil)

/-- A shadow is made for the document and for what it reaches. -/
theorem mem_paths_iff {path : Path} :
    path ∈ paths request ↔
      path = request.document.normalize ∨ path ∈ request.reachable.map Path.normalize := by
  unfold paths Path.sort
  rw [List.mem_mergeSort, mem_foldl_kept, List.mem_cons]
  simp

/-- The document is among the paths of its request. -/
theorem document_mem_paths (request : ShadowRequest) :
    request.document.normalize ∈ paths request :=
  mem_paths_iff.mpr (Or.inl rfl)

/-- The paths of a request are normal. -/
theorem isNormal_of_mem_paths {path : Path} (member : path ∈ paths request) : path.IsNormal := by
  rcases mem_paths_iff.mp member with rfl | reached
  · exact Path.isNormal_normalize _
  · obtain ⟨file, -, rfl⟩ := List.mem_map.mp reached
    exact Path.isNormal_normalize _

/-- The directory that a shadow repeats lies above everything that the shadow is made for. -/
theorem extent_eq (request : ShadowRequest) :
    ∃ parts, extent request = (⟨.root, parts⟩, paths request) ∧
      ∀ path ∈ paths request, parts <+: path.parent.parts := by
  have some : paths request ≠ [] := List.ne_nil_of_mem (document_mem_paths request)
  obtain ⟨parts, commonEq, above⟩ := Path.commonAncestor_eq_ok some
    fun path member => (isNormal_of_mem_paths member).absolute
  refine ⟨parts, ?_, above⟩
  simp only [extent, commonEq]

/-- The files that a shadow extends over are the paths of its request. -/
theorem snd_extent (request : ShadowRequest) : (extent request).2 = paths request := by
  obtain ⟨parts, extentEq, -⟩ := extent_eq request
  rw [extentEq]

end

/-- What lies below the common directory has its place at the same components below the root. -/
theorem place_append (root : Path) (anchor : Anchor) (parts : List String) {own : List String}
    (dotless : ".." ∉ own) :
    place root ⟨anchor, parts⟩ ⟨anchor, parts ++ own⟩ = .ok ⟨root.anchor, root.parts ++ own⟩ := by
  unfold place Path.partsBelow? Path.isAncestorOf
  simp [dotless]

/-- What has a place in a shadow lies below the common directory. -/
theorem place_eq_ok {root common path found : Path} (placed : place root common path = .ok found) :
    ∃ own, path = common.descend own ∧ found = root.descend own := by
  unfold place Path.partsBelow? at placed
  by_cases below : common.isAncestorOf path
  · rw [if_pos below] at placed
    obtain ⟨own, rfl⟩ := Path.isAncestorOf_iff.mp below
    refine ⟨own, rfl, ?_⟩
    simp only [Path.descend, List.drop_left] at placed
    split at placed
    · cases placed
    · exact (Except.ok.inj placed).symm
  · rw [if_neg below] at placed
    cases placed

/-- Every file of a shadow lies some components below the common directory, and its place as many
components below the root of the shadow. -/
theorem place_eq [Host] (root : Path) {path : Path} (member : path ∈ paths request)
    (single : path.anchor = .root) :
    ∃ own, path.parts = (extent request).1.parts ++ own ∧ (path.parts ≠ [] → own ≠ []) ∧
      place root (extent request).1 path = .ok ⟨root.anchor, root.parts ++ own⟩ := by
  obtain ⟨parts, extentEq, above⟩ := extent_eq request
  have inside := above path member
  obtain ⟨own, split⟩ := inside.trans (List.dropLast_prefix path.parts)
  refine ⟨own, by rw [extentEq, split], ?_, ?_⟩
  · rintro named rfl
    rw [List.append_nil] at split
    have shorter := inside.length_le
    have nonempty := List.length_pos_of_ne_nil named
    rw [split, Path.parent, List.length_dropLast] at shorter
    omega
  · obtain ⟨anchor, pathParts⟩ := path
    obtain rfl : anchor = .root := single
    obtain rfl : parts ++ own = pathParts := split
    rw [extentEq]
    refine place_append root .root parts fun dots => ?_
    exact (isNormal_of_mem_paths member).dotless (List.mem_append_right _ dots)

/-- **Relative imports work in a shadow exactly if they do not climb above the common directory.**
Where an import of one file leads to another, the same import leads from place to place if it climbs
no higher than that directory lies.  One that climbs higher does not, unless it names the directory
of the shadow itself. -/
theorem resolve_place_iff [Host] {root first second : Path} {use : String} (normal : root.IsNormal)
    (memberFirst : first ∈ paths request) (memberSecond : second ∈ paths request)
    (single : first.anchor = .root) (named : first.parts ≠ [])
    (relative : (Path.ofText use).anchor = .working)
    (leads : ImportGraph.resolve use first.parent = second) :
    ∃ placeFirst placeSecond,
      place root (extent request).1 first = .ok placeFirst ∧
      place root (extent request).1 second = .ok placeSecond ∧
      ((extent request).1.parts.length + Path.climb (Path.ofText use).parts ≤
          first.parent.parts.length →
        ImportGraph.resolve use placeFirst.parent = placeSecond) ∧
      (root.parts ≠ [] → root.name ∉ (Path.ofText use).parts →
        ImportGraph.resolve use placeFirst.parent = placeSecond →
        (extent request).1.parts.length + Path.climb (Path.ofText use).parts ≤
          first.parent.parts.length) := by
  have normalFirst := isNormal_of_mem_paths memberFirst
  have secondEq : second =
      ⟨.root, Path.resolveDots first.parent.parts (Path.ofText use).parts⟩ := by
    rw [← leads, ImportGraph.resolve, Path.normalize_join_of_relative normalFirst.parent relative]
    exact congrArg (Path.mk · _) single
  obtain ⟨ownFirst, firstParts, deep, placeFirst⟩ := place_eq root memberFirst single
  obtain ⟨ownSecond, secondParts, -, placeSecond⟩ :=
    place_eq root memberSecond (by rw [secondEq])
  have above : first.parent.parts = (extent request).1.parts ++ ownFirst.dropLast := by
    rw [Path.parent, firstParts, List.dropLast_append_of_ne_nil (deep named)]
  have normalPlace : Path.IsNormal ⟨root.anchor, root.parts ++ ownFirst.dropLast⟩ := by
    refine ⟨normal.absolute, fun member => ?_⟩
    rcases List.mem_append.mp member with outside | inside
    · exact normal.dotless outside
    · refine normalFirst.dotless ?_
      rw [firstParts]
      exact List.mem_append_right _ (List.dropLast_subset _ inside)
  have moved : ImportGraph.resolve use (Path.parent ⟨root.anchor, root.parts ++ ownFirst⟩) =
      ⟨root.anchor,
        Path.resolveDots (root.parts ++ ownFirst.dropLast) (Path.ofText use).parts⟩ := by
    rw [ImportGraph.resolve, Path.parent, List.dropLast_append_of_ne_nil (deep named),
      Path.normalize_join_of_relative normalPlace relative]
  refine ⟨_, _, placeFirst, placeSecond, ?_, ?_⟩
  · intro low
    rw [above, List.length_append, Nat.add_le_add_iff_left] at low
    have own : ownSecond = Path.resolveDots ownFirst.dropLast (Path.ofText use).parts := by
      rw [secondEq, above, Path.resolveDots_append_of_climb_le _ low] at secondParts
      exact (List.append_cancel_left secondParts).symm
    rw [moved, Path.resolveDots_append_of_climb_le _ low, own]
  · intro below unnamed same
    rw [above, List.length_append, Nat.add_le_add_iff_left]
    have ends : root.parts.getLast? = some root.name := by
      rw [Path.name, List.getLast?_eq_some_getLast below]
      rfl
    refine Path.climb_le_of_isPrefix ends unnamed ⟨ownSecond, ?_⟩
    rw [moved] at same
    exact (congrArg Path.parts same).symm

/-- A document that reaches one other file. -/
def couple (document file : Path) : ShadowRequest where
  document := document
  text := ""
  reachable := [file]
  unsaved _ := .ok none
  cancelled _ := none

section

open scoped Trial

theorem resolve_place_couple :
    (∀ path ∈ [⟨.root, ["w", "p", "A.ump"]⟩, ⟨.root, ["w", "q", "B.ump"]⟩],
      path ∈ paths (couple ⟨.root, ["w", "p", "A.ump"]⟩ ⟨.root, ["w", "q", "B.ump"]⟩)) ∧
    ImportGraph.resolve "../q/B.ump" ⟨.root, ["w", "p"]⟩ = ⟨.root, ["w", "q", "B.ump"]⟩ ∧
      ImportGraph.resolve "../q/B.ump" ⟨.root, ["tmp", "umple-shadow-1", "p"]⟩ =
        ⟨.root, ["tmp", "umple-shadow-1", "q", "B.ump"]⟩ := by
  let document : Path := ⟨.root, ["w", "p", "A.ump"]⟩
  let file : Path := ⟨.root, ["w", "q", "B.ump"]⟩
  have sorted : paths (couple document file) = [document, file] :=
    List.mergeSort_of_pairwise (by decide)
  have common : (extent (couple document file)).1 = ⟨.root, ["w"]⟩ := by
    simp only [extent, sorted]
    rfl
  have root : directory 1 = ⟨.root, ["tmp", "umple-shadow-1"]⟩ := rfl
  have normal : (directory 1).IsNormal := root ▸ ⟨by decide, by decide⟩
  have members : ∀ path ∈ [document, file], path ∈ paths (couple document file) := by
    rw [sorted]
    exact fun path member => member
  have leads : ImportGraph.resolve "../q/B.ump" document.parent = file := rfl
  obtain ⟨placeFirst, placeSecond, firstEq, secondEq, stays, -⟩ :=
    resolve_place_iff normal (members document (by decide)) (members file (by decide)) rfl
      (by decide) rfl leads
  rw [common, root] at firstEq secondEq
  have moved := stays (by rw [common]; decide)
  rw [← Except.ok.inj firstEq, ← Except.ok.inj secondEq] at moved
  exact ⟨members, leads, moved⟩

/-- An import that leaves the common directory and comes back by its name leads out of a shadow. -/
theorem not_resolve_place :
    ¬ ∀ (request : ShadowRequest) (number : Nat) (first second placeFirst placeSecond : Path)
      (use : String), first ∈ paths request → second ∈ paths request →
      (Path.ofText use).anchor = .working → ImportGraph.resolve use first.parent = second →
      place (directory number) (extent request).1 first = .ok placeFirst →
      place (directory number) (extent request).1 second = .ok placeSecond →
      ImportGraph.resolve use placeFirst.parent = placeSecond := by
  intro preserved
  let document : Path := ⟨.root, ["w", "A.ump"]⟩
  let file : Path := ⟨.root, ["w", "B.ump"]⟩
  have sorted : paths (couple document file) = [document, file] :=
    List.mergeSort_of_pairwise (by decide)
  have common : (extent (couple document file)).1 = ⟨.root, ["w"]⟩ := by
    simp only [extent, sorted]
    rfl
  have root : directory 1 = ⟨.root, ["tmp", "umple-shadow-1"]⟩ := rfl
  have moved := preserved (couple document file) 1 document file
    ⟨.root, ["tmp", "umple-shadow-1", "A.ump"]⟩ ⟨.root, ["tmp", "umple-shadow-1", "B.ump"]⟩
    "../w/B.ump" (mem_paths_iff.mpr (by decide)) (mem_paths_iff.mpr (by decide)) rfl rfl
    (by rw [common, root]; rfl) (by rw [common, root]; rfl)
  have outside : ImportGraph.resolve "../w/B.ump" ⟨.root, ["tmp", "umple-shadow-1"]⟩ =
      ⟨.root, ["tmp", "w", "B.ump"]⟩ := rfl
  exact absurd (outside.symm.trans moved) (by decide)

end

end Shadow

end ModelAssist
