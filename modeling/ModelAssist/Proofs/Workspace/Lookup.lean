import ModelAssist.Proofs.Path
import ModelAssist.Proofs.Symbol.Lookup
import ModelAssist.Proofs.Workspace.Reach

/-!
# What a lookup finds in a workspace

Before a lookup the document and all that it reaches are indexed, so the index then has their
current texts (`Workspace.near`) beside the last texts of whatever else was indexed
(`Workspace.known`).  A lookup finds what the near texts declare, unless another file is indexed
under a second name of a near one, or an `isA` clause elsewhere adds an ancestor that has members in
the near ones (`Workspace.mem_visible_lookup`).
-/

namespace ModelAssist

open Relation (ReflTransGen)
open SymbolIndex (Answers Declares Links)

namespace Workspace

variable [Host] (workspace : Workspace) (path : Path) (text : String)

/-- The text of a file for a lookup from a text at a path. -/
def seen? (file : Path) : Option String :=
  if file = path then some text else workspace.imports.read? file

/-- The names under which the files are indexed that a lookup from a text at a path involves. -/
def nearFiles : List String :=
  (workspace.involved path text).map Path.text

/-- The texts of the files that a lookup from a text at a path involves. -/
def near (file : String) : Option String :=
  if file ∈ workspace.nearFiles path text then workspace.seen? path text (Path.ofText file)
  else none

/-- The texts of these files, and the last texts of all other ones that are indexed. -/
def known (file : String) : Option String :=
  if file ∈ workspace.nearFiles path text then workspace.seen? path text (Path.ofText file)
  else workspace.index.text? file

/-- Holds if every file that a lookup involves has a text. -/
def Readable : Prop :=
  ∀ file ∈ workspace.involved path text, (workspace.seen? path text file).isSome

/-- Holds if no file that a lookup involves is also indexed under another spelling. -/
def Unaliased : Prop :=
  ∀ file ∉ workspace.nearFiles path text, (workspace.index.text? file).isSome →
    Path.normalized file ∉ workspace.involved path text

/-- Holds if the `isA` clauses of the other indexed files add no ancestor to a container that has
members in the files that the lookup involves. -/
def Uninherited (grammar : Grammar) (container : String) : Prop :=
  ∀ symbol, Declares grammar (workspace.near path text) symbol → symbol.kind.isMember →
    ∀ owner, symbol.container = some owner →
      ReflTransGen (Links grammar (workspace.known path text)) container owner →
        ReflTransGen (Links grammar (workspace.near path text)) container owner

variable {workspace path text}

/-- The files involved are the file itself and those reachable from it. -/
theorem mem_involved {file : Path} :
    file ∈ workspace.involved path text ↔ file = path ∨ file ∈ workspace.reachable path text := by
  simp only [involved, Path.sort, List.mem_mergeSort]
  split
  · next known =>
      rw [List.contains_iff_mem] at known
      constructor
      · exact Or.inr
      · rintro (rfl | reached)
        · exact known
        · exact reached
  · exact List.mem_cons

/-- The names of the files that a lookup involves read back as these files. -/
theorem ofText_text_of_mem_involved (normal : path.IsNormal) (plain : path.IsPlain) {file : Path}
    (member : file ∈ workspace.involved path text) :
    file.IsNormal ∧ Path.ofText file.text = file := by
  rcases mem_involved.mp member with rfl | reached
  · exact ⟨normal, Path.ofText_text normal.absolute plain⟩
  · have normal := ImportGraph.isNormal_of_mem_reachable reached
    exact ⟨normal, Path.ofText_text normal.absolute
      (ImportGraph.isPlain_of_mem_reachable plain.parent reached)⟩

private theorem indexReached_eq {grammar : Grammar} (loaded : workspace.grammar = some grammar)
    {file : Path} (named : Path.ofText file.text = file) :
    ∃ index, indexReached path text workspace file = { workspace with index } ∧
      ∀ other, index.text? other =
        if other = file.text then workspace.seen? path text file <|> workspace.index.text? other
        else workspace.index.text? other := by
  have read : ((if file = path then some text else workspace.documents.textFor? file) <|>
      workspace.files.readText? (Path.ofText file.text)) = workspace.seen? path text file := by
    rw [named]
    unfold seen? ImportGraph.read?
    split
    · rfl
    · cases unsaved : workspace.documents.textFor? file <;> simp [imports, unsaved]
  have indexed : indexReached path text workspace file = { workspace with
      index := (workspace.index.indexFile grammar workspace.files file.text
        (if file = path then some text else workspace.documents.textFor? file)).1 } := by
    simp only [indexReached, indexFile, loaded]
  refine ⟨_, indexed, fun other => ?_⟩
  cases seen : workspace.seen? path text file with
  | none =>
      rw [SymbolIndex.indexFile_eq_self _ _ _ (read.trans seen)]
      exact (ite_self _).symm
  | some content =>
      exact SymbolIndex.text?_indexFile workspace.index grammar workspace.files (read.trans seen)
        other

private theorem text?_foldl_indexReached {grammar : Grammar}
    (loaded : workspace.grammar = some grammar) {files : List Path}
    (named : ∀ file ∈ files, Path.ofText file.text = file) (other : String) :
    (files.foldl (indexReached path text) workspace).index.text? other =
      if other ∈ files.map Path.text then
        workspace.seen? path text (Path.ofText other) <|> workspace.index.text? other
      else workspace.index.text? other := by
  induction files generalizing workspace with
  | nil => rfl
  | cons first rest ih =>
      obtain ⟨namedFirst, named⟩ := List.forall_mem_cons.mp named
      obtain ⟨index, indexed, textFirst⟩ :=
        @indexReached_eq _ workspace path text grammar loaded first namedFirst
      rw [List.foldl_cons, indexed]
      have later := @ih { workspace with index } loaded named
      rw [later, textFirst, List.map_cons]
      by_cases same : other = first.text
      · subst same
        rw [if_pos rfl, if_pos List.mem_cons_self, namedFirst]
        change (if _ then workspace.seen? path text first <|> _ else _) = _
        cases workspace.seen? path text first <;> simp
      · rw [if_neg same]
        simp only [List.mem_cons, same, false_or]
        rfl

section Indexed

variable {grammar : Grammar} (loaded : workspace.grammar = some grammar) (normal : path.IsNormal)
  (plain : path.IsPlain)
include loaded normal plain

/-- A lookup leaves the index with the near texts, as far as they can be read, and with the last
texts of the other files. -/
theorem text?_ensureIndexed_eq (file : String) :
    (workspace.ensureIndexed path text).1.index.text? file =
      if file ∈ workspace.nearFiles path text then
        workspace.seen? path text (Path.ofText file) <|> workspace.index.text? file
      else workspace.index.text? file :=
  text?_foldl_indexReached loaded
    (fun _ member => (ofText_text_of_mem_involved normal plain member).2) file

/-- If all of them can be read, it leaves the index with what is known. -/
theorem text?_ensureIndexed (readable : workspace.Readable path text) :
    (workspace.ensureIndexed path text).1.index.text? = workspace.known path text := by
  funext file
  rw [text?_ensureIndexed_eq loaded normal plain, known]
  split
  · next near =>
      obtain ⟨source, member, rfl⟩ := List.mem_map.mp near
      obtain ⟨content, seen⟩ := Option.isSome_iff_exists.mp (readable source member)
      rw [(ofText_text_of_mem_involved normal plain member).2, seen]
      rfl
  · rfl

/-- The text that the lookup is made from is indexed in any case. -/
theorem text?_ensureIndexed_self :
    (workspace.ensureIndexed path text).1.index.text? path.text = some text := by
  have near : path.text ∈ workspace.nearFiles path text :=
    List.mem_map_of_mem (mem_involved.mpr (Or.inl rfl))
  rw [text?_ensureIndexed_eq loaded normal plain, if_pos near,
    Path.ofText_text normal.absolute plain, seen?, if_pos rfl]
  rfl

end Indexed

/-- Indexing what a file needs touches the index alone. -/
theorem ensureIndexed_eq (workspace : Workspace) (path : Path) (text : String) :
    ∃ index, (workspace.ensureIndexed path text).1 = { workspace with index } := by
  unfold ensureIndexed
  generalize workspace.involved path text = files
  simp only
  induction files generalizing workspace with
  | nil => exact ⟨workspace.index, rfl⟩
  | cons first rest ih =>
      obtain ⟨index, indexed⟩ := workspace.indexFile_eq first.text
        (if first = path then some text else workspace.documents.textFor? first)
      obtain ⟨index', indexed'⟩ := ih (indexReached path text workspace first)
      refine ⟨index', ?_⟩
      rw [List.foldl_cons, indexed', show indexReached path text workspace first = _ from indexed]

/-- Indexing what a file needs leads to a workspace that can be reached. -/
theorem Reachable.ensureIndexed (reachable : workspace.Reachable) (path : Path) (text : String) :
    (workspace.ensureIndexed path text).1.Reachable := by
  unfold Workspace.ensureIndexed
  generalize workspace.involved path text = files
  simp only
  induction files generalizing workspace with
  | nil => exact reachable
  | cons first rest ih => exact ih (reachable.indexFile _ _)

/-- Indexing what a file needs leads to an index that can be reached. -/
theorem Reachable.index_ensureIndexed {grammar : Grammar} (reachable : workspace.Reachable)
    (loaded : workspace.grammar = some grammar) (path : Path) (text : String) :
    (workspace.ensureIndexed path text).1.index.Reachable grammar := by
  refine reachable.ensureIndexed path text grammar ?_
  obtain ⟨index, same⟩ := workspace.ensureIndexed_eq path text
  rw [same]
  exact loaded

/-- The near texts declare what all known ones declare in the files that the lookup involves. -/
theorem declares_known (normal : path.IsNormal) (plain : path.IsPlain)
    (unaliased : workspace.Unaliased path text) {grammar : Grammar} {symbol : SymbolEntry} :
    Declares grammar (workspace.known path text) symbol ∧
        Path.normalized symbol.file ∈ workspace.involved path text ↔
      Declares grammar (workspace.near path text) symbol := by
  by_cases member : symbol.file ∈ workspace.nearFiles path text
  · have same : workspace.known path text symbol.file = workspace.near path text symbol.file := by
      rw [known, near, if_pos member, if_pos member]
    rw [SymbolIndex.declares_congr same, and_iff_left_iff_imp]
    intro _
    obtain ⟨file, involved, named⟩ := List.mem_map.mp member
    obtain ⟨normal, read⟩ := ofText_text_of_mem_involved normal plain involved
    rw [← named, Path.normalized, read, normal.normalize_eq]
    exact involved
  · constructor
    · rintro ⟨declared, involved⟩
      have indexed := SymbolIndex.isSome_of_declares declared
      rw [known, if_neg member] at indexed
      exact absurd involved (unaliased symbol.file member indexed)
    · intro declared
      have text := SymbolIndex.isSome_of_declares declared
      rw [near, if_neg member] at text
      cases text

/-- The near texts name no parents that the known ones do not name. -/
theorem links_known {grammar : Grammar} {child parent : String}
    (links : Links grammar (workspace.near path text) child parent) :
    Links grammar (workspace.known path text) child parent := by
  refine links.mono fun file has => ?_
  unfold near at has ⊢
  split at has
  · next member => rw [if_pos member, known, if_pos member]
  · cases has

/-- **What is visible of a lookup is what the near texts declare.**  If the ancestors count, only
members are asked for, and the other files add no ancestors with members to the container. -/
theorem mem_visible_lookup {grammar : Grammar} (loaded : workspace.grammar = some grammar)
    (reachable : workspace.Reachable) (normal : path.IsNormal) (plain : path.IsPlain)
    (readable : workspace.Readable path text) (unaliased : workspace.Unaliased path text)
    {query : SymbolQuery}
    (uninherited : query.inherited → (∀ symbol, query.filter.admits symbol → symbol.kind.isMember) ∧
      ∀ container ∈ query.container, workspace.Uninherited path text grammar container)
    (symbol : SymbolEntry) :
    symbol ∈ visible (workspace.involved path text)
        ((workspace.ensureIndexed path text).1.index.lookup query) ↔
      Answers grammar (workspace.near path text) query symbol := by
  rw [visible, List.mem_filter, List.contains_iff_mem,
    (reachable.index_ensureIndexed loaded path text).mem_lookup,
    text?_ensureIndexed loaded normal plain readable]
  have declared : Declares grammar (workspace.known path text) symbol ∧
      Path.normalized symbol.file ∈ workspace.involved path text ↔
        Declares grammar (workspace.near path text) symbol := declares_known normal plain unaliased
  obtain ⟨container, filter, inherited⟩ := query
  constructor
  · rintro ⟨⟨declares, admitted, owned⟩, involved⟩
    have declares := declared.mp ⟨declares, involved⟩
    refine ⟨declares, admitted, ?_⟩
    cases container with
    | none => exact owned
    | some container =>
        obtain ⟨owner, isOwner, ancestor⟩ := owned
        refine ⟨owner, isOwner, ?_⟩
        cases inherited with
        | false => exact ancestor
        | true =>
            obtain ⟨members, uninherited⟩ := uninherited rfl
            exact uninherited container rfl symbol declares (members symbol admitted) owner isOwner
              ancestor
  · rintro ⟨declares, admitted, owned⟩
    obtain ⟨declares', involved⟩ := declared.mpr declares
    refine ⟨⟨declares', admitted, ?_⟩, involved⟩
    cases container with
    | none => exact owned
    | some container =>
        obtain ⟨owner, isOwner, ancestor⟩ := owned
        refine ⟨owner, isOwner, ?_⟩
        cases inherited with
        | false => exact ancestor
        | true =>
            have near : ReflTransGen (Links grammar (workspace.near path text)) container owner :=
              ancestor
            exact ReflTransGen.mono (fun _ _ => links_known) _ _ near

end Workspace

end ModelAssist
