import ModelAssist.Shadow

/-!
# How a shadow is filled

The work on a shadow as a relation with one case for every way on: the files get their counterparts
one by one (`Shadow.Lays`), and then the document is written (`Shadow.Writes`).
-/

namespace ModelAssist.Shadow

variable {request : ShadowRequest} {root common : Path} {store : FileStore}

/-- How some files get their counterparts, after others whose unsaved texts were asked for. -/
inductive Lays (request : ShadowRequest) (root common : Path) :
    FileStore → List Path → List Path → Progress Unit → Prop where
  | done {store : FileStore} {asked : List Path} :
      Lays request root common store asked [] ⟨store, asked, .ok ()⟩
  | cancelled {store : FileStore} {asked rest : List Path} {path : Path} {reason : String}
      (given : request.cancelled asked.length = some reason) :
      Lays request root common store asked (path :: rest)
        ⟨store, asked, .error (.cancelled reason)⟩
  | unsaved {store : FileStore} {asked rest : List Path} {path : Path} {message : String}
      (given : request.unsaved path = .error message) :
      Lays request root common store asked (path :: rest)
        ⟨store, asked ++ [path], .error (.unsaved message)⟩
  | unplaced {store : FileStore} {asked rest : List Path} {path : Path} {fault : ShadowFault}
      (given : place root common path = .error fault) :
      Lays request root common store asked (path :: rest) ⟨store, asked ++ [path], .error fault⟩
  | failed {store : FileStore} {asked rest : List Path} {path found : Path}
      {text : Option String} {fault : FileFault} (known : request.unsaved path = .ok text)
      (placed : place root common path = .ok found)
      (given : layOut store path found text = .error fault) :
      Lays request root common store asked (path :: rest)
        ⟨store, asked ++ [path], .error (.file fault)⟩
  | laid {store after : FileStore} {asked rest : List Path} {path found : Path}
      {text : Option String} {work : Progress Unit} (known : request.unsaved path = .ok text)
      (placed : place root common path = .ok found)
      (given : layOut store path found text = .ok after)
      (further : Lays request root common after (asked ++ [path]) rest work) :
      Lays request root common store asked (path :: rest) work

/-- The files of a request are laid out one after the other. -/
theorem lays_layOutAll (request : ShadowRequest) (root common : Path) (store : FileStore)
    (asked files : List Path) :
    Lays request root common store asked files
      (layOutAll request root common store asked files) := by
  induction files generalizing store asked with
  | nil => exact .done
  | cons path rest ih =>
      unfold layOutAll
      split
      · next given => exact .cancelled given
      · dsimp only
        split
        · next given => exact .unsaved given
        · next known =>
            split
            · next given => exact .unplaced given
            · next placed =>
                split
                · next given => exact .failed known placed given
                · next given => exact .laid known placed given (ih _ _)

variable [Host]

/-- How the document is written when the other files were handled. -/
inductive Writes (request : ShadowRequest) (root common : Path) (work : Progress Unit) :
    Progress Shadow → Prop where
  | unready {fault : ShadowFault} (given : work.result = .error fault) :
      Writes request root common work ⟨work.store, work.asked, .error fault⟩
  | cancelled {reason : String} (ready : work.result = .ok ())
      (given : request.cancelled work.asked.length = some reason) :
      Writes request root common work ⟨work.store, work.asked, .error (.cancelled reason)⟩
  | unplaced {fault : ShadowFault} (ready : work.result = .ok ())
      (given : place root common request.document.normalize = .error fault) :
      Writes request root common work ⟨work.store, work.asked, .error fault⟩
  | failed {target : Path} {fault : FileFault} (ready : work.result = .ok ())
      (placed : place root common request.document.normalize = .ok target)
      (given : writeText work.store target (withTrailingBlankLine request.text) = .error fault) :
      Writes request root common work ⟨work.store, work.asked, .error (.file fault)⟩
  | written {target : Path} {after : FileStore} (ready : work.result = .ok ())
      (placed : place root common request.document.normalize = .ok target)
      (given : writeText work.store target (withTrailingBlankLine request.text) = .ok after) :
      Writes request root common work ⟨after, work.asked, .ok ⟨root, target⟩⟩

/-- The document of a request is written as the plan of the shadow says. -/
theorem writes_writeDocument (request : ShadowRequest) (root common : Path)
    (work : Progress Unit) :
    Writes request root common work (writeDocument request root common work) := by
  unfold writeDocument
  split
  · next given => exact .unready given
  · next ready =>
      split
      · next given => exact .cancelled ready given
      · split
        · next given => exact .unplaced ready given
        · next placed =>
            split
            · next given => exact .failed ready placed given
            · next given => exact .written ready placed given

/-- A shadow is filled file by file, the document last. -/
theorem writes_fill (request : ShadowRequest) (root : Path) (store : FileStore) :
    ∃ work,
      Lays request root (extent request).1 store []
        ((extent request).2.filter (· ≠ request.document.normalize)) work ∧
      Writes request root (extent request).1 work (fill request root store) :=
  ⟨_, lays_layOutAll .., writes_writeDocument ..⟩

/-- A shadow lies in the directory that was made for it. -/
theorem root_of_fill {shadow : Shadow} (filled : (fill request root store).result = .ok shadow) :
    shadow.root = root := by
  obtain ⟨work, -, writes⟩ := writes_fill request root store
  generalize fill request root store = filling at writes filled
  cases writes with
  | unready => cases filled
  | cancelled => cases filled
  | unplaced => cases filled
  | failed => cases filled
  | written =>
      obtain rfl := Except.ok.inj filled
      rfl

/-- Entering a shadow ends as filling the fresh directory ends. -/
theorem result_enter {number : Nat} : (enter request number store).result =
    (fill request (directory number) (store.put (directory number) .directory)).result := by
  unfold enter
  dsimp only
  split
  · rfl
  · rfl

/-- A shadow that is filled is entered with the filled store. -/
theorem enter_of_fill {number : Nat} {shadow : Shadow} (filled :
      (fill request (directory number) (store.put (directory number) .directory)).result =
        .ok shadow) :
    enter request number store =
      fill request (directory number) (store.put (directory number) .directory) := by
  simp only [enter, filled]

end ModelAssist.Shadow
