import FlowScript.Command.Workspace
import FlowScript.Proofs.Host.World
import FlowScript.Proofs.Session.Operation

namespace FlowScript

namespace Disk

def locate (d : Disk) (path : String) : String × String :=
  if d.kind? path = some .directory then (Path.join path Project.fileName, path)
  else (path, (Path.parent? path).getD ".")

def settingsText (d : Disk) (path : String) : Except Error String :=
  if (d.kind? path).isSome then (d.text path).mapError Error.file else .error (.settingsNotFound path)

def project (d : Disk) (path : String) : Except Error Project := do
  let contents ← ProjectFile.parse (← d.settingsText (d.locate path).1)
  return ⟨contents, (d.locate path).2⟩

def catalog (d : Disk) (p : Project) : Except Error Catalog :=
  match p.file.catalog with
  | some path => d.settingsText (Path.join p.base path) >>= Catalog.parse
  | none => .ok Catalog.builtin

def layout (d : Disk) (path : String) : Except Error (Layout Float) := do
  Layout.parse (← (d.text path).mapError Error.file)

def session (d : Disk) (path : String) (s : Session Float) : Except Failure (Session Float) :=
  if (d.kind? path).isSome then do
    let layout ← (d.layout path).mapError (.error (some (.readLayout path)))
    let g ← (layout.toGraph s.catalog).mapError (.error (some (.restoreLayout path)))
    return { s with graph := g }
  else .ok s

def workspace (d : Disk) (path : String) : Except Failure Workspace := do
  let project ← (d.project path).mapError (.error (some .loadSettings))
  let catalog ← (d.catalog project).mapError (.error (some .loadCatalog))
  let session ← d.session project.layoutPath (Session.new catalog project.file.shape)
  return ⟨project, session⟩

end Disk

namespace World
variable {w : World}

theorem tells_locate (path : String) :
    Tells w (Project.locate path : ExceptT Error (StateM World) _) (.ok (w.disk.locate path)) := by
  unfold Project.locate Disk.locate
  refine (tells_isDirectory path).bind_ok ?_
  by_cases directory : w.disk.kind? path = some .directory
  · simp only [directory, decide_true, if_true]
    rfl
  · simp only [directory, decide_false, if_false]
    rfl

theorem tells_settings {α : Type} (path : String) {next : String → ExceptT Error (StateM World) α}
    {k : String → Except Error α} (later : ∀ text, Tells w (next text) (k text)) :
    Tells w (do
        unless ← Host.exists? path do throw (.settingsNotFound path)
        next (← fileStep (Host.readText path))) (w.disk.settingsText path >>= k) := by
  unfold Disk.settingsText
  refine (tells_exists? path).bind_ok ?_
  cases (w.disk.kind? path).isSome with
  | false => rfl
  | true => exact ((tells_readText path).adapt _).bind later

theorem tells_project (path : String) :
    Tells w (Project.loadFrom path : ExceptT Error (StateM World) Project) (w.disk.project path) := by
  unfold Project.loadFrom Disk.project
  refine (tells_locate path).bind_ok (tells_settings _ fun text => ?_)
  cases ProjectFile.parse text <;> rfl

theorem tells_catalogFile (path : String) :
    Tells w (Catalog.loadFrom path : ExceptT Error (StateM World) Catalog)
      (w.disk.settingsText path >>= Catalog.parse) := by
  unfold Catalog.loadFrom
  refine tells_settings _ fun text => ?_
  cases Catalog.parse text <;> rfl

theorem tells_catalog (p : Project) :
    Tells w (p.catalog : ExceptT Error (StateM World) Catalog) (w.disk.catalog p) := by
  unfold Project.catalog Disk.catalog
  cases p.file.catalog with
  | none => rfl
  | some path => exact tells_catalogFile _

theorem tells_layout (path : String) :
    Tells w (Layout.loadFrom path : ExceptT Error (StateM World) (Layout Float)) (w.disk.layout path) := by
  unfold Layout.loadFrom Disk.layout
  refine Tells.bind ((tells_readText path).adapt _) fun text => ?_
  cases Layout.parse text <;> rfl

theorem tells_session (path : String) (s : Session Float) :
    Tells w (Workspace.loadLayout path s : ExceptT Failure (StateM World) (Session Float))
      (w.disk.session path s) := by
  unfold Workspace.loadLayout Disk.session
  refine (tells_exists? path).bind_ok ?_
  cases (w.disk.kind? path).isSome with
  | false => rfl
  | true =>
      refine ((tells_layout path).adapt _).bind fun layout => ?_
      rw [Session.outcome_load, Layout.outcome_load]
      cases layout.toGraph s.catalog <;> rfl

theorem tells_workspace (path : String) :
    Tells w (Workspace.loadFrom path : ExceptT Failure (StateM World) Workspace) (w.disk.workspace path) := by
  unfold Workspace.loadFrom Disk.workspace
  refine ((tells_project path).adapt _).bind fun project => ?_
  refine ((tells_catalog project).adapt _).bind fun catalog => ?_
  exact (tells_session _ _).bind fun session => tells_pure _

end World

namespace Disk
variable {d d' : Disk} {path : String} {place : Location}

/-! ## What was loaded -/

theorem settingsText_eq_ok {text : String} : d.settingsText path = .ok text ↔ d.text path = .ok text := by
  unfold settingsText
  constructor
  · intro h
    split at h
    · exact Result.mapError_eq_ok.1 h
    · cases h
  · intro read
    rw [if_pos (by rw [kind?_of_text read]; rfl)]
    exact Result.mapError_eq_ok.2 read

theorem layout_eq_ok {layout : Layout Float} :
    d.layout path = .ok layout ↔ ∃ text, d.text path = .ok text ∧ Layout.parse text = .ok layout := by
  unfold Disk.layout
  simp only [Result.bind_eq_ok, Result.mapError_eq_ok]

/-- The graph that is stored in a layout file. Where there is no file, it is empty. -/
inductive Stores (d : Disk) (path : String) (catalog : Catalog) : Graph Float → Prop
  | fresh (absent : d.kind? path = none) : Stores d path catalog .empty
  | layout {text : String} {layout : Layout Float} {g : Graph Float} (read : d.text path = .ok text)
      (parsed : Layout.parse text = .ok layout) (described : layout.toGraph catalog = .ok g) : Stores d path catalog g

theorem session_eq_ok {s t : Session Float} (new : s.graph = .empty) (h : d.session path s = .ok t) :
    d.Stores path s.catalog t.graph ∧ t = { s with graph := t.graph } := by
  unfold Disk.session at h
  split at h
  · obtain ⟨layout, read, h⟩ := Result.bind_eq_ok.1 h
    obtain ⟨g, described, h⟩ := Result.bind_eq_ok.1 h
    obtain ⟨text, stored, parsed⟩ := layout_eq_ok.1 (Result.mapError_eq_ok.1 read)
    cases h
    exact ⟨.layout stored parsed (Result.mapError_eq_ok.1 described), rfl⟩
  · rename_i absent
    cases h
    rw [new]
    exact ⟨.fresh (by simpa using absent), congrArg (fun g => { s with graph := g }) new⟩

/-- What the disk holds for the path of a project: its settings, its catalog, and a session on its layout. -/
structure Holds (d : Disk) (path : String) (ws : Workspace) : Prop where
  project : d.project path = .ok ws.project
  catalog : d.catalog ws.project = .ok ws.session.catalog
  graph : d.Stores ws.project.layoutPath ws.session.catalog ws.session.graph
  session : ws.session = { Session.new ws.session.catalog ws.project.file.shape with graph := ws.session.graph }

theorem holds_of_workspace {ws : Workspace} (h : d.workspace path = .ok ws) : d.Holds path ws := by
  unfold workspace at h
  obtain ⟨project, loaded, h⟩ := Result.bind_eq_ok.1 h
  obtain ⟨catalog, typed, h⟩ := Result.bind_eq_ok.1 h
  obtain ⟨session, opened, h⟩ := Result.bind_eq_ok.1 h
  cases h
  obtain ⟨stores, fresh⟩ := session_eq_ok rfl opened
  obtain rfl : catalog = session.catalog := congrArg Session.catalog fresh.symm
  exact ⟨Result.mapError_eq_ok.1 loaded, Result.mapError_eq_ok.1 typed, stores, fresh⟩

theorem workspace_of_project {p : Project} {catalog : Catalog} (loaded : d.project path = .ok p)
    (typed : d.catalog p = .ok catalog) :
    d.workspace path = (d.session p.layoutPath (Session.new catalog p.file.shape)).map (Workspace.mk p) := by
  simp only [workspace, loaded, Except.mapError, bind, Except.bind, typed]
  cases d.session p.layoutPath (Session.new catalog p.file.shape) <;> rfl

/-! ## After a write of another file -/

theorem Apart.locate (h : Apart place d d') (path : String) : d'.locate path = d.locate path := by
  unfold Disk.locate
  by_cases directory : d.kind? path = some .directory
  · rw [if_pos directory, if_pos (h.grown.directory directory)]
  · rw [if_neg directory, if_neg fun after => directory (h.symm.grown.directory after)]

theorem Grown.settingsText (h : Grown place d d') {text : String} (read : d.settingsText path = .ok text)
    (differs : d.resolve path ≠ .ok place) : d'.settingsText path = .ok text :=
  settingsText_eq_ok.2 (h.text (settingsText_eq_ok.1 read) differs)

theorem Grown.locate (h : Grown place d d') {text : String} (read : d.settingsText (d.locate path).1 = .ok text)
    (differs : d.resolve (d.locate path).1 ≠ .ok place) : d'.locate path = d.locate path := by
  have still := h.settingsText read differs
  unfold Disk.locate at still ⊢
  by_cases directory : d.kind? path = some .directory
  · rw [if_pos directory, if_pos (h.directory directory)]
  · rw [if_neg directory] at still
    rw [if_neg directory, kind?_of_text (settingsText_eq_ok.1 still)]
    exact if_neg (by decide)

theorem Grown.project (h : Grown place d d') {p : Project} (loaded : d.project path = .ok p)
    (differs : d.resolve (d.locate path).1 ≠ .ok place) : d'.project path = .ok p := by
  unfold Disk.project at loaded ⊢
  obtain ⟨text, read, loaded⟩ := Result.bind_eq_ok.1 loaded
  rw [h.locate read differs]
  exact Result.bind_eq_ok.2 ⟨text, h.settingsText read differs, loaded⟩

theorem Grown.catalog (h : Grown place d d') {p : Project} {catalog : Catalog} (loaded : d.catalog p = .ok catalog)
    (differs : ∀ own ∈ p.file.catalog, d.resolve (Path.join p.base own) ≠ .ok place) :
    d'.catalog p = .ok catalog := by
  unfold Disk.catalog at loaded ⊢
  cases own : p.file.catalog with
  | none =>
      rw [own] at loaded
      exact loaded
  | some file =>
      rw [own] at loaded
      obtain ⟨text, read, parsed⟩ := Result.bind_eq_ok.1 loaded
      exact Result.bind_eq_ok.2 ⟨text, h.settingsText read (differs file own), parsed⟩

theorem Grown.session (h : Grown place d d') {s t : Session Float} (opened : d.session path s = .ok t)
    (differs : d.resolve path ≠ .ok place) (away : d.kind? path = none → d'.kind? path = none) :
    d'.session path s = .ok t := by
  unfold Disk.session at opened ⊢
  cases there : d.kind? path with
  | none =>
      rw [there] at opened
      rw [away there]
      exact opened
  | some kind =>
      rw [there] at opened
      obtain ⟨layout, read, opened⟩ := Result.bind_eq_ok.1 opened
      obtain ⟨text, stored, parsed⟩ := layout_eq_ok.1 (Result.mapError_eq_ok.1 read)
      have still := h.text stored differs
      rw [if_pos (by rw [kind?_of_text still]; rfl)]
      refine Result.bind_eq_ok.2 ⟨layout, Result.mapError_eq_ok.2 (layout_eq_ok.2 ⟨text, still, parsed⟩), opened⟩

end Disk
end FlowScript
