import FlowScript.Proofs.Command.Running
import FlowScript.Proofs.Layout.RoundTrip
import FlowScript.Proofs.Session.Saving

namespace FlowScript
open World Json.Reader

def Point.IsFinite (p : Point Float) : Prop := p.x.isFinite = true ∧ p.y.isFinite = true

instance (p : Point Float) : Decidable p.IsFinite := inferInstanceAs (Decidable (_ ∧ _))

theorem Layout.finite_ofGraph {g : Graph Float} :
    (Layout.ofGraph g).coordinates.all Float.isFinite = true ↔ g.Placed Point.IsFinite := by
  simp [Layout.coordinates, Layout.ofGraph, Graph.Placed, Point.IsFinite, NodeRecord.ofNode]

theorem Layout.coordinates_toGraph {layout : Layout Float} {g : Graph Float} {catalog : Catalog}
    (described : layout.toGraph catalog = .ok g) : (Layout.ofGraph g).coordinates = layout.coordinates := by
  obtain ⟨nodes, records, -, -, rfl⟩ := toGraph_eq_ok.1 described
  have placed : List.Forall₂ (fun r r' : NodeRecord Float => r.x = r'.x ∧ r.y = r'.y) (nodes.map NodeRecord.ofNode)
      layout.nodes := by
    rw [List.forall₂_map_left_iff]
    refine records.flip.imp fun n r described => ?_
    obtain ⟨t, -, rfl⟩ := described
    exact ⟨rfl, rfl⟩
  rw [← List.forall₂_eq_eq_eq]
  exact List.rel_flatMap placed fun r r' same => .cons same.1 (.cons same.2 .nil)

theorem Layout.finite_toGraph {layout : Layout Float} {g : Graph Float} {catalog : Catalog}
    (finite : layout.coordinates.all Float.isFinite = true) (described : layout.toGraph catalog = .ok g) :
    g.Placed Point.IsFinite := by
  rwa [← Layout.finite_ofGraph, Layout.coordinates_toGraph described]

/-- The layout has a file of its own. -/
structure Disk.OwnLayout (d : Disk) (path : String) (p : Project) : Prop where
  project : d.resolve (d.locate path).1 ≠ d.resolve p.layoutPath
  catalog : ∀ file ∈ p.file.catalog, d.resolve (Path.join p.base file) ≠ d.resolve p.layoutPath

instance (d : Disk) (path : String) (p : Project) : Decidable (d.OwnLayout path p) :=
  decidable_of_iff (d.resolve (d.locate path).1 ≠ d.resolve p.layoutPath ∧
      ∀ file ∈ p.file.catalog, d.resolve (Path.join p.base file) ≠ d.resolve p.layoutPath)
    ⟨fun h => ⟨h.1, h.2⟩, fun h => ⟨h.project, h.catalog⟩⟩

/-- A run of an editing command that succeeds: the workspace that it opens, and the report and the session that its edit
comes to. -/
structure LayoutEdit.Done (path : String) (change : LayoutEdit) (w : World) (ws : Workspace) (report : EditReport)
    (s : Session Float) (w' : World) : Prop where
  opened : outcome (Workspace.loadFrom path) w = (.ok ws, w)
  edited : change.steps.outcome ws.session = (.ok report, s)
  ended : outcome (change.run path) w = (.ok (), w')

/-! ## The graph that is written -/

theorem Disk.graph_of_workspace {d : Disk} {path : String} {ws : Workspace} (opened : d.workspace path = .ok ws) :
    ws.session.graph.Sound ws.session.catalog ∧ ws.session.graph.Placed Point.IsFinite ∧
      ((∀ t ∈ ws.session.catalog.types, t.portCounts.FitsWords) → ws.session.graph.FitsWords) := by
  have stored := (holds_of_workspace opened).graph
  generalize ws.session.graph = g at stored ⊢
  cases stored with
  | fresh => exact ⟨Graph.sound_empty, Graph.placed_empty, fun _ => Graph.fitsWords_empty⟩
  | layout _ parsed described =>
      obtain ⟨fits, finite⟩ := Layout.regular_of_parse parsed
      exact ⟨Layout.sound_toGraph described, Layout.finite_toGraph finite described,
        fun types => Layout.fitsWords_toGraph types fits described⟩

namespace LayoutEdit
variable {path : String} {change : LayoutEdit} {w w' : World} {ws : Workspace} {report : EditReport}
  {s : Session Float}

theorem done_of_run (ended : outcome (change.run path) w = (.ok (), w')) :
    ∃ ws report s, change.Done path w ws report s w' := by
  rcases change.run_cases path w with ⟨_, -, failed⟩ | ⟨_, _, _, -, -, failed⟩ | ⟨ws, report, s, held, edited, -⟩
  · cases failed.symm.trans ended
  · cases failed.symm.trans ended
  · exact ⟨ws, report, s, (opened_of_workspace held).loaded, edited, ended⟩

theorem Done.workspace (run : change.Done path w ws report s w') : w.disk.workspace path = .ok ws :=
  congrArg Prod.fst ((tells_workspace path).symm.trans run.opened)

theorem Done.disk (run : change.Done path w ws report s w') :
    if report.changed then
      w.disk.write ws.project.layoutPath (Layout.ofGraph s.graph).print.toUTF8 = .ok w'.disk
    else w'.disk = w.disk := by
  have ended := run.ended
  rw [outcome_run_edited run.workspace run.edited, settle] at ended
  split at ended
  · rename_i changed
    rw [if_pos changed]
    split at ended
    · rename_i written
      cases ended
      exact written
    · cases ended
  · rename_i same
    rw [if_neg same]
    cases ended
    rfl

theorem Done.session (run : change.Done path w ws report s w') : s = change.operation.next ws.session := by
  rw [← state_steps, run.edited]

theorem Done.revision (run : change.Done path w ws report s w') :
    Graph.Revision ws.session.catalog ws.session.graph s.graph := by
  rw [run.session]
  exact change.operation.revision_next (by cases change <;> rfl) ws.session

theorem Done.finite_iff (run : change.Done path w ws report s w') :
    s.graph.Placed Point.IsFinite ↔ ∀ p ∈ change.position?, p.IsFinite := by
  constructor
  · intro placed p own
    obtain ⟨n, mem, rfl⟩ := exists_placed run.edited own
    exact placed n mem
  · intro own
    rw [run.session]
    exact change.placed_next own (Disk.graph_of_workspace run.workspace).2.1

end LayoutEdit

/-! ## The project that is opened -/

theorem Disk.session_of_printed {d : Disk} {path : String} {g : Graph Float} {s : Session Float}
    (stored : d.text path = .ok (Layout.ofGraph g).print) (sound : g.Sound s.catalog) (fits : g.FitsWords) :
    ((∀ x ∈ (Layout.ofGraph g).coordinates, rereadFloat x = .ok x) →
      d.session path s = .ok { s with graph := { g with nextNumber := NodeId.nextAfter g.ids } }) ∧
    (¬ g.Placed Point.IsFinite →
      d.session path s = .error (.error (some (.readLayout path)) (.corruptLayout .malformed))) ∧
    ∀ s', d.session path s = .ok s' → s'.graph.nodes = g.nodes →
      ∀ x ∈ (Layout.ofGraph g).coordinates, rereadFloat x = .ok x := by
  have read : d.layout path = (Layout.ofGraph g).reread.mapError Error.corruptLayout := by
    rw [← Layout.parse_printed (Layout.fitsWords_ofGraph fits)]
    simp only [Disk.layout, stored, Except.mapError, bind, Except.bind]
  have present : (d.kind? path).isSome = true := by
    rw [kind?_of_text stored]
    rfl
  rw [Disk.session, if_pos present, read]
  refine ⟨fun each => ?_, fun infinite => ?_, fun s' opened same => ?_⟩
  · rw [Layout.reread_self each]
    simp only [Except.mapError, bind, Except.bind, Layout.toGraph_ofGraph sound]
    rfl
  · -- The printer has no number for such a coordinate, and the reader wants one.
    rw [← Layout.finite_ofGraph, Bool.not_eq_true, List.all_eq_false] at infinite
    obtain ⟨x, own, infinite⟩ := infinite
    rw [Layout.reread_of_infinite own (Bool.eq_false_iff.2 infinite)]
    rfl
  · obtain ⟨layout, reread, opened⟩ := Result.bind_eq_ok.1 opened
    obtain ⟨graph, described, opened⟩ := Result.bind_eq_ok.1 opened
    cases opened
    have kept : layout.coordinates = (Layout.ofGraph g).coordinates := by
      rw [← Layout.coordinates_toGraph (Result.mapError_eq_ok.1 described)]
      exact congrArg (fun nodes => Layout.coordinates ⟨nodes.map NodeRecord.ofNode, []⟩) same
    have related := Layout.reread_coordinates (Result.mapError_eq_ok.1 (Result.mapError_eq_ok.1 reread))
    rw [kept] at related
    exact List.forall₂_same.1 related

theorem Disk.text_of_write {d d' : Disk} {path text : String} (written : d.write path text.toUTF8 = .ok d') :
    d'.text path = .ok text := by
  obtain ⟨place, resolved, apart, there⟩ := rewritten_of_write written
  exact text_eq_ok.2 ⟨place, _, find_eq_ok.2 ⟨apart.grown.resolve resolved, there⟩, dif_pos text.isValidUTF8⟩

theorem Disk.workspace_of_write {d d' : Disk} {path : String} {ws : Workspace} {bytes : ByteArray}
    (opened : d.workspace path = .ok ws) (own : d.OwnLayout path ws.project)
    (written : d.write ws.project.layoutPath bytes = .ok d') :
    d'.workspace path = (d'.session ws.project.layoutPath
      (Session.new ws.session.catalog ws.project.file.shape)).map (Workspace.mk ws.project) := by
  have held := holds_of_workspace opened
  obtain ⟨place, resolved, apart, -⟩ := rewritten_of_write written
  refine workspace_of_project (apart.grown.project held.project ?_)
    (apart.grown.catalog held.catalog fun file given => ?_)
  · exact resolved ▸ own.project
  · exact resolved ▸ own.catalog file given

namespace Workspace

variable {path : String} {change : LayoutEdit} {w w' : World} {ws : Workspace} {report : EditReport}
  {s : Session Float}

theorem outcome_loadFrom_after (run : change.Done path w ws report s w') (changed : report.changed = true)
    (own : w.disk.OwnLayout path ws.project) (fits : ∀ t ∈ ws.session.catalog.types, t.portCounts.FitsWords) :
    ((∀ x ∈ (Layout.ofGraph s.graph).coordinates, rereadFloat x = .ok x) → outcome (loadFrom path) w' =
      (.ok ⟨ws.project, { Session.new ws.session.catalog ws.project.file.shape with
        graph := { s.graph with nextNumber := NodeId.nextAfter s.graph.ids } }⟩, w')) ∧
    (¬ s.graph.Placed Point.IsFinite → outcome (loadFrom path) w' =
      (.error (.error (some (.readLayout ws.project.layoutPath)) (.corruptLayout .malformed)), w')) ∧
    ∀ next, outcome (loadFrom path) w' = (.ok next, w') → next.session.graph.nodes = s.graph.nodes →
      ∀ x ∈ (Layout.ofGraph s.graph).coordinates, rereadFloat x = .ok x := by
  have written := run.disk
  rw [if_pos changed] at written
  obtain ⟨sound, -, small⟩ := Disk.graph_of_workspace run.workspace
  obtain ⟨reads, refuses, back⟩ := Disk.session_of_printed
    (s := Session.new ws.session.catalog ws.project.file.shape)
    (Disk.text_of_write written) (sound.revision run.revision) ((small fits).revision fits run.revision)
  rw [(tells_workspace path : outcome (loadFrom path) w' = _), Disk.workspace_of_write run.workspace own written]
  refine ⟨fun each => ?_, fun infinite => ?_, fun next opened => ?_⟩
  · rw [reads each]
    rfl
  · rw [refuses infinite]
    rfl
  · obtain ⟨session, read, rfl⟩ := Result.map_eq_ok.1 (congrArg Prod.fst opened)
    exact back session read

/-- A run of an editing command that succeeds leaves a project that opens with the nodes and wires of the edited graph,
exactly if the coordinates in the command are finite and the decimal texts of all coordinates stand for them; with an
infinite one it does not open at all. A run that changes nothing writes nothing. The layout must not be stored over the
settings. -/
theorem reopen_after (ended : outcome (change.run path) w = (.ok (), w')) :
    ∃ ws report s, change.Done path w ws report s w' ∧ (report.changed = false → w'.disk = w.disk) ∧
      (report.changed = true → w.disk.OwnLayout path ws.project →
        (∀ t ∈ ws.session.catalog.types, t.portCounts.FitsWords) →
        ((∃ next, outcome (loadFrom path) w' = (.ok next, w') ∧ next.project = ws.project ∧
            next.session.graph.nodes = s.graph.nodes ∧ next.session.graph.wires = s.graph.wires) ↔
          (∀ p ∈ change.position?, p.IsFinite) ∧
            ∀ x ∈ (Layout.ofGraph s.graph).coordinates, x.isFinite = true → ReadsBack x) ∧
        (¬ (∀ p ∈ change.position?, p.IsFinite) → outcome (loadFrom path) w' =
          (.error (.error (some (.readLayout ws.project.layoutPath)) (.corruptLayout .malformed)), w'))) := by
  obtain ⟨ws, report, s, run⟩ := LayoutEdit.done_of_run ended
  refine ⟨ws, report, s, run, fun same => ?_, fun changed own fits => ?_⟩
  · have kept := run.disk
    rwa [if_neg (by rw [same]; exact Bool.false_ne_true)] at kept
  · obtain ⟨opens, refuses, back⟩ := outcome_loadFrom_after run changed own fits
    rw [← run.finite_iff]
    refine ⟨⟨?_, ?_⟩, refuses⟩
    · rintro ⟨next, opened, -, nodes, -⟩
      have each := fun x mem => rereadFloat_eq_self.1 (back next opened nodes x mem)
      exact ⟨Layout.finite_ofGraph.1 (List.all_eq_true.2 fun x mem => (each x mem).1), fun x mem _ => (each x mem).2⟩
    · rintro ⟨finite, texts⟩
      rw [← Layout.finite_ofGraph, List.all_eq_true] at finite
      exact ⟨_, opens fun x mem => rereadFloat_eq_self.2 ⟨finite x mem, texts x mem (finite x mem)⟩, rfl, rfl, rfl⟩

end Workspace

/-! ## A small project -/

def World.small : World := ⟨⟨[(["botwire.yaml"], .file "name: small\n".toUTF8)], []⟩, []⟩

def Workspace.small : Workspace :=
  ⟨⟨⟨"small", "0.1.0", "layout.json", "bot.py", none, {}, .standard⟩, ""⟩, Session.new .builtin .standard⟩

def LayoutEdit.small (x y : Float) : LayoutEdit := .addNode "Command" ⟨x, y⟩ none

theorem LayoutEdit.of_done_small {x y : Float} {w' : World} {ws : Workspace} {report : EditReport} {s : Session Float}
    (told : ((small x y).steps.outcome Workspace.small.session).1 = .ok (.done "Added node_0 (Command)"))
    (run : (small x y).Done "botwire.yaml" .small ws report s w') :
    ws = .small ∧ report = .done "Added node_0 (Command)" ∧
      s = ((small x y).steps.outcome Workspace.small.session).2 := by
  have held : World.small.disk.workspace "botwire.yaml" = .ok .small := by decide +kernel
  obtain rfl : Workspace.small = ws := Except.ok.inj (held.symm.trans run.workspace)
  rw [run.edited] at told ⊢
  exact ⟨rfl, Except.ok.inj told, rfl⟩

theorem Workspace.ownLayout_small : World.small.disk.OwnLayout "botwire.yaml" small.project := by decide +kernel

theorem Workspace.fits_small : ∀ t ∈ small.session.catalog.types, t.portCounts.FitsWords := by decide +kernel

theorem Workspace.layoutPath_small : small.project.layoutPath = "layout.json" := by decide +kernel

theorem Workspace.reopen_after_addition :
    let near := LayoutEdit.small 1.5 (-2)
    let odd := LayoutEdit.small 922.7059621197369 0
    let far := LayoutEdit.small 1.5 (1 / 0)
    (∃ w' next, outcome (near.run "botwire.yaml") .small = (.ok (), w') ∧
      outcome (loadFrom "botwire.yaml") w' = (.ok next, w') ∧ next.session.graph.ids = ["node_0"]) ∧
    (∃ w', outcome (odd.run "botwire.yaml") .small = (.ok (), w') ∧
      ¬ ∃ next, outcome (loadFrom "botwire.yaml") w' = (.ok next, w') ∧ next.project = small.project ∧
        next.session.graph.nodes = (odd.steps.outcome small.session).2.graph.nodes ∧ next.session.graph.wires = []) ∧
    ∃ w', outcome (far.run "botwire.yaml") .small = (.ok (), w') ∧ outcome (loadFrom "botwire.yaml") w' =
      (.error (.error (some (.readLayout "layout.json")) (.corruptLayout .malformed)), w') := by
  intro near odd far
  refine ⟨?_, ?_, ?_⟩
  · have ended : outcome (near.run "botwire.yaml") .small = (.ok (), (outcome (near.run "botwire.yaml") .small).2) :=
      Result.end_of_result (by decide +kernel)
    obtain ⟨ws, report, s, run, -, reopens⟩ := reopen_after ended
    obtain ⟨rfl, rfl, rfl⟩ := LayoutEdit.of_done_small (by decide +kernel) run
    obtain ⟨next, loaded, -, kept, -⟩ :=
      (reopens rfl ownLayout_small fits_small).1.2 ⟨by decide +kernel, by decide +kernel⟩
    refine ⟨_, next, ended, loaded, ?_⟩
    rw [Graph.ids, kept]
    decide +kernel
  · have ended : outcome (odd.run "botwire.yaml") .small = (.ok (), (outcome (odd.run "botwire.yaml") .small).2) :=
      Result.end_of_result (by decide +kernel)
    obtain ⟨ws, report, s, run, -, reopens⟩ := reopen_after ended
    obtain ⟨rfl, rfl, rfl⟩ := LayoutEdit.of_done_small (by decide +kernel) run
    have unwired : (odd.steps.outcome small.session).2.graph.wires = [] := by decide +kernel
    refine ⟨_, ended, fun reopened => ?_⟩
    rw [← unwired] at reopened
    have texts := ((reopens rfl ownLayout_small fits_small).1.1 reopened).2
    exact absurd texts (by decide +kernel)
  · have ended : outcome (far.run "botwire.yaml") .small = (.ok (), (outcome (far.run "botwire.yaml") .small).2) :=
      Result.end_of_result (by decide +kernel)
    obtain ⟨ws, report, s, run, -, reopens⟩ := reopen_after ended
    obtain ⟨rfl, rfl, rfl⟩ := LayoutEdit.of_done_small (by decide +kernel) run
    have refused := (reopens rfl ownLayout_small fits_small).2 (by decide +kernel)
    rw [layoutPath_small] at refused
    exact ⟨_, ended, refused⟩

/-- Arguments with which a run succeeds and writes the layout, but the project does not open again. -/
theorem Arguments.unreadable_after_infinity :
    ∃ i w', Arguments.parse? ["node", "add", "Command", "--x", "inf"] = some i ∧
      outcome i.run .small = (.ok (), w') ∧ w'.disk.kind? "layout.json" = some .file ∧
      outcome (Workspace.loadFrom i.project) w' =
        (.error (.error (some (.readLayout "layout.json")) (.corruptLayout .malformed)), w') := by
  have asked : Arguments.parse? ["node", "add", "Command", "--x", "inf"] =
      some ⟨"botwire.yaml", .edit (.small (1 / 0) 0)⟩ := by decide +kernel
  have ended : outcome ((LayoutEdit.small (1 / 0) 0).run "botwire.yaml") .small =
      (.ok (), (outcome ((LayoutEdit.small (1 / 0) 0).run "botwire.yaml") .small).2) :=
    Result.end_of_result (by decide +kernel)
  obtain ⟨ws, report, s, run⟩ := LayoutEdit.done_of_run ended
  obtain ⟨rfl, rfl, rfl⟩ := LayoutEdit.of_done_small (by decide +kernel) run
  obtain ⟨-, refuses, -⟩ :=
    Workspace.outcome_loadFrom_after run rfl Workspace.ownLayout_small Workspace.fits_small
  have refused := refuses fun finite => absurd (run.finite_iff.1 finite) (by decide +kernel)
  rw [Workspace.layoutPath_small] at refused
  exact ⟨_, _, asked, ended, by decide +kernel, refused⟩

end FlowScript
