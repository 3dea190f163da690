import FlowScript.Command.Run
import FlowScript.Proofs.Command.Editing
import FlowScript.Proofs.Command.Loading

/-!
# Runs of editing commands

A run of an editing command opens the project, makes one step of the session, and writes the layout unless the step
was an idle one. `LayoutEdit.Course` lists what can become of the run and of the disk, and by `Invocation.course_edit`
there is nothing else. `World.apart_afterEdits`: runs one after another leave all other files as they are.
-/

namespace FlowScript
open World

/-! ## The step of the session -/

def Answer.isIdle : Answer → Bool
  | .flag b => !b
  | .count n => n = 0
  | .done | .id _ => false

theorem Graph.node_of_renamed {α : Type} {g g' : Graph α} {id label : String}
    (ended : (renameNode id label).outcome g = (.ok (), g')) : ∃ n, g'.node id = .ok n := by
  rw [renameNode, outcome_editNode] at ended
  cases found : g.node id with
  | error e =>
      rw [found] at ended
      cases ended
  | ok n =>
      rw [found] at ended
      cases ended
      have own := mem_ids_of_node found
      rw [← ids_replaceNode (n := { n with label := if Text.isBlank label then n.typeName else label })
        (node_ok found).2] at own
      exact node_of_mem own

theorem Edit.agree_map_bind {σ α β γ : Type} {r : α → γ → Prop} {e : Edit σ β} {f : β → α} {k : β → Edit σ γ} {s : σ}
    (tells : ∀ b t, e.outcome s = (.ok b, t) → ∃ c, ((k b).outcome t).1 = .ok c ∧ r (f b) c) :
    Result.Agree r ((f <$> e).outcome s).1 ((e >>= k).outcome s).1 := by
  rw [outcome_map, outcome_bind]
  cases ended : e.outcome s with
  | mk result t =>
      cases result with
      | error failure => exact .failed failure
      | ok b =>
          obtain ⟨c, told, related⟩ := tells b t ended
          simp only [told]
          exact .both related

namespace LayoutEdit

theorem agree_steps (change : LayoutEdit) (s : Session Float) :
    Result.Agree (fun answer report => report.changed = !answer.isIdle)
      (change.operation.run.outcome s).1 (change.steps.outcome s).1 := by
  cases change with
  | renameNode id label =>
      -- The label is told from the graph after the renaming, where the node still is.
      refine Edit.agree_map_bind fun _ t ended => ?_
      rw [Session.outcome_onGraph] at ended
      obtain ⟨renamed, rfl⟩ := Prod.mk.inj ended
      obtain ⟨n, found⟩ := Graph.node_of_renamed (Prod.ext renamed rfl)
      simp only [Edit.ask, bind_assoc, Edit.outcome_get_bind, found]
      exact ⟨_, rfl, rfl⟩
  | connect wire =>
      refine Edit.agree_map_bind fun drawn t _ => ?_
      cases drawn <;> exact ⟨_, rfl, rfl⟩
  | disconnect wire =>
      refine Edit.agree_map_bind fun removed t _ => ?_
      cases removed <;> exact ⟨_, rfl, rfl⟩
  | disconnectAll id =>
      refine Edit.agree_map_bind fun count t _ => ⟨_, rfl, ?_⟩
      cases count <;> rfl
  | clear => exact .both rfl
  | _ => exact Edit.agree_map_bind fun _ _ _ => ⟨_, rfl, rfl⟩

theorem operation_of_steps {change : LayoutEdit} {s t : Session Float} {told : Except Error EditReport}
    (edited : change.steps.outcome s = (told, t)) : ∃ result, change.operation.run.outcome s = (result, t) ∧
      Result.Agree (fun answer report => report.changed = !answer.isIdle) result told := by
  refine ⟨(change.operation.run.outcome s).1, Prod.ext rfl ?_, ?_⟩
  · exact (change.state_steps s).symm.trans (congrArg Prod.snd edited)
  · have agree := change.agree_steps s
    rwa [edited] at agree

end LayoutEdit

/-! ## The run -/

theorem outcome_save (ws : Workspace) (w : World) :
    outcome (Workspace.save ws) w =
      match w.disk.write ws.project.layoutPath (Layout.ofGraph ws.session.graph).print.toUTF8 with
      | .ok disk => (.ok (), { w with disk })
      | .error e => (.error (.error (some (.writeFile ws.project.layoutPath)) (.file e)), w) := by
  rw [Workspace.save, during, outcome_adapt, Layout.saveTo, fileStep, outcome_adapt, outcome_writeText]
  cases w.disk.write ws.project.layoutPath (Layout.ofGraph ws.session.graph).print.toUTF8 <;> rfl

namespace World

def tell (w : World) (report : EditReport) : World :=
  { w with log := w.log ++ [(report.level, Text.tame report.message)] }

def settle (w : World) (ws : Workspace) (report : EditReport) : Except Failure Unit × World :=
  if report.changed then
    match w.disk.write ws.project.layoutPath (Layout.ofGraph ws.session.graph).print.toUTF8 with
    | .ok disk => (.ok (), { w with disk }.tell report)
    | .error e => (.error (.error (some (.writeFile ws.project.layoutPath)) (.file e)), w)
  else (.ok (), w.tell report)

theorem disk_settle (w : World) (ws : Workspace) (report : EditReport) :
    (w.settle ws report).2.disk = w.disk ∨ w.disk.write ws.project.layoutPath
      (Layout.ofGraph ws.session.graph).print.toUTF8 = .ok (w.settle ws report).2.disk := by
  unfold settle
  split
  · split
    · rename_i written
      exact .inr written
    · exact .inl rfl
  · exact .inl rfl

end World

namespace LayoutEdit
variable {path : String} {change : LayoutEdit} {w : World} {ws : Workspace} {s : Session Float}

theorem outcome_run_edited {report : EditReport} (held : w.disk.workspace path = .ok ws)
    (edited : change.steps.outcome ws.session = (.ok report, s)) :
    outcome (change.run path) w = w.settle { ws with session := s } report := by
  have loaded : outcome (Workspace.loadFrom path) w = _ := tells_workspace path
  rw [run, outcome_bind, loaded, held]
  simp only [edited, settle]
  cases report.changed with
  | false => rfl
  | true =>
      simp only [if_true]
      rw [outcome_bind, outcome_save]
      cases w.disk.write ws.project.layoutPath (Layout.ofGraph s.graph).print.toUTF8 <;> rfl

theorem run_cases (path : String) (change : LayoutEdit) (w : World) :
    (∃ failure, w.disk.workspace path = .error failure ∧ outcome (change.run path) w = (.error failure, w)) ∨
      (∃ ws e s, w.disk.workspace path = .ok ws ∧ change.steps.outcome ws.session = (.error e, s) ∧
        outcome (change.run path) w = (.error (.error change.activity? e), w)) ∨
      ∃ ws report s, w.disk.workspace path = .ok ws ∧ change.steps.outcome ws.session = (.ok report, s) ∧
        outcome (change.run path) w = w.settle { ws with session := s } report := by
  have loaded : outcome (Workspace.loadFrom path) w = _ := tells_workspace path
  cases held : w.disk.workspace path with
  | error failure => exact .inl ⟨failure, rfl, by rw [run, outcome_bind, loaded, held]⟩
  | ok ws =>
      cases edited : change.steps.outcome ws.session with
      | mk told s =>
          cases told with
          | error e =>
              refine .inr (.inl ⟨ws, e, s, rfl, edited, ?_⟩)
              rw [run, outcome_bind, loaded, held]
              simp only [edited]
              rfl
          | ok report => exact .inr (.inr ⟨ws, report, s, rfl, edited, outcome_run_edited held edited⟩)

structure Opened (path : String) (w : World) (ws : Workspace) : Prop where
  loaded : outcome (Workspace.loadFrom path) w = (.ok ws, w)
  held : w.disk.Holds path ws

/-- The courses that a run of an editing command can take, each with its result and the world after it. The disk changes
in the last one only, and there in one file. -/
inductive Course (path : String) (change : LayoutEdit) (w : World) : Except Failure Unit × World → Prop
  | unopened {failure : Failure} (loaded : outcome (Workspace.loadFrom path) w = (.error failure, w)) :
      Course path change w (.error failure, w)
  | refused {ws : Workspace} {e : Error} {s : Session Float} (opened : Opened path w ws)
      (step : change.operation.run.outcome ws.session = (.error e, s)) :
      Course path change w (.error (.error change.activity? e), w)
  | idle {ws : Workspace} {answer : Answer} {s : Session Float} (opened : Opened path w ws)
      (step : change.operation.run.outcome ws.session = (.ok answer, s)) (idle : answer.isIdle = true)
      (report : EditReport) : Course path change w (.ok (), w.tell report)
  | unwritten {ws : Workspace} {answer : Answer} {s : Session Float} {e : FileError} (opened : Opened path w ws)
      (step : change.operation.run.outcome ws.session = (.ok answer, s)) (busy : answer.isIdle = false)
      (write : w.disk.write ws.project.layoutPath (Layout.ofGraph s.graph).print.toUTF8 = .error e) :
      Course path change w (.error (.error (some (.writeFile ws.project.layoutPath)) (.file e)), w)
  | written {ws : Workspace} {answer : Answer} {s : Session Float} {disk : Disk} (opened : Opened path w ws)
      (step : change.operation.run.outcome ws.session = (.ok answer, s)) (busy : answer.isIdle = false)
      (write : w.disk.write ws.project.layoutPath (Layout.ofGraph s.graph).print.toUTF8 = .ok disk)
      (only : Disk.Rewritten ws.project.layoutPath (Layout.ofGraph s.graph).print.toUTF8 w.disk disk)
      (report : EditReport) : Course path change w (.ok (), { w with disk }.tell report)

theorem opened_of_workspace (held : w.disk.workspace path = .ok ws) : Opened path w ws :=
  ⟨held ▸ (tells_workspace path : outcome (Workspace.loadFrom path) w = _), Disk.holds_of_workspace held⟩

end LayoutEdit

/-- Every run of an editing command takes one of the courses: it is one step of the session on the graph that is stored,
and the graph after the step is what is written. -/
theorem Invocation.course_edit (path : String) (change : LayoutEdit) (w : World) :
    change.Course path w (outcome (run ⟨path, .edit change⟩) w) := by
  change change.Course path w (outcome (change.run path) w)
  rcases change.run_cases path w with
    ⟨failure, held, ended⟩ | ⟨ws, e, s, held, edited, ended⟩ | ⟨ws, report, s, held, edited, ended⟩
  · rw [ended]
    exact .unopened (held ▸ tells_workspace path)
  · obtain ⟨result, step, agree⟩ := LayoutEdit.operation_of_steps edited
    cases agree
    rw [ended]
    exact .refused (LayoutEdit.opened_of_workspace held) step
  · have opened := LayoutEdit.opened_of_workspace held
    obtain ⟨result, step, agree⟩ := LayoutEdit.operation_of_steps edited
    cases agree with
    | @both answer report changed =>
        rw [ended, settle, changed]
        cases idle : answer.isIdle with
        | true => exact .idle opened step idle report
        | false =>
            cases write : w.disk.write ws.project.layoutPath (Layout.ofGraph s.graph).print.toUTF8 with
            | error e =>
                simp only [Bool.not_false, if_true]
                exact .unwritten opened step idle write
            | ok disk =>
                simp only [Bool.not_false, if_true]
                exact .written opened step idle write (Disk.rewritten_of_write write) report

/-! ## Runs one after another -/

structure Disk.Arranged (d : Disk) (path : String) (p : Project) (place : Location) : Prop where
  project : d.project path = .ok p
  layout : d.resolve p.layoutPath = .ok place
  settings : d.resolve (d.locate path).1 ≠ .ok place

theorem Disk.Apart.arranged {d d' : Disk} {path : String} {p : Project} {place : Location} (h : Apart place d d')
    (own : d.Arranged path p place) : d'.Arranged path p place := by
  refine ⟨h.grown.project own.project own.settings, h.grown.resolve own.layout, fun same => own.settings ?_⟩
  rw [h.locate] at same
  exact h.symm.grown.resolve same

namespace World
variable {path : String} {p : Project} {place : Location} {w : World}

def afterEdits (w : World) (path : String) (changes : List LayoutEdit) : World :=
  changes.foldl (fun w change => (outcome (change.run path) w).2) w

theorem apart_edit (own : w.disk.Arranged path p place) (change : LayoutEdit) :
    let disk := (outcome (change.run path) w).2.disk
    disk = w.disk ∨ Disk.Apart place w.disk disk := by
  rcases change.run_cases path w with ⟨_, -, ended⟩ | ⟨_, _, _, -, -, ended⟩ | ⟨ws, report, s, held, -, ended⟩ <;>
    rw [ended]
  · exact .inl rfl
  · exact .inl rfl
  · refine (disk_settle w _ report).imp_right fun written => ?_
    obtain ⟨place', resolved, apart, -⟩ := Disk.rewritten_of_write written
    have same : ws.project = p := Except.ok.inj ((Disk.holds_of_workspace held).project.symm.trans own.project)
    rw [same, own.layout] at resolved
    exact Except.ok.inj resolved ▸ apart

theorem apart_afterEdits (own : w.disk.Arranged path p place) (changes : List LayoutEdit) :
    let disk := (w.afterEdits path changes).disk
    disk = w.disk ∨ Disk.Apart place w.disk disk := by
  induction changes generalizing w with
  | nil => exact .inl rfl
  | cons change rest ih =>
      rcases apart_edit own change with same | apart
      · have later := ih (w := (outcome (change.run path) w).2) (same ▸ own)
        rwa [same] at later
      · rcases ih (apart.arranged own) with same | later
        · exact .inr (same ▸ apart)
        · exact .inr (apart.trans later)

end World
end FlowScript
