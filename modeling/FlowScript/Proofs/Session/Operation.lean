import FlowScript.Session
import FlowScript.Proofs.Layout.Restore

/-!
# Histories of a session

A session is reached from a new one by a list of operations; an operation that fails leaves the session
in whatever state it came to, and the history goes on from there. `Session.after` is the session at the
end of a history, and `Session.after_invariant` the principle by which its properties are proved.
-/

namespace FlowScript

inductive Viewport.Motion (α : Type) where
  | pan (dx dy : α)
  | zoomBy (anchor : Point α) (factor : α)
  | zoomTo (anchor : Point α) (scale : α)
  | moveOrigin (origin : Point α)
  | restart (origin : Point α)

/-- Whatever can be done to a session, with all its arguments. -/
inductive Operation (α : Type) where
  | addNode (typeName : String) (position : Point α) (wished : Option String)
  | addNodeAtWindow (typeName : String) (window : Point α)
  | moveNode (id : String) (position : Point α)
  | setProperty (id key value : String)
  | renameNode (id label : String)
  | connect (w : Wire)
  | connectAtWindow (source : String) (sourcePort : Nat) (window : Point α) (radius : α)
  | disconnect (w : Wire)
  | disconnectAll (id : String)
  | deleteNode (id : String)
  | clear
  | load (layout : Layout α)
  | look (motion : Viewport.Motion α)

inductive Answer where
  | done
  | id (id : String)
  | flag (b : Bool)
  | count (n : Nat)
  deriving DecidableEq, Repr

variable {α : Type}

namespace Session

@[simp] theorem outcome_onGraph {β : Type} (e : Edit (Graph α) β) (s : Session α) :
    (onGraph e).outcome s = ((e.outcome s.graph).1, { s with graph := (e.outcome s.graph).2 }) := rfl

theorem graph_onGraph {β γ : Type} (f : β → γ) (e : Edit (Graph α) β) (s : Session α) :
    ((f <$> onGraph e).outcome s).2.graph = (e.outcome s.graph).2 := by
  rw [Edit.outcome_map, outcome_onGraph]

@[simp] theorem outcome_addNode (typeName : String) (position : Point α) (wished : Option String)
    (s : Session α) :
    (addNode typeName position wished).outcome s =
      (((Graph.addNode s.catalog typeName position wished).outcome s.graph).1,
        { s with graph := ((Graph.addNode s.catalog typeName position wished).outcome s.graph).2 }) :=
  rfl

@[simp] theorem outcome_load (layout : Layout α) (s : Session α) :
    (load layout).outcome s = (((layout.load s.catalog).outcome s.graph).1,
      { s with graph := ((layout.load s.catalog).outcome s.graph).2 }) := rfl

end Session

variable [Scalar α]

def Viewport.Motion.apply : Viewport.Motion α → Viewport α → Viewport α
  | .pan dx dy => (·.pan dx dy)
  | .zoomBy anchor factor => (·.zoomBy anchor factor)
  | .zoomTo anchor scale => (·.zoomTo anchor scale)
  | .moveOrigin origin => (·.withOrigin origin)
  | .restart origin => fun _ => .atOrigin origin

namespace Operation

def run : Operation α → Edit (Session α) Answer
  | .addNode typeName position wished => Answer.id <$> Session.addNode typeName position wished
  | .addNodeAtWindow typeName window => Answer.id <$> Session.addNodeAtWindow typeName window
  | .moveNode id position => (fun _ => .done) <$> Session.onGraph (Graph.moveNode id position)
  | .setProperty id key value => (fun _ => .done) <$> Session.onGraph (Graph.setProperty id key value)
  | .renameNode id label => (fun _ => .done) <$> Session.onGraph (Graph.renameNode id label)
  | .connect w => Answer.flag <$> Session.onGraph (Graph.connect w)
  | .connectAtWindow source sourcePort window radius =>
      Answer.flag <$> Session.connectAtWindow source sourcePort window radius
  | .disconnect w => Answer.flag <$> Session.onGraph (Graph.disconnect w)
  | .disconnectAll id => Answer.count <$> Session.onGraph (Graph.disconnectAll id)
  | .deleteNode id => (fun _ => .done) <$> Session.onGraph (Graph.deleteNode id)
  | .clear => (fun _ => .done) <$> Session.onGraph Graph.clear
  | .load layout => (fun _ => .done) <$> Session.load layout
  | .look motion => (fun _ => .done) <$> Session.look motion.apply

def next (op : Operation α) (s : Session α) : Session α := (op.run.outcome s).2

def isQuiet : Operation α → Bool
  | .addNode .. | .addNodeAtWindow .. | .clear | .load _ => false
  | _ => true

def isLoad : Operation α → Bool
  | .load _ => true
  | _ => false

end Operation

namespace Session

def after (s : Session α) (history : List (Operation α)) : Session α :=
  history.foldl (fun s op => op.next s) s

theorem after_invariant_of {P : Session α → Prop} {history : List (Operation α)}
    (step : ∀ op ∈ history, ∀ s, P s → P (Operation.next op s)) {s : Session α} (start : P s) :
    P (s.after history) := by
  induction history generalizing s with
  | nil => exact start
  | cons op rest ih => exact ih (fun op mem => step op (List.mem_cons_of_mem _ mem)) (step op (by simp) s start)

theorem after_invariant {P : Session α → Prop} (step : ∀ op s, P s → P (Operation.next op s))
    (history : List (Operation α)) {s : Session α} (start : P s) : P (s.after history) :=
  after_invariant_of (fun op _ => step op) start

theorem outcome_addNodeAtWindow (typeName : String) (window : Point α) (s : Session α) :
    (addNodeAtWindow typeName window).outcome s =
      (addNode typeName (s.view.toCanvas window) none).outcome s := by
  rw [addNodeAtWindow, Edit.outcome_get_bind]

theorem outcome_connectAtWindow (source : String) (sourcePort : Nat) (window : Point α) (radius : α)
    (s : Session α) :
    (connectAtWindow source sourcePort window radius).outcome s =
      match s.hitTest (s.view.toCanvas window) .input radius with
      | some hit => (onGraph (Graph.connect ⟨source, sourcePort, hit.id, hit.index⟩)).outcome s
      | none => (.ok false, s) := by
  rw [connectAtWindow, Edit.outcome_get_bind]
  cases s.hitTest (s.view.toCanvas window) .input radius <;> rfl

end Session

namespace Operation

theorem next_frame (op : Operation α) (s : Session α) :
    (op.next s).catalog = s.catalog ∧ (op.next s).shape = s.shape := by
  cases op with
  | connectAtWindow source sourcePort window radius =>
      simp only [next, run, Edit.outcome_map, Session.outcome_connectAtWindow]
      cases s.hitTest (s.view.toCanvas window) .input radius <;> exact ⟨rfl, rfl⟩
  | _ =>
      simp only [next, run, Edit.outcome_map]
      exact ⟨rfl, rfl⟩

theorem tweak_next (op : Operation α) (quiet : op.isQuiet = true) (s : Session α) :
    Graph.Tweak s.graph (op.next s).graph := by
  cases op with
  | addNode | addNodeAtWindow | clear | load => cases quiet
  | moveNode id position =>
      rw [next, run, Session.graph_onGraph]
      exact Graph.tweak_moveNode position s.graph
  | setProperty id key value =>
      rw [next, run, Session.graph_onGraph]
      exact Graph.tweak_setProperty key value s.graph
  | renameNode id label =>
      rw [next, run, Session.graph_onGraph]
      exact Graph.tweak_renameNode label s.graph
  | connect w =>
      rw [next, run, Session.graph_onGraph]
      exact Graph.tweak_connect w s.graph
  | connectAtWindow source sourcePort window radius =>
      rw [next, run, Edit.outcome_map, Session.outcome_connectAtWindow]
      cases s.hitTest (s.view.toCanvas window) .input radius with
      | none => exact .kept
      | some hit => exact Graph.tweak_connect _ s.graph
  | disconnect w =>
      rw [next, run, Session.graph_onGraph]
      exact Graph.tweak_disconnect w s.graph
  | disconnectAll id =>
      rw [next, run, Session.graph_onGraph]
      exact Graph.tweak_disconnectAll s.graph
  | deleteNode id =>
      rw [next, run, Session.graph_onGraph]
      exact Graph.tweak_deleteNode s.graph
  | look motion => exact .kept

theorem run_addNodeAtWindow (typeName : String) (window : Point α) (s : Session α) :
    (addNodeAtWindow typeName window).run.outcome s =
      (addNode typeName (s.view.toCanvas window) none).run.outcome s := by
  rw [run, run, Edit.outcome_map, Edit.outcome_map, Session.outcome_addNodeAtWindow]

theorem revision_next (op : Operation α) (own : op.isLoad = false) (s : Session α) :
    Graph.Revision s.catalog s.graph (op.next s).graph := by
  cases op with
  | load => cases own
  | addNode typeName position wished =>
      rw [next, run, Edit.outcome_map, Session.outcome_addNode]
      exact .grown typeName position wished
  | addNodeAtWindow typeName window =>
      rw [next, run_addNodeAtWindow, run, Edit.outcome_map, Session.outcome_addNode]
      exact .grown typeName (s.view.toCanvas window) none
  | clear => exact .cleared
  | _ => exact .tweaked (tweak_next _ rfl s)

theorem graph_load (layout : Layout α) (s : Session α) :
    ((load layout).next s).graph = match layout.toGraph s.catalog with
      | .ok g => g
      | .error _ => s.graph := by
  rw [next, run, Edit.outcome_map, Session.outcome_load, Layout.outcome_load]
  cases layout.toGraph s.catalog <;> rfl

end Operation
end FlowScript
