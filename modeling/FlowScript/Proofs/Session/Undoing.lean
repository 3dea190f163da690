import FlowScript.Catalog.Builtin
import FlowScript.Proofs.Graph.Undoing
import FlowScript.Proofs.Session.Soundness

namespace FlowScript

variable {α : Type} [Scalar α]

namespace Operation

def wire? (s : Session α) : Operation α → Option Wire
  | .connect w => some w
  | .connectAtWindow source sourcePort window radius =>
      (s.hitTest (s.view.toCanvas window) .input radius).map fun hit => ⟨source, sourcePort, hit.id, hit.index⟩
  | _ => none

theorem outcome_of_wire? {op : Operation α} {s : Session α} {w : Wire} (own : op.wire? s = some w) :
    op.run.outcome s = (connect w).run.outcome s := by
  cases op with
  | connect w' =>
      cases own
      rfl
  | connectAtWindow source sourcePort window radius =>
      rw [run, run, Edit.outcome_map, Edit.outcome_map, Session.outcome_connectAtWindow]
      cases found : s.hitTest (s.view.toCanvas window) .input radius with
      | none =>
          rw [wire?, found] at own
          cases own
      | some hit =>
          rw [wire?, found] at own
          cases own
          rfl
  | _ => cases own

theorem added_of_id {op : Operation α} {s t : Session α} {id : String}
    (added : op.run.outcome s = (.ok (.id id), t)) :
    ∃ (n : Node α) (next : Nat), n.id = id ∧ id ∉ s.graph.ids ∧
      t = { s with graph := { s.graph with nodes := s.graph.nodes ++ [n], nextNumber := next } } := by
  have atPoint {typeName : String} {position : Point α} {wished : Option String}
      (h : (addNode typeName position wished).run.outcome s = (.ok (.id id), t)) :
      ∃ (n : Node α) (next : Nat), n.id = id ∧ id ∉ s.graph.ids ∧
        t = { s with graph := { s.graph with nodes := s.graph.nodes ++ [n], nextNumber := next } } := by
    rw [run, Edit.outcome_map, Session.outcome_addNode] at h
    rcases Graph.addNode_cases s.catalog typeName position wished s.graph with
      ⟨e, next, failed⟩ | ⟨type, id', next, -, free, done⟩
    · rw [failed] at h
      cases h
    · rw [done] at h
      cases h
      exact ⟨type.newNode id position, next, rfl, free, rfl⟩
  cases op with
  | addNode typeName position wished => exact atPoint added
  | addNodeAtWindow typeName window => exact atPoint (run_addNodeAtWindow typeName window s ▸ added)
  | _ =>
      rw [run, Edit.outcome_map] at added
      obtain ⟨told, -⟩ := Prod.mk.inj added
      obtain ⟨_, -, other⟩ := Result.map_eq_ok.1 told
      cases other

end Operation

namespace Session

/-- A run of connections, each of a wire that touches the node; they may be refused. -/
inductive Attached (id : String) (s : Session α) : Session α → Prop
  | start : Attached id s s
  | step {t : Session α} {op : Operation α} {w : Wire} (earlier : Attached id s t) (wire : op.wire? t = some w)
      (own : w.touches id = true) : Attached id s (op.next t)

theorem Attached.joined {id : String} {s t : Session α} (h : Attached id s t) :
    t = { s with graph := t.graph } ∧ Graph.Joined id s.graph t.graph := by
  induction h with
  | start => exact ⟨rfl, .refl id s.graph⟩
  | @step t op w _ wire own ih =>
      obtain ⟨frame, joined⟩ := ih
      rw [Operation.next, Operation.outcome_of_wire? wire, Operation.run, Edit.outcome_map, outcome_onGraph]
      refine ⟨?_, joined.connect own⟩
      cases t
      cases frame
      rfl

/-- What is taken back: a wire that was drawn, by disconnecting it, and a node that was added, by deleting it, whatever
wires were drawn to or from it meanwhile. Then only the id counter tells that it was there. And what is taken away by
the deletion of a node: the node and the wires that touch it. -/
theorem undo_after (catalog : Catalog) (shape : NodeShape α) (history : List (Operation α)) :
    let s := (Session.new catalog shape).after history
    (∀ (op : Operation α) w t, op.wire? s = some w → op.run.outcome s = (.ok (.flag true), t) →
      (Operation.disconnect w).run.outcome t = (.ok (.flag true), s)) ∧
      (∀ (op : Operation α) id t u, op.run.outcome s = (.ok (.id id), t) → Attached id t u →
        (Operation.deleteNode id).run.outcome u =
          (.ok .done, { s with graph := { s.graph with nextNumber := t.graph.nextNumber } })) ∧
      (∀ before n after, s.graph.nodes = before ++ n :: after →
        (Operation.deleteNode n.id).run.outcome s =
          (.ok .done, { s with graph := { s.graph with
            nodes := before ++ after, wires := s.graph.wires.filter (!·.touches n.id) } })) ∧
      ∀ id, id ∉ s.graph.ids → (Operation.deleteNode id).run.outcome s = (.error (.nodeNotFound id), s) := by
  intro s
  obtain ⟨-, sound⟩ := sound_history catalog shape history
  have deletion {id : String} {u : Session α} (own : id ∈ u.graph.ids) : (Operation.deleteNode id).run.outcome u =
      (.ok .done, { u with graph := u.graph.without id }) := by
    obtain ⟨_, found⟩ := Graph.node_of_mem own
    rw [Operation.run, Edit.outcome_map, outcome_onGraph, Graph.outcome_deleteNode, found]
    rfl
  refine ⟨fun op w t wire drawn => ?_, fun op id t u added attached => ?_, fun before n after split => ?_,
    fun id missing => ?_⟩
  · rw [Operation.outcome_of_wire? wire, Operation.run, Edit.outcome_map, outcome_onGraph] at drawn
    obtain ⟨told, rfl⟩ := Prod.mk.inj drawn
    obtain ⟨_, told, same⟩ := Result.map_eq_ok.1 told
    cases same
    have undone := Graph.outcome_disconnect_of_connect (Prod.ext told rfl)
    rw [Operation.run, Edit.outcome_map, outcome_onGraph, undone]
    rfl
  · obtain ⟨n, next, rfl, free, rfl⟩ := Operation.added_of_id added
    obtain ⟨frame, joined⟩ := attached.joined
    have own : n.id ∈ u.graph.ids := by
      rw [joined.ids_eq, Graph.ids_addedLast]
      simp
    rw [deletion own, joined.without_eq, Graph.without_addedLast, sound.without_of_free free, frame]
  · have own : n.id ∈ s.graph.ids := List.mem_map_of_mem (by simp [split])
    rw [deletion own, Graph.without, Graph.filter_apart_of_split sound.distinct split]
  · rw [Operation.run, Edit.outcome_map, outcome_onGraph, Graph.outcome_deleteNode]
    cases found : s.graph.node id with
    | ok n => exact absurd (Graph.mem_ids_of_node found) missing
    | error e =>
        rw [(Graph.node_error found).1]
        rfl

theorem undo_after_insertion :
    let s := (Session.new Catalog.builtin (.standard : NodeShape Float)).after
      [.addNode "Command" ⟨0, 0⟩ (some "a"), .addNode "Print Console" ⟨0, 0⟩ (some "b"),
        .connect ⟨"a", 0, "b", 0⟩]
    let t := (Operation.addNode "Send Message" ⟨0, 0⟩ none).next s
    let u := t.after [.connect ⟨"a", 0, "node_0", 0⟩, .connect ⟨"node_0", 0, "b", 0⟩]
    u.graph.wires = [⟨"a", 0, "b", 0⟩, ⟨"a", 0, "node_0", 0⟩, ⟨"node_0", 0, "b", 0⟩] ∧
      (Operation.deleteNode "node_0").run.outcome u =
        (.ok .done, { s with graph := { s.graph with nextNumber := 1 } }) := by
  intro s t u
  have added : (Operation.addNode "Send Message" ⟨0, 0⟩ none).run.outcome s = (.ok (.id "node_0"), t) :=
    Prod.ext (by decide +kernel) rfl
  have once : Attached "node_0" t ((Operation.connect ⟨"a", 0, "node_0", 0⟩).next t) := .step .start rfl (by decide)
  have attached : Attached "node_0" t u := by
    change Attached "node_0" t ((Operation.connect ⟨"node_0", 0, "b", 0⟩).next _)
    exact .step once rfl (by decide)
  have counted : t.graph.nextNumber = 1 := by decide +kernel
  have undone := (undo_after Catalog.builtin (.standard : NodeShape Float)
    [.addNode "Command" ⟨0, 0⟩ (some "a"), .addNode "Print Console" ⟨0, 0⟩ (some "b"),
      .connect ⟨"a", 0, "b", 0⟩]).2.1 _ "node_0" t u added attached
  exact ⟨by decide +kernel, counted ▸ undone⟩

end Session
end FlowScript
