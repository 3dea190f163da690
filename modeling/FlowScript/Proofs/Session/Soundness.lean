import Mathlib.Control.Monad.Basic
import FlowScript.Catalog.Builtin
import FlowScript.Proofs.Session.Operation

namespace FlowScript

variable {α : Type} [Scalar α]

namespace Operation

theorem sound_next (op : Operation α) (s : Session α) (h : s.graph.Sound s.catalog) :
    (op.next s).graph.Sound s.catalog := by
  cases op with
  | load layout =>
      rw [graph_load]
      cases described : layout.toGraph s.catalog with
      | ok g => exact Layout.sound_toGraph described
      | error e => exact h
  | _ => exact h.revision (revision_next _ rfl s)

end Operation

namespace Session

theorem sound_history (catalog : Catalog) (shape : NodeShape α) (history : List (Operation α)) :
    ((Session.new catalog shape).after history).catalog = catalog ∧
      ((Session.new catalog shape).after history).graph.Sound catalog := by
  refine after_invariant (P := fun s => s.catalog = catalog ∧ s.graph.Sound catalog)
    (fun op s h => ?_) history ⟨rfl, Graph.sound_empty⟩
  obtain ⟨rfl, sound⟩ := h
  exact ⟨(op.next_frame s).1, op.sound_next s sound⟩

/-- Whatever the history of a session, its graph is sound over its catalog, and once a node is deleted nothing in
the graph mentions its id. -/
theorem sound_after (catalog : Catalog) (shape : NodeShape α) (history : List (Operation α)) :
    let s := (Session.new catalog shape).after history
    s.catalog = catalog ∧ s.graph.Sound catalog ∧
      ∀ id t, (Operation.deleteNode id).run.outcome s = (.ok .done, t) →
        (∀ n ∈ t.graph.nodes, n.id ≠ id) ∧
          ∀ w ∈ t.graph.wires, w.source ≠ id ∧ w.target ≠ id := by
  intro s
  obtain ⟨known, sound⟩ := sound_history catalog shape history
  refine ⟨known, sound, fun id t deleted => ?_⟩
  rw [Operation.run, Edit.outcome_map, outcome_onGraph, Graph.outcome_deleteNode] at deleted
  cases found : s.graph.node id with
  | error e =>
      rw [found] at deleted
      cases deleted
  | ok n =>
      rw [found] at deleted
      cases deleted
      refine ⟨fun other mem => by simpa using (List.mem_filter.1 mem).2, fun w mem => ?_⟩
      simpa [Wire.touches] using (List.mem_filter.1 mem).2

theorem sound_after_wired_pair :
    let s := (Session.new Catalog.builtin (.standard : NodeShape Float)).after
      [.addNode "Command" ⟨0, 0⟩ (some "a"), .addNode "Print Console" ⟨0, 0⟩ (some "b"),
        .connect ⟨"a", 0, "b", 0⟩]
    s.graph.wires = [⟨"a", 0, "b", 0⟩] ∧
      ∃ t, (Operation.deleteNode "a").run.outcome s = (.ok .done, t) ∧
        (∀ n ∈ t.graph.nodes, n.id ≠ "a") ∧ ∀ w ∈ t.graph.wires, w.source ≠ "a" ∧ w.target ≠ "a" := by
  intro s
  have deleted : (Operation.deleteNode "a").run.outcome s =
      (.ok .done, (Operation.deleteNode "a").next s) :=
    Prod.ext (by decide +kernel) rfl
  exact ⟨by decide +kernel, _, deleted, (sound_after _ _ _).2.2 "a" _ deleted⟩

end Session
end FlowScript
