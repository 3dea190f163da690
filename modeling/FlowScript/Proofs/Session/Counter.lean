import Mathlib.Control.Monad.Basic
import FlowScript.Catalog.Builtin
import FlowScript.Proofs.Graph.Ledger
import FlowScript.Proofs.Session.Operation

namespace FlowScript

variable {α : Type} [Scalar α]

namespace Operation

def entered (given : List String) : Except Error Answer → List String
  | .ok (.id id) => given ++ [id]
  | _ => given

theorem nextAfter_le_entered (given : List String) (result : Except Error Answer) :
    NodeId.nextAfter given ≤ NodeId.nextAfter (entered given result) := by
  unfold entered
  split
  · rw [NodeId.nextAfter_concat]
    exact NodeId.le_past _ _
  · exact Nat.le_refl _

def givenAfter (op : Operation α) (s : Session α) (given : List String) : List String :=
  match op with
  | .addNode .. | .addNodeAtWindow .. => entered given (op.run.outcome s).1
  | .clear => []
  | .load layout =>
      match (op.run.outcome s).1 with
      | .ok _ => layout.nodes.map NodeRecord.id
      | .error _ => given
  | _ => given

theorem ledger_addNode (typeName : String) (position : Point α) (wished : Option String)
    (s : Session α) {given : List String} (h : s.graph.Ledger given) :
    ((addNode typeName position wished).next s).graph.Ledger
      ((addNode typeName position wished).givenAfter s given) := by
  simp only [next, givenAfter, run, Edit.outcome_map, Session.outcome_addNode]
  rcases h.addNode s.catalog typeName position wished with ⟨e, failed⟩ | ⟨id, g, added, ledger⟩
  · rw [failed]
    exact h
  · rw [added]
    exact ledger

theorem ledger_load (layout : Layout α) (s : Session α) {given : List String}
    (h : s.graph.Ledger given) :
    ((load layout).next s).graph.Ledger ((load layout).givenAfter s given) := by
  simp only [next, givenAfter, run, Edit.outcome_map, Session.outcome_load, Layout.outcome_load]
  cases described : layout.toGraph s.catalog with
  | error e => exact h
  | ok g =>
      obtain ⟨nodes, records, -, -, rfl⟩ := Layout.toGraph_eq_ok.1 described
      rw [← Layout.ids_of_describes records]
      exact ⟨rfl, fun id mem => mem⟩

theorem ledger_next (op : Operation α) (s : Session α) {given : List String}
    (h : s.graph.Ledger given) : (op.next s).graph.Ledger (op.givenAfter s given) := by
  cases op with
  | addNode typeName position wished => exact ledger_addNode typeName position wished s h
  | addNodeAtWindow typeName window =>
      rw [next, givenAfter, run_addNodeAtWindow]
      exact ledger_addNode typeName (s.view.toCanvas window) none s h
  | load layout => exact ledger_load layout s h
  | clear => exact Graph.ledger_empty
  | _ => exact h.tweak (tweak_next _ rfl s)

theorem counter_le_next (op : Operation α) (s : Session α) {given : List String}
    (h : s.graph.Ledger given) (notClear : op ≠ .clear) (notLoad : ∀ layout, op ≠ .load layout) :
    s.graph.nextNumber ≤ (op.next s).graph.nextNumber := by
  rw [h.counter, (op.ledger_next s h).counter]
  cases op with
  | clear => exact absurd rfl notClear
  | load layout => exact absurd rfl (notLoad layout)
  | addNode | addNodeAtWindow => exact nextAfter_le_entered given _
  | _ => exact Nat.le_refl _

end Operation

namespace Session

def givenAfter (s : Session α) (given : List String) : List (Operation α) → List String
  | [] => given
  | op :: rest => (op.next s).givenAfter (op.givenAfter s given) rest

theorem ledger_after (history : List (Operation α)) {s : Session α} {given : List String}
    (start : s.graph.Ledger given) : (s.after history).graph.Ledger (s.givenAfter given history) := by
  induction history generalizing s given with
  | nil => exact start
  | cons op rest ih => exact ih (op.ledger_next s start)

omit [Scalar α] in
theorem outcome_addNode_none {s : Session α} {given : List String} (h : s.graph.Ledger given)
    {typeName : String} {t : NodeType} (known : s.catalog.find typeName = .ok t) (position : Point α) :
    (addNode typeName position none).outcome s =
      let id := NodeId.ofNumber s.graph.nextNumber
      if s.graph.nextNumber < NodeId.lastNumber then
        (.ok id, { s with graph := { s.graph with
          nodes := s.graph.nodes ++ [t.newNode id position], nextNumber := s.graph.nextNumber + 1 } })
      else (.error (.idsExhausted id), s) := by
  rw [outcome_addNode, Graph.outcome_addNode, known, Graph.outcome_chooseId_none, h.allocate]
  by_cases left : s.graph.nextNumber < NodeId.lastNumber
  · simp only [if_pos left]
  · simp only [if_neg left]

/-- The counter of a session is the one its ledger leaves. While numbers are left, a generated id is new and
is found at the first attempt; when they run out, that is what is reported. No operation but clearing and
loading sets the counter back. -/
theorem counter_after (catalog : Catalog) (shape : NodeShape α) (history : List (Operation α)) :
    let s := (Session.new catalog shape).after history
    let given := (Session.new catalog shape).givenAfter [] history
    let id := NodeId.ofNumber s.graph.nextNumber
    s.graph.nextNumber = NodeId.nextAfter given ∧
      (∀ typeName t position, catalog.find typeName = .ok t →
        (s.graph.nextNumber < NodeId.lastNumber →
          id ∉ given ∧ id ∉ s.graph.ids ∧
            (addNode typeName position none).outcome s = (.ok id, { s with graph := { s.graph with
              nodes := s.graph.nodes ++ [t.newNode id position],
              nextNumber := s.graph.nextNumber + 1 } })) ∧
        ((∃ last, ((addNode typeName position none).outcome s).1 = .error (.idsExhausted last)) ↔
          s.graph.nextNumber = NodeId.lastNumber)) ∧
      s.graph.nextNumber ≤ NodeId.lastNumber ∧
      ∀ op : Operation α, op = .clear ∨ (∃ layout, op = .load layout) ∨
        s.graph.nextNumber ≤ (op.next s).graph.nextNumber := by
  intro s given id
  have ledger : s.graph.Ledger given := ledger_after history Graph.ledger_empty
  have catalog_eq : s.catalog = catalog :=
    after_invariant (P := fun s => s.catalog = catalog)
      (fun op s known => (op.next_frame s).1.trans known) history rfl
  refine ⟨ledger.counter, fun typeName t position known => ?_, ledger.le_last, fun op => ?_⟩
  · rw [outcome_addNode_none ledger (catalog_eq ▸ known)]
    dsimp only
    constructor
    · intro left
      rw [if_pos left]
      exact ⟨ledger.fresh left, fun mem => ledger.fresh left (ledger.recorded id mem), rfl⟩
    · split
      · rename_i left
        simp [Nat.ne_of_lt left]
      · rename_i spent
        simp [Nat.le_antisymm ledger.le_last (Nat.le_of_not_lt spent)]
  · by_contra other
    obtain ⟨notClear, other⟩ := not_or.1 other
    obtain ⟨notLoad, less⟩ := not_or.1 other
    exact less (op.counter_le_next s ledger notClear (not_exists.1 notLoad))

theorem counter_after_deletion :
    let s := (Session.new Catalog.builtin (.standard : NodeShape Float)).after
      [.addNode "Command" ⟨0, 0⟩ (some "node_007"), .addNode "Command" ⟨0, 0⟩ (some "start"),
        .deleteNode "node_007"]
    s.graph.ids = ["start"] ∧ ((addNode "Command" ⟨0, 0⟩ none).outcome s).1 = .ok "node_8" := by
  intro s
  have additions := (counter_after Catalog.builtin (.standard : NodeShape Float)
    [.addNode "Command" ⟨0, 0⟩ (some "node_007"), .addNode "Command" ⟨0, 0⟩ (some "start"),
      .deleteNode "node_007"]).2.1
  obtain ⟨t, known⟩ : ∃ t, Catalog.builtin.find "Command" = .ok t := ⟨_, rfl⟩
  have left : s.graph.nextNumber < NodeId.lastNumber := by decide +kernel
  have added := ((additions "Command" t ⟨0, 0⟩ known).1 left).2.2
  have named : NodeId.ofNumber s.graph.nextNumber = "node_8" := by decide +kernel
  refine ⟨by decide +kernel, ?_⟩
  rw [added, named]

end Session
end FlowScript
