import FlowScript.Command.Editing
import FlowScript.Proofs.Layout.Printer
import FlowScript.Proofs.Result
import FlowScript.Proofs.Session.Operation

namespace FlowScript

/-! ## Port numbers -/

namespace Graph
variable {α : Type} {g g' : Graph α} {catalog : Catalog}

structure FitsWords (g : Graph α) : Prop where
  ports : ∀ n ∈ g.nodes, n.ports.FitsWords
  wires : ∀ w ∈ g.wires, w.FitsWords

theorem fitsWords_empty : (empty : Graph α).FitsWords := ⟨by simp [empty], by simp [empty]⟩

theorem FitsWords.wire (h : g.FitsWords) {w : Wire} (allowed : g.checkWire w = .ok ()) : w.FitsWords := by
  obtain ⟨source, target, hs, ht, output, input⟩ := checkWire_ok.1 allowed
  exact ⟨Nat.lt_trans output (h.ports source (node_ok hs).1).2, Nat.lt_trans input (h.ports target (node_ok ht).1).1⟩

theorem FitsWords.revision (types : ∀ t ∈ catalog.types, t.portCounts.FitsWords) (h : g.FitsWords)
    (r : Revision catalog g g') : g'.FitsWords := by
  constructor
  case ports =>
    refine r.forall_nodes (fun n n' fits altered => ?_) (fun t known _ _ => types t known) h.ports
    rw [altered.frame.2.2]
    exact fits
  case wires =>
    intro w mem
    rcases r.mem_wires mem with old | allowed
    · exact h.wires w old
    · exact h.wire allowed

end Graph

namespace Layout
variable {α : Type} {g : Graph α} {catalog : Catalog} {layout : Layout α}

theorem fitsWords_ofGraph (h : g.FitsWords) : (ofGraph g).FitsWords := by
  refine ⟨fun r mem p own => ?_, h.wires⟩
  obtain ⟨n, inGraph, rfl⟩ := List.mem_map.1 mem
  cases own
  exact h.ports n inGraph

theorem fitsWords_toGraph (types : ∀ t ∈ catalog.types, t.portCounts.FitsWords) (fits : layout.FitsWords)
    (described : layout.toGraph catalog = .ok g) : g.FitsWords := by
  obtain ⟨nodes, records, -, -, rfl⟩ := toGraph_eq_ok.1 described
  refine ⟨fun n mem => ?_, fits.2⟩
  obtain ⟨r, own, t, known, rfl⟩ := Result.exists_related records mem
  cases stored : r.ports with
  | none =>
      rw [NodeRecord.toNode, NodeRecord.fill, stored]
      exact types t (Catalog.find_ok known).1
  | some p =>
      rw [NodeRecord.toNode, NodeRecord.fill, stored]
      exact fits.1 r own p stored

end Layout

/-! ## Positions -/

namespace Graph
variable {α : Type} {g : Graph α} {id : String} {P : Point α → Prop}

def Placed (P : Point α → Prop) (g : Graph α) : Prop := ∀ n ∈ g.nodes, P n.position

theorem placed_empty : (empty : Graph α).Placed P := fun _ mem => (List.not_mem_nil mem).elim

theorem Placed.editNode (h : g.Placed P) {change : Node α → Except Error (Node α)}
    (keeps : ∀ n n', change n = .ok n' → P n.position → P n'.position) :
    ((Graph.editNode id change).outcome g).2.Placed P := by
  rw [outcome_editNode]
  cases changed : g.node id >>= change with
  | error e => exact h
  | ok n' =>
      obtain ⟨n, found, changed⟩ := Result.bind_eq_ok.1 changed
      intro other mem
      obtain ⟨old, own, rfl⟩ := List.mem_map.1 mem
      split
      · exact keeps n n' changed (h n (node_ok found).1)
      · exact h old own

theorem Placed.addNode (h : g.Placed P) {catalog : Catalog} {position : Point α} (own : P position)
    (typeName : String) (wished : Option String) :
    ((Graph.addNode catalog typeName position wished).outcome g).2.Placed P :=
  forall_nodes_addNode wished (fun _ _ _ => own) h

theorem Placed.connect (h : g.Placed P) (w : Wire) : ((Graph.connect w).outcome g).2.Placed P := by
  rw [outcome_connect]
  split
  · exact h
  · split <;> exact h

theorem Placed.deleteNode (h : g.Placed P) : ((Graph.deleteNode id).outcome g).2.Placed P := by
  rw [outcome_deleteNode]
  split
  · exact fun n mem => h n (List.mem_filter.1 mem).1
  · exact h

end Graph

/-! ## Commands -/

namespace LayoutEdit

def operation : LayoutEdit → Operation Float
  | .addNode typeName position wished => .addNode typeName position wished
  | .moveNode id position => .moveNode id position
  | .setProperty id key value => .setProperty id key value
  | .renameNode id label => .renameNode id label
  | .deleteNode id => .deleteNode id
  | .connect w => .connect w
  | .disconnect w => .disconnect w
  | .disconnectAll id => .disconnectAll id
  | .clear => .clear

theorem state_steps (change : LayoutEdit) (s : Session Float) :
    (change.steps.outcome s).2 = change.operation.next s := by
  cases change with
  | renameNode id label =>
      rw [operation, Operation.next, Operation.run, Edit.outcome_map]
      refine Edit.state_bind (fun _ t => ?_) s
      simp only [Edit.ask, bind_assoc, Edit.outcome_get_bind]
      cases t.graph.node id <;> rfl
  | connect w =>
      rw [operation, Operation.next, Operation.run, Edit.outcome_map]
      refine Edit.state_bind (fun drawn t => ?_) s
      cases drawn <;> rfl
  | clear => rfl
  | _ =>
      rw [operation, Operation.next, Operation.run, Edit.outcome_map]
      exact Edit.state_bind (fun _ _ => rfl) s

def position? : LayoutEdit → Option (Point Float)
  | .addNode _ position _ | .moveNode _ position => some position
  | _ => none

theorem placed_next {P : Point Float → Prop} (change : LayoutEdit) (own : ∀ p ∈ change.position?, P p)
    {s : Session Float} (h : s.graph.Placed P) : (change.operation.next s).graph.Placed P := by
  cases change with
  | addNode typeName position wished =>
      rw [operation, Operation.next, Operation.run, Edit.outcome_map, Session.outcome_addNode]
      exact h.addNode (own position rfl) typeName wished
  | moveNode id position =>
      rw [operation, Operation.next, Operation.run, Session.graph_onGraph]
      refine h.editNode fun n n' changed _ => ?_
      cases changed
      exact own position rfl
  | setProperty id key value =>
      rw [operation, Operation.next, Operation.run, Session.graph_onGraph]
      refine h.editNode fun n n' changed kept => ?_
      split at changed
      · cases changed
        exact kept
      · cases changed
  | renameNode id label =>
      rw [operation, Operation.next, Operation.run, Session.graph_onGraph]
      refine h.editNode fun n n' changed kept => ?_
      cases changed
      exact kept
  | deleteNode id =>
      rw [operation, Operation.next, Operation.run, Session.graph_onGraph]
      exact h.deleteNode
  | connect w =>
      rw [operation, Operation.next, Operation.run, Session.graph_onGraph]
      exact h.connect w
  | disconnect w =>
      rw [operation, Operation.next, Operation.run, Session.graph_onGraph, Graph.outcome_disconnect]
      exact h
  | disconnectAll => exact h
  | clear =>
      rw [operation, Operation.next, Operation.run, Session.graph_onGraph]
      exact Graph.placed_empty

theorem exists_placed {change : LayoutEdit} {s t : Session Float} {report : EditReport} {p : Point Float}
    (edited : change.steps.outcome s = (.ok report, t)) (own : p ∈ change.position?) :
    ∃ n ∈ t.graph.nodes, n.position = p := by
  cases change with
  | addNode typeName position wished =>
      cases own
      rw [steps, Edit.outcome_bind, Session.outcome_addNode, Graph.outcome_addNode] at edited
      cases known : s.catalog.find typeName with
      | error e =>
          rw [known] at edited
          cases edited
      | ok type =>
          rw [known] at edited
          cases chosen : (Graph.chooseId wished).outcome s.graph with
          | mk result g =>
              rw [chosen] at edited
              cases result with
              | error e => cases edited
              | ok id =>
                  cases edited
                  exact ⟨type.newNode id p, by simp, rfl⟩
  | moveNode id position =>
      cases own
      rw [steps, Edit.outcome_bind, Session.outcome_onGraph, Graph.moveNode, Graph.outcome_editNode] at edited
      cases found : s.graph.node id with
      | error e =>
          rw [found] at edited
          cases edited
      | ok n =>
          rw [found] at edited
          cases edited
          obtain ⟨mem, same⟩ := Graph.node_ok found
          exact ⟨{ n with position := p }, List.mem_map.2 ⟨n, mem, if_pos same⟩, rfl⟩
  | _ => cases own

end LayoutEdit
end FlowScript
