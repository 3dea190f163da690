import FlowScript.Catalog.Builtin
import FlowScript.Proofs.Script.DeadNode
import FlowScript.Proofs.Script.Warnings
import FlowScript.Proofs.Session.Compilation

namespace FlowScript

variable {α : Type}

/-- The operation has to do with one node and its wires only: it alters or deletes the node, drops its wires, or
draws or drops a wire that leaves it. -/
inductive Operation.ConfinedTo (u : String) : Operation α → Prop
  | moveNode (position : Point α) : ConfinedTo u (.moveNode u position)
  | setProperty (key value : String) : ConfinedTo u (.setProperty u key value)
  | renameNode (label : String) : ConfinedTo u (.renameNode u label)
  | connect {w : Wire} (source : w.source = u) : ConfinedTo u (.connect w)
  | connectAtWindow (port : Nat) (window : Point α) (radius : α) :
      ConfinedTo u (.connectAtWindow u port window radius)
  | disconnect {w : Wire} (source : w.source = u) : ConfinedTo u (.disconnect w)
  | disconnectAll : ConfinedTo u (.disconnectAll u)
  | deleteNode : ConfinedTo u (.deleteNode u)

variable [Scalar α]

theorem Operation.ConfinedTo.sameApartFrom {u : String} {op : Operation α} (h : op.ConfinedTo u)
    (s : Session α) : Graph.SameApartFrom u s.graph (op.next s).graph := by
  cases h with
  | moveNode position =>
      rw [next, run, Session.graph_onGraph]
      exact Graph.sameApartFrom_editNode (Node.alters_move position) s.graph
  | setProperty key value =>
      rw [next, run, Session.graph_onGraph]
      exact Graph.sameApartFrom_editNode (Node.alters_setProperty u key value) s.graph
  | renameNode label =>
      rw [next, run, Session.graph_onGraph]
      exact Graph.sameApartFrom_editNode (Node.alters_rename label) s.graph
  | connect source =>
      rw [next, run, Session.graph_onGraph]
      exact Graph.sameApartFrom_connect source s.graph
  | connectAtWindow port window radius =>
      rw [next, run, Edit.outcome_map, Session.outcome_connectAtWindow]
      cases s.hitTest (s.view.toCanvas window) .input radius with
      | none => exact .refl u s.graph
      | some hit => exact Graph.sameApartFrom_connect (w := ⟨u, port, hit.id, hit.index⟩) rfl s.graph
  | disconnect source =>
      rw [next, run, Session.graph_onGraph]
      exact Graph.sameApartFrom_disconnect source s.graph
  | disconnectAll =>
      rw [next, run, Session.graph_onGraph]
      exact Graph.sameApartFrom_disconnectAll s.graph
  | deleteNode =>
      rw [next, run, Session.graph_onGraph]
      exact Graph.sameApartFrom_deleteNode s.graph

namespace Session

/-- An operation that has to do with an unreachable node only leaves the script as it is, whether it succeeds or
fails. -/
theorem script_after_unreachable (catalog : Catalog) (shape : NodeShape α) (history : List (Operation α))
    (u : String) (warnings : List Diagnostic) (op : Operation α) (o : Script.Options) :
    let s := (Session.new catalog shape).after history
    Diagnostic.analyze s.graph s.catalog = .ok warnings → .unreachable u ∈ warnings → op.ConfinedTo u →
      ∃ bot bot', Script.compile o s.graph s.catalog = .ok bot ∧
        Script.compile o (op.next s).graph (op.next s).catalog = .ok bot' ∧ bot.SameScript bot' := by
  intro s analyzed reported confined
  have sound : s.graph.Sound s.catalog := sound_own catalog shape history
  have dead : ¬ s.graph.Live s.catalog u :=
    ((Diagnostic.analyze_exact sound analyzed).mem_unreachable_iff u).1 reported |>.2
  have sound' : (op.next s).graph.Sound s.catalog := (op.next_frame s).1 ▸ op.sound_next s sound
  rw [(op.next_frame s).1]
  exact Script.compile_of_sameLive sound sound' ((confined.sameApartFrom s).sameLive dead) o

theorem script_after_deleting_second_target :
    let history : List (Operation Float) :=
      [.addNode "Command" ⟨0, 0⟩ (some "a"), .addNode "Print Console" ⟨0, 0⟩ (some "b"),
        .addNode "Print Console" ⟨0, 0⟩ (some "u"), .connect ⟨"a", 0, "b", 0⟩, .connect ⟨"a", 0, "u", 0⟩,
        .connect ⟨"u", 0, "b", 0⟩]
    let s := (Session.new Catalog.builtin .standard).after history
    let t := (Operation.deleteNode "u").next s
    t.graph.wires = [⟨"a", 0, "b", 0⟩] ∧
      ∃ bot bot', Script.compile {} s.graph s.catalog = .ok bot ∧
        Script.compile {} t.graph t.catalog = .ok bot' ∧ bot.SameScript bot' := by
  intro history s t
  have analyzed : Diagnostic.analyze s.graph s.catalog = .ok [.fanOut "a" 2 "b", .unreachable "u"] := by
    decide +kernel
  exact ⟨by decide +kernel, script_after_unreachable Catalog.builtin .standard history "u" _ _ {} analyzed
    (by decide) .deleteNode⟩

end Session
end FlowScript
