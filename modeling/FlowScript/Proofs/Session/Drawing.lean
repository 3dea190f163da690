import FlowScript.Catalog.Builtin
import FlowScript.Proofs.Graph.Drawing
import FlowScript.Proofs.Session.Wiring

namespace FlowScript.Session

variable {α : Type} [Scalar α]

/-- Whatever has happened to a session, its wires can be drawn exactly if they keep within the ports of their nodes,
and otherwise the first that does not is named. Without loading they always can be. -/
theorem curves_after (catalog : Catalog) (shape : NodeShape α) (history : List (Operation α)) :
    let s := (Session.new catalog shape).after history
    ((∃ curves, s.shape.wireCurves s.graph = .ok curves) ↔ ∀ w ∈ s.graph.wires, w.InRange s.graph.portTable) ∧
      (∀ curves, s.shape.wireCurves s.graph = .ok curves → List.Forall₂ (fun w c =>
        s.shape.endpoints s.graph w = .ok (c.start, c.stop) ∧ c = .between c.start c.stop) s.graph.wires curves) ∧
      (∀ e, s.shape.wireCurves s.graph = .error e ↔
        ∃ before w after, s.graph.wires = before ++ w :: after ∧
          (∀ v ∈ before, v.InRange s.graph.portTable) ∧ s.graph.Overruns w e) ∧
      ((∀ op ∈ history, op.isLoad = false) → ∃ curves, s.shape.wireCurves s.graph = .ok curves) := by
  intro s
  have sound : s.graph.Sound catalog := (sound_history catalog shape history).2
  refine ⟨NodeShape.exists_wireCurves_iff sound, fun curves => NodeShape.wireCurves_eq_ok.1,
    fun e => NodeShape.wireCurves_eq_error_iff sound, fun own => ?_⟩
  have wired : s.graph.WellWired := (wiring_history catalog shape own).1
  exact (NodeShape.exists_wireCurves_iff sound).2 wired.inRange

theorem curves_after_retyping :
    let edits : List (Operation Float) :=
      [.addNode "Command" ⟨0, 0⟩ (some "a"), .addNode "Print Console" ⟨300, 0⟩ (some "b"), .connect ⟨"a", 0, "b", 0⟩,
        .deleteNode "b", .addNode "Send Message" ⟨300, 40⟩ (some "b"), .connect ⟨"a", 0, "b", 0⟩, .moveNode "b" ⟨200, 0⟩]
    let layout : Layout Float := ⟨[⟨"a", "Command", 0, 0, none, none, none⟩,
      ⟨"b", "Print Console", 300, 0, none, none, none⟩], [⟨"a", 0, "b", 0⟩, ⟨"a", 1, "b", 2⟩]⟩
    let s := (Session.new Catalog.builtin .standard).after edits
    let t := (Session.new Catalog.builtin .standard).after (edits ++ [.load layout])
    (∃ c, s.shape.wireCurves s.graph = .ok [c] ∧ s.shape.endpoints s.graph ⟨"a", 0, "b", 0⟩ = .ok (c.start, c.stop)) ∧
      t.shape.wireCurves t.graph = .error (.portOutOfRange "a" .output 1 1) := by
  -- The id `b` comes back with inputs but without its wire, and the layout brings a wire from a second output of `a`,
  -- which has one.
  intro edits layout s t
  obtain ⟨-, ends, -, drawable⟩ := curves_after Catalog.builtin .standard edits
  obtain ⟨-, -, refused, -⟩ := curves_after Catalog.builtin .standard (edits ++ [.load layout])
  constructor
  · have own : ∀ op ∈ edits, op.isLoad = false := by simp [edits, Operation.isLoad]
    obtain ⟨curves, drawn⟩ := drawable own
    have wires : ((Session.new Catalog.builtin .standard).after edits).graph.wires = [⟨"a", 0, "b", 0⟩] := by
      decide +kernel
    have ends := ends curves drawn
    rw [wires] at ends
    obtain ⟨c, rest, ⟨own, -⟩, others, rfl⟩ := List.forall₂_cons_left_iff.1 ends
    cases others
    exact ⟨c, drawn, own⟩
  · have loaded : (Session.new Catalog.builtin .standard).after (edits ++ [.load layout]) = t := rfl
    rw [loaded] at refused
    have wires : t.graph.wires = [⟨"a", 0, "b", 0⟩] ++ ⟨"a", 1, "b", 2⟩ :: [] := by decide +kernel
    have first : ∀ v ∈ [(⟨"a", 0, "b", 0⟩ : Wire)], v.InRange t.graph.portTable := by decide +kernel
    have ports : (t.graph.node "a").map Node.ports = .ok ⟨0, 1⟩ := by decide +kernel
    refine (refused _).2 ⟨[⟨"a", 0, "b", 0⟩], ⟨"a", 1, "b", 2⟩, [], wires, first, ?_⟩
    obtain ⟨n, found, ports⟩ := Result.map_eq_ok.1 ports
    have outputs : n.ports.outputs = 1 := congrArg PortCounts.outputs ports
    have overruns := Graph.Overruns.output (w := ⟨"a", 1, "b", 2⟩) found (by simp [outputs])
    rw [outputs] at overruns
    exact overruns

end FlowScript.Session
