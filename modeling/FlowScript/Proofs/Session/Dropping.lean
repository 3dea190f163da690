import FlowScript.Proofs.Graph.Anchors
import FlowScript.Proofs.Binary64.Order
import FlowScript.Proofs.Session.View
import FlowScript.Proofs.Graph.Drawing
import FlowScript.Proofs.Session.Soundness
import FlowScript.Catalog.Builtin

namespace FlowScript

variable {α : Type}

namespace Graph
variable {g : Graph α}

theorem fault_of_checkWire {w : Wire} {target : Node α} (found : g.node w.target = .ok target)
    (inside : w.targetPort < target.ports.inputs) {e : Error} (failed : g.checkWire w = .error e) :
    (w.source ∉ g.ids ∧ e = .nodeNotFound w.source) ∨
      ∃ source, g.node w.source = .ok source ∧ source.ports.outputs ≤ w.sourcePort ∧
        e = .portOutOfRange w.source .output w.sourcePort source.ports.outputs := by
  cases left : g.node w.source with
  | error e' =>
      obtain ⟨rfl, missing⟩ := node_error left
      rw [checkWire, left] at failed
      cases failed
      exact .inl ⟨missing, rfl⟩
  | ok source =>
      by_cases output : w.sourcePort < source.ports.outputs
      · rw [checkWire_ok.2 ⟨source, target, left, found, output, inside⟩] at failed
        cases failed
      · have refused : checkPort source .output w.sourcePort =
            .error (.portOutOfRange source.id .output w.sourcePort source.ports.outputs) := if_neg output
        rw [checkWire, left, found] at failed
        simp only [bind, Except.bind, refused, (node_ok left).2] at failed
        cases failed
        exact .inr ⟨source, rfl, Nat.le_of_not_lt output, rfl⟩

end Graph

variable [Scalar α]

namespace NodeShape
variable {shape : NodeShape α} {g : Graph α} {p : Point α} {side : Side} {radius : α} {hit : PortHit α}

theorem located_of_hitTest (distinct : g.ids.Nodup) (found : shape.hitTest g p side radius = some hit) :
    hit.side = side ∧ (∃ n, g.node hit.id = .ok n ∧ hit.index < n.ports.on side) ∧
      shape.portAnchor g hit.id side hit.index = .ok hit.anchor := by
  obtain ⟨n, own, i, bound, rfl⟩ := mem_portsOn.1 (mem_of_hitTest found)
  have known := Graph.node_of_own distinct own
  refine ⟨rfl, ⟨n, known, bound⟩, ?_⟩
  exact (portAnchor_of_node known side i).trans (if_pos bound)

theorem hitTest_float {shape : NodeShape Float} {g : Graph Float} {p : Point Float} {radius : Float}
    (measured : ∀ n ∈ g.nodes, ∀ i < n.ports.on side, ((shape.anchor n side i).distance p).isNaN = false)
    (limit : radius.isNaN = false) :
    (shape.hitTest g p side radius = none ↔
      ∀ n ∈ g.nodes, ∀ i < n.ports.on side, ¬ (shape.anchor n side i).distance p ≤ radius) ∧
      ∀ hit, shape.hitTest g p side radius = some hit ↔ shape.Nearest g p side radius hit := by
  have limit : Scalar.IsNumber radius := Binary64.isNumber_iff.2 limit
  have measured : shape.Measured g p side := fun n own i bound => Binary64.isNumber_iff.2 (measured n own i bound)
  have compared (x y : Float) : Scalar.le x y = true ↔ x ≤ y := decide_eq_true_iff
  have far := hitTest_eq_none_iff limit measured
  simp only [compared] at far
  exact ⟨far, fun _ => hitTest_eq_some_iff limit measured⟩

end NodeShape

namespace Session

theorem fault_of_connectAtWindow {s : Session α} (distinct : s.graph.ids.Nodup) {source : String} {sourcePort : Nat}
    {window : Point α} {radius : α} {e : Error} {t : Session α}
    (failed : (connectAtWindow source sourcePort window radius).outcome s = (.error e, t)) :
    (source ∉ s.graph.ids ∧ e = .nodeNotFound source) ∨
      ∃ n, s.graph.node source = .ok n ∧ n.ports.outputs ≤ sourcePort ∧
        e = .portOutOfRange source .output sourcePort n.ports.outputs := by
  rw [outcome_connectAtWindow] at failed
  cases found : s.hitTest (s.view.toCanvas window) .input radius with
  | none =>
      rw [found] at failed
      cases failed
  | some hit =>
      rw [found] at failed
      obtain ⟨-, ⟨target, known, inside⟩, -⟩ := NodeShape.located_of_hitTest distinct found
      dsimp only at failed
      rw [outcome_onGraph, Graph.outcome_connect] at failed
      cases allowed : s.graph.checkWire ⟨source, sourcePort, hit.id, hit.index⟩ with
      | error e' =>
          rw [allowed] at failed
          cases failed
          exact Graph.fault_of_checkWire known inside allowed
      | ok _ =>
          rw [allowed] at failed
          simp only at failed
          split at failed <;> cases failed

/-- What the search for a port answers, where no distance is undefined, and that what it answers can be wired. Of the
scalars it is only needed that their numbers are in order, however distances are rounded; for the doubles this is
`NodeShape.hitTest_float`. -/
theorem hit_nearest [Scalar.Ordered α] (s : Session α) (distinct : s.graph.ids.Nodup) (p : Point α) (side : Side)
    (radius : α)
    (measured : ∀ n ∈ s.graph.nodes, ∀ i < n.ports.on side, Scalar.IsNumber ((s.shape.anchor n side i).distance p))
    (limit : Scalar.IsNumber radius) :
    (s.hitTest p side radius = none ↔
      ∀ n ∈ s.graph.nodes, ∀ i < n.ports.on side,
        ¬ Scalar.le ((s.shape.anchor n side i).distance p) radius = true) ∧
      (∀ hit, s.hitTest p side radius = some hit ↔ s.shape.Nearest s.graph p side radius hit) ∧
      (∀ hit, s.hitTest p side radius = some hit →
        hit.side = side ∧ (∃ n, s.graph.node hit.id = .ok n ∧ hit.index < n.ports.on side) ∧
          s.shape.portAnchor s.graph hit.id side hit.index = .ok hit.anchor) ∧
      ∀ source sourcePort window reach e t,
        (connectAtWindow source sourcePort window reach).outcome s = (.error e, t) →
          (source ∉ s.graph.ids ∧ e = .nodeNotFound source) ∨
            ∃ n, s.graph.node source = .ok n ∧ n.ports.outputs ≤ sourcePort ∧
              e = .portOutOfRange source .output sourcePort n.ports.outputs :=
  ⟨NodeShape.hitTest_eq_none_iff limit measured, fun _ => NodeShape.hitTest_eq_some_iff limit measured,
    fun _ => NodeShape.located_of_hitTest distinct, fun _ _ _ _ _ _ => fault_of_connectAtWindow distinct⟩

theorem hit_nearest_tie :
    let s := (Session.new Catalog.builtin (.standard : NodeShape Float)).after
      [.addNode "Send Message" ⟨0, 2⟩ (some "a"), .addNode "Print Console" ⟨0, 6⟩ (some "b"),
        .addNode "Send Message" ⟨0, 14⟩ (some "c"), .addNode "Print Console" ⟨0, 40⟩ (some "d"),
        .addNode "Command" ⟨0, 80⟩ (some "e")]
    let p : Point Float := ⟨-6, 40⟩
    ((s.graph.nodes.flatMap fun n => (List.range n.ports.inputs).map fun i =>
        (n.id, (s.shape.anchor n .input i).distance p)) = [("a", 8), ("b", 4), ("c", 4), ("d", 30)]) ∧
      (∃ hit, s.hitTest p .input 10 = some hit ∧ hit.id = "b" ∧ s.shape.Nearest s.graph p .input 10 hit ∧
        s.shape.portAnchor s.graph "b" .input hit.index = .ok hit.anchor) ∧
      s.hitTest p .input 3 = none ∧
      ∃ e t, (connectAtWindow "e" 1 p 10).outcome s = (.error e, t) ∧
        ∃ n, s.graph.node "e" = .ok n ∧ n.ports.outputs ≤ 1 ∧ e = .portOutOfRange "e" .output 1 n.ports.outputs := by
  -- `a` is within the radius but farther away than `b`, which is as near as the later `c`; `d` is beyond the radius.
  intro s p
  have distinct : s.graph.ids.Nodup := by decide +kernel
  have measured : ∀ n ∈ s.graph.nodes, ∀ i < n.ports.on .input,
      Scalar.IsNumber ((s.shape.anchor n .input i).distance p) := fun n mem i bound => by
    have defined : ∀ n ∈ s.graph.nodes, ∀ i < n.ports.on .input,
        ((s.shape.anchor n .input i).distance p).isNaN = false := by
      decide +kernel
    exact Binary64.isNumber_iff.2 (defined n mem i bound)
  obtain ⟨-, nearest, located, faults⟩ := hit_nearest s distinct p .input 10 measured
    (Binary64.isNumber_iff.2 (by decide +kernel))
  refine ⟨by decide +kernel, ?_, ?_, ?_⟩
  · have answer : (s.hitTest p .input 10).map PortHit.id = some "b" := by decide +kernel
    obtain ⟨hit, found, named⟩ := Option.map_eq_some_iff.1 answer
    exact ⟨hit, found, named, (nearest hit).1 found, named ▸ (located hit found).2.2⟩
  · obtain ⟨nothing, -⟩ := hit_nearest s distinct p .input 3 measured (Binary64.isNumber_iff.2 (by decide +kernel))
    exact nothing.2 (by decide +kernel)
  · have answer : ((connectAtWindow "e" 1 p 10).outcome s).1 = .error (.portOutOfRange "e" .output 1 1) := by
      decide +kernel
    have failed := Result.end_of_result answer
    have known : "e" ∈ s.graph.ids := by decide +kernel
    exact ⟨_, _, failed, (faults _ _ _ _ _ _ failed).resolve_left fun unknown => unknown.1 known⟩

/-! ## Exact arithmetic -/

variable {K : Type} [Field K] [LinearOrder K] [IsStrictOrderedRing K] [Length K]

theorem outcome_connectAtWindow_of_anchor {s : Session K} (tall : 0 < s.shape.height) (scaled : s.view.Scaled)
    {front back : List (Node K)} {t : Node K} (nodes : s.graph.nodes = front ++ t :: back) {i : Nat}
    (own : i < t.ports.on .input)
    (apart : ∀ m ∈ front, ∀ j < m.ports.on .input, s.shape.anchor m .input j ≠ s.shape.anchor t .input i)
    (source : String) (sourcePort : Nat) {radius : K} (reach : 0 ≤ radius) :
    (connectAtWindow source sourcePort (s.view.toWindow (s.shape.anchor t .input i)) radius).outcome s =
      (onGraph (Graph.connect ⟨source, sourcePort, t.id, i⟩)).outcome s := by
  have measured : s.shape.Measured s.graph (s.shape.anchor t .input i) .input := fun _ _ _ _ => Scalar.isNumber _
  have nearest := NodeShape.nearest_own_anchor tall nodes own apart reach
  have found : s.hitTest (s.shape.anchor t .input i) .input radius = some (s.shape.hitAt .input t i) :=
    (NodeShape.hitTest_eq_some_iff (Scalar.isNumber radius) measured).2 nearest
  rw [outcome_connectAtWindow, Viewport.toCanvas_toWindow scaled, found]
  rfl

/-- Where the ports of a node are, and that a wire dropped on one of its inputs is drawn to it, unless a node added
before has an input at the same place. -/
theorem drop_after (catalog : Catalog) (shape : NodeShape K) (tall : 0 < shape.height)
    (history : List (Operation K)) :
    let s := (Session.new catalog shape).after history
    ∀ front t back, s.graph.nodes = front ++ t :: back →
      (∀ side, ∀ i < t.ports.on side,
        (t.position.y < (s.shape.anchor t side i).y ∧
          (s.shape.anchor t side i).y < t.position.y + s.shape.height) ∧
        ∀ j < t.ports.on side,
          (s.shape.anchor t side j).y - (s.shape.anchor t side i).y =
              (j - i) * (s.shape.height / (t.ports.on side + 1)) ∧
            (i < j → (s.shape.anchor t side i).y < (s.shape.anchor t side j).y) ∧
            (i ≠ j → s.shape.anchor t side i ≠ s.shape.anchor t side j)) ∧
      ∀ i < t.ports.inputs, ∃ anchor, s.shape.portAnchor s.graph t.id .input i = .ok anchor ∧
        ((∀ m ∈ front, ∀ j < m.ports.inputs, s.shape.anchor m .input j ≠ anchor) →
          ∀ source sourcePort radius, 0 ≤ radius →
            (connectAtWindow source sourcePort (s.view.toWindow anchor) radius).outcome s =
              (onGraph (Graph.connect ⟨source, sourcePort, t.id, i⟩)).outcome s) := by
  intro s front t back nodes
  have tall : 0 < s.shape.height := (shape_after catalog shape history).symm ▸ tall
  have distinct : s.graph.ids.Nodup := (sound_history catalog shape history).2.distinct
  have scaled : s.view.Scaled := scaled_after catalog shape history
  have own : t ∈ s.graph.nodes := by simp [nodes]
  constructor
  · intro side i bound
    exact ⟨NodeShape.anchor_y_inside tall bound, fun j _ => ⟨NodeShape.anchor_y_step s.shape t side i j,
      NodeShape.anchor_y_lt tall, NodeShape.anchor_ne tall⟩⟩
  · intro i bound
    have known : s.graph.node t.id = .ok t := Graph.node_of_own distinct own
    refine ⟨s.shape.anchor t .input i, ?_, fun apart source sourcePort radius reach => ?_⟩
    · exact (NodeShape.portAnchor_of_node known .input i).trans (if_pos bound)
    · exact outcome_connectAtWindow_of_anchor tall scaled nodes bound apart source sourcePort reach

theorem drop_after_zoom :
    let s := (Session.new Catalog.builtin (⟨140, 60, 6⟩ : NodeShape ℚ)).after
      [.addNode "Command" ⟨0, 0⟩ (some "a"), .addNode "Print Console" ⟨300, 0⟩ (some "b"),
        .addNode "Send Message" ⟨301, 0⟩ (some "c"), .look (.zoomBy ⟨17, 4⟩ (7 / 5)), .look (.pan 3 (-8)),
        .look (.moveOrigin ⟨-1 / 3, 2⟩)]
    ∃ anchor, s.shape.portAnchor s.graph "c" .input 0 = .ok anchor ∧
      (connectAtWindow "a" 0 (s.view.toWindow anchor) 0).outcome s =
        (onGraph (Graph.connect ⟨"a", 0, "c", 0⟩)).outcome s ∧
      ((onGraph (Graph.connect ⟨"a", 0, "c", 0⟩)).outcome s).1 = .ok true := by
  -- The view is zoomed, scrolled and moved, and another port is one unit away.
  intro s
  have filled : s.graph.nodes ≠ [] := by decide +kernel
  have nodes : s.graph.nodes = s.graph.nodes.dropLast ++ s.graph.nodes.getLast filled :: [] :=
    (List.dropLast_append_getLast filled).symm
  have named : (s.graph.nodes.getLast filled).id = "c" := by decide +kernel +revert
  have inputs : (s.graph.nodes.getLast filled).ports.inputs = 1 := by decide +kernel +revert
  obtain ⟨-, drops⟩ := drop_after Catalog.builtin (⟨140, 60, 6⟩ : NodeShape ℚ) (by decide +kernel) _ _ _ _ nodes
  obtain ⟨anchor, located, drawn⟩ := drops 0 (inputs ▸ Nat.one_pos)
  rw [named] at located drawn
  have place : anchor = ⟨295, 30⟩ := by
    have known : s.shape.portAnchor s.graph "c" .input 0 = .ok ⟨295, 30⟩ := by decide +kernel
    exact Except.ok.inj (located.symm.trans known)
  subst place
  exact ⟨_, located, drawn (by decide +kernel) "a" 0 0 le_rfl, by decide +kernel⟩

end Session
end FlowScript
