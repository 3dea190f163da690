import FlowScript.Catalog.Builtin
import FlowScript.Proofs.Script.Locality
import FlowScript.Proofs.Script.Totality
import FlowScript.Proofs.Session.Soundness

namespace FlowScript

variable {α : Type}

theorem Graph.Sound.retype {g : Graph α} {catalog other : Catalog} (h : g.Sound catalog)
    (known : ∀ n ∈ g.nodes, other.contains n.typeName = true) : g.Sound other where
  distinct := h.distinct
  anchored := h.anchored
  typed n mem := Catalog.contains_iff.1 (known n mem)

theorem NodeRecord.toNode_ofNode {t : NodeType} {n : Node α} (same : t.name = n.typeName) :
    (ofNode n).toNode t = n := by
  rw [toNode, fill, NodeType.newNode, same]
  rfl

namespace Layout
variable {g : Graph α} {catalog : Catalog}

theorem describes_ofNode {nodes : List (Node α)}
    (typed : ∀ n ∈ nodes, ∃ t ∈ catalog.types, t.name = n.typeName) :
    List.Forall₂ (Describes catalog) (nodes.map NodeRecord.ofNode) nodes := by
  rw [List.forall₂_map_left_iff, List.forall₂_same]
  intro n mem
  obtain ⟨t, found⟩ := Catalog.find_of_mem (typed n mem)
  exact ⟨t, found, (NodeRecord.toNode_ofNode (Catalog.find_ok found).2).symm⟩

theorem toGraph_ofGraph (h : g.Sound catalog) :
    (ofGraph g).toGraph catalog = .ok { g with nextNumber := NodeId.nextAfter g.ids } := by
  have described := describes_ofNode h.typed
  have ids_eq : g.ids = (ofGraph g).nodes.map NodeRecord.id := ids_of_describes described
  refine toGraph_eq_ok.2 ⟨g.nodes, described, ids_eq ▸ h.distinct, fun w mem => ?_, ?_⟩
  · rw [← ids_eq]
    exact h.anchored w mem
  · rw [← ids_eq]
    rfl

end Layout

variable [Scalar α]

/-- A saved graph can be loaded into any graph and over any catalog that has its types. Nodes and wires are
the same as before, so is the layout that would be saved next, and the script compiled from it. -/
theorem Session.reload_after (catalog other : Catalog) (shape : NodeShape α)
    (history : List (Operation α)) (before : Graph α)
    (known : ∀ n ∈ ((Session.new catalog shape).after history).graph.nodes,
      other.contains n.typeName = true) :
    let g := ((Session.new catalog shape).after history).graph
    ∃ g', ((Layout.ofGraph g).load other).outcome before = (.ok (), g') ∧
      g'.nodes = g.nodes ∧ g'.wires = g.wires ∧ Layout.ofGraph g' = Layout.ofGraph g ∧
      ∀ o, ∃ bot, Script.compile o g other = .ok bot ∧ Script.compile o g' other = .ok bot := by
  intro g
  have sound : g.Sound other := (Session.sound_history catalog shape history).2.retype known
  refine ⟨{ g with nextNumber := NodeId.nextAfter g.ids }, ?_, rfl, rfl, rfl, fun o => ?_⟩
  · rw [Layout.outcome_load, Layout.toGraph_ofGraph sound]
  · obtain ⟨bot, compiled⟩ := Script.compile_ok sound o
    exact ⟨bot, compiled, (Script.compile_counter g _ o other).trans compiled⟩

theorem Session.reload_after_retyping :
    let other : Catalog := .ofDistinct [Catalog.textAction "Command" "Text" "other" "    pass"] (by decide)
    let s := (Session.new Catalog.builtin (.standard : NodeShape Float)).after
      [.addNode "Command" ⟨0, 0⟩ (some "node_3"), .deleteNode "node_3",
        .addNode "Command" ⟨1, 2⟩ (some "a"), .setProperty "a" "trigger" "go"]
    s.graph.nextNumber = 4 ∧
      ∃ g', ((Layout.ofGraph s.graph).load other).outcome Graph.empty = (.ok (), g') ∧
        g'.nodes = [⟨"a", "Command", ⟨1, 2⟩, "Command", .ofList [("trigger", "go")], ⟨0, 1⟩⟩] := by
  intro other s
  have nodes_eq :
      s.graph.nodes = [⟨"a", "Command", ⟨1, 2⟩, "Command", .ofList [("trigger", "go")], ⟨0, 1⟩⟩] := by
    decide +kernel
  have known : ∀ n ∈ s.graph.nodes, other.contains n.typeName = true := by
    rw [nodes_eq]
    decide
  obtain ⟨g', loaded, kept, -⟩ := Session.reload_after Catalog.builtin other (.standard : NodeShape Float)
    [.addNode "Command" ⟨0, 0⟩ (some "node_3"), .deleteNode "node_3",
      .addNode "Command" ⟨1, 2⟩ (some "a"), .setProperty "a" "trigger" "go"] Graph.empty known
  exact ⟨by decide +kernel, g', loaded, kept.trans nodes_eq⟩

end FlowScript
