import FlowScript.Catalog.Builtin
import FlowScript.Proofs.Graph.Wiring
import FlowScript.Proofs.Session.Soundness

namespace FlowScript

variable {α : Type}

def NodeRecord.restoredPorts (catalog : Catalog) (r : NodeRecord α) : PortCounts :=
  r.ports.getD (((catalog.find? r.typeName).map NodeType.portCounts).getD ⟨0, 0⟩)

namespace Layout
variable {catalog : Catalog} {layout : Layout α} {g : Graph α}

def portTable (catalog : Catalog) (layout : Layout α) : PortTable :=
  layout.nodes.map fun r => (r.id, r.restoredPorts catalog)

def WellWired (catalog : Catalog) (layout : Layout α) : Prop :=
  FlowScript.WellWired (layout.portTable catalog) layout.wires

instance (catalog : Catalog) (layout : Layout α) : Decidable (layout.WellWired catalog) :=
  inferInstanceAs (Decidable (FlowScript.WellWired _ _))

theorem portTable_of_describes {records : List (NodeRecord α)} {nodes : List (Node α)}
    (h : List.Forall₂ (Describes catalog) records nodes) :
    nodes.map (fun n => (n.id, n.ports)) = records.map fun r => (r.id, r.restoredPorts catalog) := by
  induction h with
  | nil => rfl
  | @cons r n _ _ described _ ih =>
      obtain ⟨t, known, rfl⟩ := described
      have ports : (r.toNode t).ports = r.restoredPorts catalog := by
        rw [NodeRecord.restoredPorts, Catalog.find?_of_find known]
        rfl
      rw [List.map_cons, List.map_cons, ih, ports]
      rfl

theorem wellWired_toGraph (described : layout.toGraph catalog = .ok g) :
    g.WellWired ↔ layout.WellWired catalog := by
  obtain ⟨nodes, records, -, -, rfl⟩ := toGraph_eq_ok.1 described
  rw [Graph.WellWired, Graph.portTable, portTable_of_describes records]
  rfl

end Layout

variable [Scalar α]

namespace Session

theorem wiring_history (catalog : Catalog) (shape : NodeShape α) {history : List (Operation α)}
    (own : ∀ op ∈ history, op.isLoad = false) :
    let s := (Session.new catalog shape).after history
    s.graph.WellWired ∧ s.graph.Conforms catalog := by
  intro s
  -- A step keeps the wiring of distinct ids only, so the induction carries soundness along.
  have kept : s.catalog = catalog ∧ s.graph.Sound catalog ∧ s.graph.WellWired ∧ s.graph.Conforms catalog := by
    refine after_invariant_of (P := fun s =>
      s.catalog = catalog ∧ s.graph.Sound catalog ∧ s.graph.WellWired ∧ s.graph.Conforms catalog)
      (fun op mem s h => ?_) ⟨rfl, Graph.sound_empty, Graph.wellWired_empty, Graph.conforms_empty⟩
    obtain ⟨known, sound, wired, conforms⟩ := h
    have revision := op.revision_next (own op mem) s
    rw [known] at revision
    exact ⟨(op.next_frame s).1.trans known, sound.revision revision, wired.revision sound.distinct revision,
      conforms.revision revision⟩
  exact kept.2.2

/-- No operation but loading spoils the wiring of a graph or takes a node away from its type, and a layout that is
loaded gives a well wired graph exactly if its own wires keep within the ports it restores. -/
theorem wiring_after (catalog : Catalog) (shape : NodeShape α) (history : List (Operation α)) :
    let s := (Session.new catalog shape).after history
    (s.graph.WellWired → ∀ op : Operation α, op.isLoad = false → (op.next s).graph.WellWired) ∧
      (∀ layout t, (Operation.load layout).run.outcome s = (.ok .done, t) →
        (t.graph.WellWired ↔ layout.WellWired catalog)) ∧
      ((∀ op ∈ history, op.isLoad = false) → s.graph.WellWired ∧ s.graph.Conforms catalog) := by
  intro s
  obtain ⟨known, sound⟩ := sound_history catalog shape history
  refine ⟨fun wired op own => wired.revision sound.distinct (op.revision_next own s), fun layout t loaded => ?_,
    wiring_history catalog shape⟩
  rw [Operation.run, Edit.outcome_map, outcome_load, Layout.outcome_load, known] at loaded
  cases described : layout.toGraph catalog with
  | error e =>
      rw [described] at loaded
      cases loaded
  | ok g =>
      rw [described] at loaded
      cases loaded
      exact Layout.wellWired_toGraph described

theorem wiring_after_retyping :
    let s := (Session.new Catalog.builtin (.standard : NodeShape Float)).after
      [.addNode "Command" ⟨0, 0⟩ (some "a"), .addNode "Print Console" ⟨0, 0⟩ (some "b"),
        .connect ⟨"a", 0, "b", 0⟩, .deleteNode "b", .addNode "Command" ⟨0, 0⟩ (some "b")]
    let wide : Layout Float := ⟨[⟨"a", "Command", 0, 0, none, none, some ⟨0, 2⟩⟩,
      ⟨"b", "Print Console", 0, 0, none, none, none⟩], [⟨"a", 1, "b", 0⟩]⟩
    let narrow : Layout Float := { wide with nodes := wide.nodes.map fun r => { r with ports := none } }
    s.graph.WellWired ∧ s.graph.Conforms Catalog.builtin ∧
      ((Operation.connect ⟨"a", 0, "b", 0⟩).next s).graph.WellWired ∧
      (∃ t, (Operation.load wide).run.outcome s = (.ok .done, t) ∧ t.graph.WellWired) ∧
      ∃ t, (Operation.load narrow).run.outcome s = (.ok .done, t) ∧ ¬ t.graph.WellWired := by
  intro s wide narrow
  obtain ⟨step, loads, own⟩ := wiring_after Catalog.builtin (.standard : NodeShape Float)
    [.addNode "Command" ⟨0, 0⟩ (some "a"), .addNode "Print Console" ⟨0, 0⟩ (some "b"),
      .connect ⟨"a", 0, "b", 0⟩, .deleteNode "b", .addNode "Command" ⟨0, 0⟩ (some "b")]
  have wired := (own (by decide)).1
  have widened : (Operation.load wide).run.outcome s = (.ok .done, (Operation.load wide).next s) :=
    Prod.ext (by decide +kernel) (by rw [Operation.next])
  have narrowed : (Operation.load narrow).run.outcome s = (.ok .done, (Operation.load narrow).next s) :=
    Prod.ext (by decide +kernel) (by rw [Operation.next])
  refine ⟨wired, (own (by decide)).2, step wired _ rfl, ⟨_, widened, ?_⟩, ⟨_, narrowed, ?_⟩⟩
  · exact (loads wide _ widened).2 (by decide)
  · exact fun spoiled => absurd ((loads narrow _ narrowed).1 spoiled) (by decide)

end Session
end FlowScript
