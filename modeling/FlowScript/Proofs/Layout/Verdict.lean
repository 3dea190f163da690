import FlowScript.Catalog.Builtin
import FlowScript.Proofs.Layout.Restore

namespace FlowScript

variable {α : Type} {catalog : Catalog}

/-! ## What a layout describes -/

namespace NodeRecord

def Known (catalog : Catalog) (r : NodeRecord α) : Prop := ∃ t ∈ catalog.types, t.name = r.typeName

structure Restores (catalog : Catalog) (r : NodeRecord α) (n : Node α) : Prop where
  id : n.id = r.id
  typeName : n.typeName = r.typeName
  position : n.position = ⟨r.x, r.y⟩
  label : n.label = r.label.getD r.typeName
  typed : ∃ t ∈ catalog.types, t.name = r.typeName ∧ n.properties = r.properties.getD t.initialProperties ∧
    n.ports = r.ports.getD ⟨t.inputs.length, t.outputs.length⟩

end NodeRecord

namespace Layout

structure Admissible (catalog : Catalog) (records : List (NodeRecord α)) : Prop where
  known : ∀ r ∈ records, r.Known catalog
  distinct : (records.map NodeRecord.id).Nodup

def Anchored (ids : List String) (wires : List Wire) : Prop := ∀ w ∈ wires, w.source ∈ ids ∧ w.target ∈ ids

def ids (layout : Layout α) : List String := layout.nodes.map NodeRecord.id

structure Consistent (catalog : Catalog) (layout : Layout α) : Prop where
  records : Admissible catalog layout.nodes
  wires : Anchored layout.ids layout.wires

/-- The graph has one node for each record and the wires as they are, both in their order. -/
structure Restores (catalog : Catalog) (layout : Layout α) (g : Graph α) : Prop where
  nodes : List.Forall₂ (NodeRecord.Restores catalog) layout.nodes g.nodes
  wires : g.wires = layout.wires
  counter : g.nextNumber = NodeId.nextAfter layout.ids

/-! ## What is wrong with a layout -/

inductive RecordFault (catalog : Catalog) (earlier : List (NodeRecord α)) (r : NodeRecord α) : LayoutFault → Prop
  | unknownType (unknown : ¬ r.Known catalog) : RecordFault catalog earlier r (.unknownType r.id r.typeName)
  | repeatedId (known : r.Known catalog) (again : r.id ∈ earlier.map NodeRecord.id) :
      RecordFault catalog earlier r (.repeatedId r.id)

inductive WireFault (ids : List String) (w : Wire) : LayoutFault → Prop
  | source (missing : w.source ∉ ids) : WireFault ids w (.danglingWire w.source)
  | target (present : w.source ∈ ids) (missing : w.target ∉ ids) : WireFault ids w (.danglingWire w.target)

/-- The first thing that is wrong: with a record, or, if all records are fine, with a wire. -/
inductive FirstFault (catalog : Catalog) (layout : Layout α) (fault : LayoutFault) : Prop
  | record (before : List (NodeRecord α)) (r : NodeRecord α) (after : List (NodeRecord α))
      (nodes : layout.nodes = before ++ r :: after) (fine : Admissible catalog before)
      (wrong : RecordFault catalog before r fault)
  | wire (before : List Wire) (w : Wire) (after : List Wire) (records : Admissible catalog layout.nodes)
      (wires : layout.wires = before ++ w :: after) (fine : Anchored layout.ids before)
      (wrong : WireFault layout.ids w fault)

theorem recordFault_of_not {before : List (NodeRecord α)} {r : NodeRecord α} (fine : Admissible catalog before)
    (wrong : ¬ Admissible catalog (before ++ [r])) : ∃ fault, RecordFault catalog before r fault := by
  by_cases known : r.Known catalog
  · by_cases again : r.id ∈ before.map NodeRecord.id
    · exact ⟨_, .repeatedId known again⟩
    · refine absurd ⟨fun other mem => ?_, ?_⟩ wrong
      · rcases List.mem_append.1 mem with old | new
        · exact fine.known other old
        · exact List.mem_singleton.1 new ▸ known
      · rw [List.map_append]
        exact Lists.nodup_addedLast fine.distinct again
  · exact ⟨_, .unknownType known⟩

theorem wireFault_of_not {ids : List String} {before : List Wire} {w : Wire} (fine : Anchored ids before)
    (wrong : ¬ Anchored ids (before ++ [w])) : ∃ fault, WireFault ids w fault := by
  by_cases source : w.source ∈ ids
  · by_cases target : w.target ∈ ids
    · refine absurd (fun other mem => ?_) wrong
      rcases List.mem_append.1 mem with old | new
      · exact fine other old
      · exact List.mem_singleton.1 new ▸ ⟨source, target⟩
    · exact ⟨_, .target source target⟩
  · exact ⟨_, .source source⟩

theorem consistent_or_firstFault (catalog : Catalog) (layout : Layout α) :
    layout.Consistent catalog ∨ ∃ fault, layout.FirstFault catalog fault := by
  rcases Lists.holds_or_first (P := Admissible catalog) ⟨by simp, List.nodup_nil⟩ layout.nodes with
    records | ⟨before, r, after, nodes, fine, wrong⟩
  · rcases Lists.holds_or_first (P := Anchored layout.ids) (fun w mem => by cases mem) layout.wires with
      anchored | ⟨before, w, after, wires, fine, wrong⟩
    · exact .inl ⟨records, anchored⟩
    · obtain ⟨fault, own⟩ := wireFault_of_not fine wrong
      exact .inr ⟨fault, .wire before w after records wires fine own⟩
  · obtain ⟨fault, own⟩ := recordFault_of_not fine wrong
    exact .inr ⟨fault, .record before r after nodes fine own⟩

/-! ## Loading says so -/

theorem describes_iff {r : NodeRecord α} {n : Node α} : Describes catalog r n ↔ r.Restores catalog n := by
  constructor
  · rintro ⟨t, known, rfl⟩
    obtain ⟨mem, same⟩ := Catalog.find_ok known
    exact ⟨rfl, same, rfl, congrArg r.label.getD same, t, mem, same, rfl, rfl⟩
  · rintro ⟨id, typeName, position, label, t, mem, same, properties, ports⟩
    refine ⟨t, Catalog.find_eq_ok.2 ⟨mem, same⟩, ?_⟩
    cases n
    simp_all [NodeRecord.toNode, NodeRecord.fill, NodeType.newNode, NodeType.portCounts]

theorem exists_describes {records : List (NodeRecord α)} (known : ∀ r ∈ records, r.Known catalog) :
    ∃ nodes, List.Forall₂ (Describes catalog) records nodes := by
  induction records with
  | nil => exact ⟨[], .nil⟩
  | cons r rest ih =>
      rw [List.forall_mem_cons] at known
      obtain ⟨t, found⟩ := Catalog.find_of_mem known.1
      obtain ⟨nodes, later⟩ := ih known.2
      exact ⟨r.toNode t :: nodes, .cons ⟨t, found, rfl⟩ later⟩

theorem known_of_describes {records : List (NodeRecord α)} {nodes : List (Node α)}
    (h : List.Forall₂ (Describes catalog) records nodes) : ∀ r ∈ records, r.Known catalog := by
  induction h with
  | nil => simp
  | cons described _ ih =>
      obtain ⟨t, found, -⟩ := described
      exact List.forall_mem_cons.2 ⟨⟨t, Catalog.find_ok found⟩, ih⟩

theorem toGraph_eq_ok_iff {layout : Layout α} {g : Graph α} :
    layout.toGraph catalog = .ok g ↔ layout.Consistent catalog ∧ layout.Restores catalog g := by
  rw [toGraph_eq_ok]
  constructor
  · rintro ⟨nodes, described, distinct, anchored, rfl⟩
    exact ⟨⟨⟨known_of_describes described, distinct⟩, anchored⟩, ⟨described.imp fun _ _ => describes_iff.1, rfl, rfl⟩⟩
  · rintro ⟨⟨⟨-, distinct⟩, anchored⟩, restored⟩
    obtain ⟨nodes, wires, counter⟩ := restored
    refine ⟨g.nodes, nodes.imp fun _ _ => describes_iff.2, distinct, anchored, ?_⟩
    cases g
    cases wires
    cases counter
    rfl

theorem exists_toGraph {layout : Layout α} (h : layout.Consistent catalog) : ∃ g, layout.toGraph catalog = .ok g := by
  obtain ⟨nodes, described⟩ := exists_describes h.records.known
  exact ⟨_, toGraph_eq_ok.2 ⟨nodes, described, h.records.distinct, h.wires, rfl⟩⟩

theorem outcome_restoreNode_of_fault {earlier : List (NodeRecord α)} {r : NodeRecord α} {fault : LayoutFault}
    {g : Graph α} (wrong : RecordFault catalog earlier r fault) (own : g.ids = earlier.map NodeRecord.id) :
    (restoreNode catalog r).outcome g = (.error (.corruptLayout fault), g) := by
  rw [outcome_restoreNode]
  cases wrong with
  | unknownType unknown =>
      cases found : catalog.find r.typeName with
      | error e => rfl
      | ok t => exact absurd ⟨t, Catalog.find_ok found⟩ unknown
  | repeatedId known again =>
      obtain ⟨t, found⟩ := Catalog.find_of_mem known
      rw [found]
      exact if_pos (Graph.contains_iff.2 (own ▸ again))

theorem outcome_restoreWire_of_fault {ids : List String} {w : Wire} {fault : LayoutFault} {g : Graph α}
    (wrong : WireFault ids w fault) (own : g.ids = ids) :
    (restoreWire w).outcome g = (.error (.corruptLayout fault), g) := by
  rw [outcome_restoreWire]
  subst own
  cases wrong with
  | source missing => rw [if_neg fun there => missing (Graph.contains_iff.1 there)]
  | target present missing =>
      rw [if_pos (Graph.contains_iff.2 present), if_neg fun there => missing (Graph.contains_iff.1 there)]

theorem exists_filled {records : List (NodeRecord α)} (fine : Admissible catalog records) :
    ∃ g : Graph α, (records.forM (restoreNode catalog)).outcome Graph.empty = (.ok (), g) ∧
      g.ids = records.map NodeRecord.id := by
  obtain ⟨nodes, described⟩ := exists_describes fine.known
  have start : (Graph.empty : Graph α).ids.Nodup := List.nodup_nil
  exact ⟨_, (restoreNodes_eq_ok start).2 ⟨nodes, described, fine.distinct, rfl⟩, ids_of_describes described⟩

theorem toGraph_eq_error {layout : Layout α} {fault : LayoutFault} (wrong : layout.FirstFault catalog fault) :
    layout.toGraph catalog = .error (.corruptLayout fault) := by
  unfold toGraph
  rw [outcome_restore]
  cases wrong with
  | record before r after nodes fine wrong =>
      obtain ⟨g, filled, own⟩ := exists_filled fine
      rw [nodes, Edit.outcome_forM_append, filled]
      dsimp only
      rw [Edit.outcome_forM_cons, outcome_restoreNode_of_fault wrong own]
  | wire before w after records wires fine wrong =>
      obtain ⟨g, filled, own⟩ := exists_filled records
      have wired := restoreWires_eq_ok (g := g).2 ⟨fun other mem => own.symm ▸ fine other mem, rfl⟩
      have refused := outcome_restoreWire_of_fault (g := { g with wires := g.wires ++ before }) wrong own
      rw [filled, wires]
      dsimp only
      rw [Edit.outcome_forM_append, wired]
      dsimp only
      rw [Edit.outcome_forM_cons, refused]

/-- A layout loads exactly if it is consistent, into any graph, and leaves the one graph that it describes. Otherwise the
graph is untouched, and the failure is the first fault. -/
theorem load_exact (catalog : Catalog) (layout : Layout α) (g g' : Graph α) (e : Error) :
    ((∃ loaded, (layout.load catalog).outcome g = (.ok (), loaded)) ↔ layout.Consistent catalog) ∧
      ((layout.load catalog).outcome g = (.ok (), g') ↔ layout.Consistent catalog ∧ layout.Restores catalog g') ∧
      ((layout.load catalog).outcome g = (.error e, g') ↔
        g' = g ∧ ∃ fault, e = .corruptLayout fault ∧ layout.FirstFault catalog fault) := by
  rw [outcome_load]
  refine ⟨?_, ?_, ?_⟩
  · constructor
    · rintro ⟨loaded, succeeded⟩
      cases described : layout.toGraph catalog with
      | ok g => exact (toGraph_eq_ok_iff.1 described).1
      | error e =>
          rw [described] at succeeded
          cases succeeded
    · intro consistent
      obtain ⟨loaded, described⟩ := exists_toGraph consistent
      exact ⟨loaded, by rw [described]⟩
  · rw [← toGraph_eq_ok_iff]
    cases layout.toGraph catalog <;> simp
  · constructor
    · intro failed
      rcases consistent_or_firstFault catalog layout with consistent | ⟨fault, wrong⟩
      · obtain ⟨loaded, described⟩ := exists_toGraph consistent
        rw [described] at failed
        cases failed
      · rw [toGraph_eq_error wrong] at failed
        cases failed
        exact ⟨rfl, fault, rfl, wrong⟩
    · rintro ⟨rfl, fault, rfl, wrong⟩
      rw [toGraph_eq_error wrong]

example :
    let record (typeName : String) : NodeRecord Nat := ⟨"a", typeName, 0, 0, none, none, none⟩
    let layout : Layout Nat := ⟨["Command", "Nothing", "Command"].map record, [⟨"a", 0, "b", 0⟩]⟩
    layout.toGraph Catalog.builtin = .error (.corruptLayout (.unknownType "a" "Nothing")) := by
  decide +kernel

end Layout
end FlowScript
