import Mathlib.Data.List.Nodup
import FlowScript.Proofs.Properties
import FlowScript.Proofs.Graph.Soundness

namespace FlowScript

abbrev PortTable := List (String × PortCounts)

def PortTable.HasPort (table : PortTable) (id : String) (side : Side) (index : Nat) : Prop :=
  ∃ row ∈ table, row.1 = id ∧ index < row.2.on side

instance (table : PortTable) (id : String) (side : Side) (index : Nat) :
    Decidable (table.HasPort id side index) :=
  inferInstanceAs (Decidable (∃ row ∈ table, row.1 = id ∧ index < row.2.on side))

def Wire.InRange (table : PortTable) (w : Wire) : Prop :=
  table.HasPort w.source .output w.sourcePort ∧ table.HasPort w.target .input w.targetPort

instance (table : PortTable) (w : Wire) : Decidable (w.InRange table) :=
  inferInstanceAs (Decidable (_ ∧ _))

/-- No wire occurs twice, every wire joins ports that are there, and none joins a port to itself. -/
structure WellWired (table : PortTable) (wires : List Wire) : Prop where
  once : wires.Nodup
  inRange : ∀ w ∈ wires, w.InRange table
  straight : ∀ w ∈ wires, w.isLoop = false

instance (table : PortTable) (wires : List Wire) : Decidable (WellWired table wires) :=
  decidable_of_iff (wires.Nodup ∧ (∀ w ∈ wires, w.InRange table) ∧ ∀ w ∈ wires, w.isLoop = false)
    ⟨fun h => ⟨h.1, h.2.1, h.2.2⟩, fun h => ⟨h.once, h.inRange, h.straight⟩⟩

theorem PortTable.HasPort.mono {table table' : PortTable} {id : String} {side : Side} {index : Nat}
    (h : table.HasPort id side index) (kept : ∀ row ∈ table, row.1 = id → row ∈ table') :
    table'.HasPort id side index := by
  obtain ⟨row, mem, same, lt⟩ := h
  exact ⟨row, kept row mem same, same, lt⟩

theorem WellWired.mono {table table' : PortTable} {wires wires' : List Wire} (h : WellWired table wires)
    (fewer : wires'.Sublist wires)
    (kept : ∀ w ∈ wires', ∀ row ∈ table, w.touches row.1 → row ∈ table') : WellWired table' wires' := by
  constructor
  case once => exact h.once.sublist fewer
  case inRange =>
    intro w mem
    obtain ⟨source, target⟩ := h.inRange w (fewer.subset mem)
    exact ⟨source.mono fun row own same => kept w mem row own (by simp [Wire.touches, same]),
      target.mono fun row own same => kept w mem row own (by simp [Wire.touches, same])⟩
  case straight => exact fun w mem => h.straight w (fewer.subset mem)

variable {α : Type}

structure Node.ConformsTo (t : NodeType) (n : Node α) : Prop where
  named : n.typeName = t.name
  ports : n.ports = t.portCounts
  keys : ∀ key, n.properties.contains key = true ↔ ∃ spec ∈ t.properties, spec.key = key
  labelled : Text.isBlank n.label = false ∨ n.label = t.name

theorem NodeType.conformsTo_newNode (t : NodeType) (id : String) (position : Point α) :
    (t.newNode id position).ConformsTo t :=
  ⟨rfl, rfl, t.contains_initialProperties, .inr rfl⟩

theorem Node.Altered.conformsTo {t : NodeType} {n n' : Node α} (altered : n.Altered n') (h : n.ConformsTo t) :
    n'.ConformsTo t := by
  cases altered with
  | moved => exact ⟨h.named, h.ports, h.keys, h.labelled⟩
  | valued value has =>
      refine ⟨h.named, h.ports, fun key => ?_, h.labelled⟩
      rw [Properties.contains_insert_of_contains has]
      exact h.keys key
  | renamed label =>
      refine ⟨h.named, h.ports, h.keys, ?_⟩
      dsimp only
      split
      · exact .inr h.named
      · rename_i shown
        exact .inl (by simpa using shown)

namespace Graph
variable {g g' : Graph α} {catalog : Catalog}

def portTable (g : Graph α) : PortTable := g.nodes.map fun n => (n.id, n.ports)

def WellWired (g : Graph α) : Prop := FlowScript.WellWired g.portTable g.wires

instance (g : Graph α) : Decidable g.WellWired := inferInstanceAs (Decidable (FlowScript.WellWired _ _))

def Conforms (catalog : Catalog) (g : Graph α) : Prop :=
  ∀ n ∈ g.nodes, ∃ t ∈ catalog.types, n.ConformsTo t

theorem wellWired_empty : (empty : Graph α).WellWired := ⟨.nil, by simp [empty], by simp [empty]⟩

theorem conforms_empty : (empty : Graph α).Conforms catalog := by simp [Conforms, empty]

/-! ## Rows of the table -/

theorem hasPort_of_node {n : Node α} {id : String} {side : Side} {index : Nat} (found : g.node id = .ok n)
    (lt : index < n.ports.on side) : g.portTable.HasPort id side index := by
  obtain ⟨mem, same⟩ := node_ok found
  exact ⟨(n.id, n.ports), List.mem_map.2 ⟨n, mem, rfl⟩, same, lt⟩

theorem inRange_of_checkWire {w : Wire} (allowed : g.checkWire w = .ok ()) : w.InRange g.portTable := by
  obtain ⟨source, target, hs, ht, output, input⟩ := checkWire_ok.1 allowed
  exact ⟨hasPort_of_node hs output, hasPort_of_node ht input⟩

theorem eq_of_node {n old : Node α} {id : String} (distinct : g.ids.Nodup) (found : g.node id = .ok n)
    (mem : old ∈ g.nodes) (same : old.id = id) : old = n :=
  List.inj_on_of_nodup_map distinct mem (node_ok found).1 (same.trans (node_ok found).2.symm)

theorem node_of_own (distinct : g.ids.Nodup) {n : Node α} (own : n ∈ g.nodes) : g.node n.id = .ok n := by
  obtain ⟨m, found⟩ := node_of_mem (List.mem_map_of_mem own)
  rw [found, eq_of_node distinct found own rfl]

theorem portTable_replaceNode {n n' : Node α} {id : String} (distinct : g.ids.Nodup) (found : g.node id = .ok n)
    (altered : n.Altered n') : (g.replaceNode id n').portTable = g.portTable := by
  simp only [portTable, replaceNode, List.map_map]
  apply List.map_congr_left
  intro old mem
  by_cases same : old.id = id
  · obtain rfl := eq_of_node distinct found mem same
    obtain ⟨sameId, -, samePorts⟩ := altered.frame
    simp [same, sameId, samePorts]
  · simp [same]

theorem mem_portTable_without {id : String} {row : String × PortCounts} (mem : row ∈ g.portTable)
    (apart : row.1 ≠ id) : row ∈ (g.without id).portTable := by
  obtain ⟨n, own, rfl⟩ := List.mem_map.1 mem
  exact List.mem_map.2 ⟨n, List.mem_filter.2 ⟨own, by simpa using apart⟩, rfl⟩

/-! ## Changes -/

theorem WellWired.tweak (h : g.WellWired) (distinct : g.ids.Nodup) (t : Tweak g g') : g'.WellWired := by
  cases t with
  | kept => exact h
  | altered found kind =>
      unfold WellWired
      rw [portTable_replaceNode distinct found kind]
      exact h
  | drawn allowed straight fresh =>
      constructor
      case once => exact Lists.nodup_addedLast h.once fresh
      case inRange =>
        intro other mem
        rcases List.mem_append.1 mem with mem | mem
        · exact h.inRange other mem
        · obtain rfl := List.mem_singleton.1 mem
          exact inRange_of_checkWire allowed
      case straight =>
        intro other mem
        rcases List.mem_append.1 mem with mem | mem
        · exact h.straight other mem
        · obtain rfl := List.mem_singleton.1 mem
          exact straight
  | dropped condition => exact FlowScript.WellWired.mono h List.filter_sublist fun _ _ row own _ => own
  | deleted =>
      -- The row that goes is touched by none of the wires that stay.
      refine FlowScript.WellWired.mono h List.filter_sublist fun w mem row own touches => ?_
      apply mem_portTable_without own
      rintro rfl
      simpa [touches] using (List.mem_filter.1 mem).2

theorem WellWired.addNode (h : g.WellWired) (typeName : String) (position : Point α) (wished : Option String) :
    ((Graph.addNode catalog typeName position wished).outcome g).2.WellWired := by
  rcases addNode_cases catalog typeName position wished g with ⟨_, next, kept⟩ | ⟨t, id, next, -, -, added⟩
  · rw [kept]
    exact h
  · rw [added]
    refine FlowScript.WellWired.mono h (List.Sublist.refl _) fun _ _ row own _ => ?_
    simp only [portTable, List.map_append]
    exact List.mem_append_left _ own

theorem WellWired.revision (h : g.WellWired) (distinct : g.ids.Nodup) (r : Revision catalog g g') :
    g'.WellWired := by
  cases r with
  | tweaked t => exact h.tweak distinct t
  | grown typeName position wished => exact h.addNode typeName position wished
  | cleared => exact wellWired_empty

theorem Conforms.revision (h : g.Conforms catalog) (r : Revision catalog g g') : g'.Conforms catalog :=
  r.forall_nodes (fun _ _ ⟨t, known, conforms⟩ altered => ⟨t, known, altered.conformsTo conforms⟩)
    (fun t known id position => ⟨t, known, t.conformsTo_newNode id position⟩) h

end Graph
end FlowScript
