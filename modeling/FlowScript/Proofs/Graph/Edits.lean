import FlowScript.Graph.Basic
import FlowScript.Proofs.Edit
import FlowScript.Proofs.Graph.NodeId

namespace FlowScript.Graph
variable {α : Type} {g : Graph α} {id : String}

/-! ## Looking nodes up -/

def ids (g : Graph α) : List String := g.nodes.map Node.id

theorem contains_iff : g.contains id = true ↔ id ∈ g.ids := by
  simp [contains, ids]

theorem node_ok {n : Node α} (h : g.node id = .ok n) : n ∈ g.nodes ∧ n.id = id := by
  unfold node node? at h
  split at h
  · rename_i found
    cases h
    exact ⟨List.mem_of_find?_eq_some found, by simpa using List.find?_some found⟩
  · cases h

theorem mem_ids_of_node {n : Node α} (h : g.node id = .ok n) : id ∈ g.ids :=
  List.mem_map.2 ⟨n, node_ok h⟩

theorem node_error {e : Error} (h : g.node id = .error e) : e = .nodeNotFound id ∧ id ∉ g.ids := by
  unfold node node? at h
  split at h
  · cases h
  · rename_i missing
    cases h
    refine ⟨rfl, ?_⟩
    intro mem
    obtain ⟨n, mem, same⟩ := List.mem_map.1 mem
    simpa [same] using List.find?_eq_none.1 missing n mem

theorem node_of_mem (h : id ∈ g.ids) : ∃ n, g.node id = .ok n := by
  cases found : g.node id with
  | ok n => exact ⟨n, rfl⟩
  | error e => exact absurd h (node_error found).2

theorem checkPort_ok {n : Node α} {side : Side} {index : Nat} :
    checkPort n side index = .ok () ↔ index < n.ports.on side := by
  unfold checkPort
  split <;> simp_all

/-! ## Outcomes -/

theorem outcome_editNode (change : Node α → Except Error (Node α)) (g : Graph α) :
    (editNode id change).outcome g = match g.node id >>= change with
      | .ok n => (.ok (), g.replaceNode id n)
      | .error e => (.error e, g) := by
  simp only [editNode, Edit.outcome_get_bind, Edit.outcome_lift_bind]
  cases g.node id with
  | error e => rfl
  | ok n =>
      simp only [bind, Except.bind]
      cases change n <;> rfl

def checkWire (g : Graph α) (w : Wire) : Except Error Unit := do
  let source ← g.node w.source
  let target ← g.node w.target
  checkPort source .output w.sourcePort
  checkPort target .input w.targetPort

theorem checkWire_ok {w : Wire} : g.checkWire w = .ok () ↔
    ∃ source target, g.node w.source = .ok source ∧ g.node w.target = .ok target ∧
      w.sourcePort < source.ports.outputs ∧ w.targetPort < target.ports.inputs := by
  unfold checkWire
  cases hs : g.node w.source with
  | error e => simp [bind, Except.bind]
  | ok source =>
      cases ht : g.node w.target with
      | error e => simp [bind, Except.bind]
      | ok target =>
          simp only [bind, Except.bind]
          cases hp : checkPort source .output w.sourcePort with
          | error e =>
              have outside : ¬ w.sourcePort < source.ports.outputs := fun lt => by
                rw [checkPort_ok.2 lt] at hp
                cases hp
              simp [outside]
          | ok _ =>
              have inside : w.sourcePort < source.ports.outputs := checkPort_ok.1 hp
              simp [checkPort_ok, PortCounts.on, inside]

theorem outcome_connect (w : Wire) (g : Graph α) :
    (connect w).outcome g = match g.checkWire w with
      | .error e => (.error e, g)
      | .ok () =>
          if w.isLoop || g.wires.contains w then (.ok false, g)
          else (.ok true, { g with wires := g.wires ++ [w] }) := by
  simp only [connect, checkWire, Edit.outcome_get_bind, Edit.outcome_lift_bind]
  cases g.node w.source with
  | error e => rfl
  | ok source =>
      cases g.node w.target with
      | error e => rfl
      | ok target =>
          simp only [bind, Except.bind]
          cases checkPort source .output w.sourcePort with
          | error e => rfl
          | ok _ =>
              simp only
              cases checkPort target .input w.targetPort with
              | error e => rfl
              | ok _ =>
                  simp only
                  split <;> rfl

theorem outcome_disconnect (w : Wire) (g : Graph α) :
    (disconnect w).outcome g =
      (.ok (decide (w ∈ g.wires)), (g.dropWires (· = w)).2) := by
  simp [disconnect, dropWires, Except.map]

theorem outcome_disconnectAll (g : Graph α) :
    (disconnectAll id).outcome g =
      (.ok (g.wires.countP (·.touches id)), (g.dropWires (·.touches id)).2) := rfl

def without (g : Graph α) (id : String) : Graph α :=
  { g with nodes := g.nodes.filter (·.id ≠ id), wires := g.wires.filter (!·.touches id) }

theorem outcome_deleteNode (g : Graph α) :
    (deleteNode id).outcome g = match g.node id with
      | .ok _ => (.ok (), g.without id)
      | .error e => (.error e, g) := by
  simp only [deleteNode, Edit.outcome_get_bind]
  cases g.node id <;> rfl

theorem outcome_addNode (catalog : Catalog) (typeName : String) (position : Point α)
    (wished : Option String) (g : Graph α) :
    (addNode catalog typeName position wished).outcome g = match catalog.find typeName with
      | .error e => (.error e, g)
      | .ok type => match (chooseId wished).outcome g with
          | (.error e, g') => (.error e, g')
          | (.ok id, g') => (.ok id, { g' with nodes := g'.nodes ++ [type.newNode id position] }) := by
  simp only [addNode, Edit.outcome_lift_bind]
  cases catalog.find typeName with
  | error e => rfl
  | ok type =>
      simp only [Edit.outcome_bind]
      cases (chooseId wished).outcome g with
      | mk result g' => cases result <;> rfl

theorem outcome_chooseId_some (g : Graph α) :
    (chooseId (some id)).outcome g =
      if g.contains id then (.error (.duplicateNode id), g) else (.ok id, g.reserve id) := by
  simp only [chooseId, Edit.outcome_get_bind]
  split <;> rfl

theorem outcome_chooseId_none (g : Graph α) : (chooseId none).outcome g = g.allocate := rfl

/-! ## Ids -/

theorem reserve_eq (g : Graph α) (id : String) :
    g.reserve id = { g with nextNumber := NodeId.past g.nextNumber id } := by
  unfold reserve NodeId.past
  cases NodeId.suffix? id <;> rfl

theorem allocate_frame (g : Graph α) :
    g.allocate.2.nodes = g.nodes ∧ g.allocate.2.wires = g.wires ∧
      ∀ id, g.allocate.1 = .ok id → id ∉ g.ids := by
  fun_induction allocate g with
  | case1 g id inRange next taken ih => simpa [ids, next] using ih
  | case2 g id inRange next free =>
      refine ⟨rfl, rfl, ?_⟩
      intro other chosen
      cases chosen
      exact fun mem => free (contains_iff.2 mem)
  | case3 g id spent => simp

theorem chooseId_frame (wished : Option String) (g : Graph α) :
    ((chooseId wished).outcome g).2.nodes = g.nodes ∧
      ((chooseId wished).outcome g).2.wires = g.wires ∧
      ∀ id, ((chooseId wished).outcome g).1 = .ok id → id ∉ g.ids := by
  cases wished with
  | none => exact allocate_frame g
  | some wish =>
      rw [outcome_chooseId_some]
      split
      · simp
      · rename_i free
        rw [reserve_eq]
        refine ⟨rfl, rfl, ?_⟩
        intro id chosen
        cases chosen
        exact fun mem => free (contains_iff.2 mem)

theorem addNode_cases (catalog : Catalog) (typeName : String) (position : Point α) (wished : Option String)
    (g : Graph α) :
    (∃ e next, (addNode catalog typeName position wished).outcome g = (.error e, { g with nextNumber := next })) ∨
      ∃ type id next, catalog.find typeName = .ok type ∧ id ∉ g.ids ∧
        (addNode catalog typeName position wished).outcome g =
          (.ok id, { g with nodes := g.nodes ++ [type.newNode id position], nextNumber := next }) := by
  rw [outcome_addNode]
  cases catalog.find typeName with
  | error e => exact .inl ⟨e, g.nextNumber, rfl⟩
  | ok type =>
      obtain ⟨nodes, wires, free⟩ := chooseId_frame wished g
      cases chosen : (chooseId wished).outcome g with
      | mk result g' =>
          rw [chosen] at nodes wires free
          cases g'
          cases nodes
          cases wires
          cases result with
          | error e => exact .inl ⟨e, _, rfl⟩
          | ok id => exact .inr ⟨type, id, _, rfl, free id rfl, rfl⟩

end FlowScript.Graph
