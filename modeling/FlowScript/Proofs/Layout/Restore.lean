import FlowScript.Layout.Basic
import FlowScript.Proofs.Graph.Soundness
import FlowScript.Proofs.Result

namespace FlowScript

variable {α : Type}

def NodeRecord.toNode (t : NodeType) (r : NodeRecord α) : Node α := r.fill (t.newNode r.id ⟨r.x, r.y⟩)

namespace Layout
open FlowScript.Graph
variable {g : Graph α} {catalog : Catalog}

theorem node_addedLast {n : Node α} {id : String} (next : Nat) (same : n.id = id) (free : id ∉ g.ids) :
    Graph.node { g with nodes := g.nodes ++ [n], nextNumber := next } id = .ok n := by
  have missing : g.nodes.find? (·.id = id) = none :=
    List.find?_eq_none.2 fun old mem taken => free (List.mem_map.2 ⟨old, mem, by simpa using taken⟩)
  simp [Graph.node, Graph.node?, List.find?_append, missing, same]

theorem replaceNode_addedLast {n : Node α} {id : String} (n' : Node α) (next : Nat)
    (same : n.id = id) (free : id ∉ g.ids) :
    Graph.replaceNode { g with nodes := g.nodes ++ [n], nextNumber := next } id n' =
      { g with nodes := g.nodes ++ [n'], nextNumber := next } := by
  have kept : g.nodes.map (fun old => if old.id = id then n' else old) = g.nodes := by
    apply Eq.trans (List.map_congr_left ?_) (List.map_id _)
    intro old mem
    have other : old.id ≠ id := fun taken => free (List.mem_map.2 ⟨old, mem, taken⟩)
    simp [other]
  simp [Graph.replaceNode, kept, same]

theorem outcome_restoreNode (r : NodeRecord α) (g : Graph α) :
    (restoreNode catalog r).outcome g = match catalog.find r.typeName with
      | .error _ => (.error (.corruptLayout (.unknownType r.id r.typeName)), g)
      | .ok t =>
          if g.contains r.id then (.error (.corruptLayout (.repeatedId r.id)), g)
          else (.ok (), { g with nodes := g.nodes ++ [r.toNode t],
                                 nextNumber := NodeId.past g.nextNumber r.id }) := by
  simp only [restoreNode, Edit.outcome_discard_bind, Edit.outcome_tryCatch, outcome_addNode,
    outcome_chooseId_some]
  cases known : catalog.find r.typeName with
  | error e =>
      obtain ⟨rfl, -⟩ := Catalog.find_error known
      rfl
  | ok t =>
      by_cases taken : g.contains r.id
      · simp [taken, faultOf]
      · have free : r.id ∉ g.ids := fun mem => taken (contains_iff.2 mem)
        have same : (t.newNode r.id ⟨r.x, r.y⟩).id = r.id := rfl
        have found := node_addedLast (NodeId.past g.nextNumber r.id) same free
        have placed := replaceNode_addedLast (r.toNode t) (NodeId.past g.nextNumber r.id) same free
        simp only [taken, Bool.false_eq_true, if_false, outcome_editNode]
        rw [reserve_eq]
        dsimp only
        rw [found]
        exact congrArg (Prod.mk _) placed

theorem outcome_restoreWire (w : Wire) (g : Graph α) :
    (restoreWire w).outcome g =
      if g.contains w.source then
        if g.contains w.target then (.ok (), { g with wires := g.wires ++ [w] })
        else (.error (.corruptLayout (.danglingWire w.target)), g)
      else (.error (.corruptLayout (.danglingWire w.source)), g) := by
  simp only [restoreWire, checkEnd, Edit.outcome_get_bind, Edit.outcome_lift_bind]
  cases g.contains w.source <;> cases g.contains w.target <;> rfl

theorem outcome_restore (layout : Layout α) (g : Graph α) :
    (layout.restore catalog).outcome g =
      match (layout.nodes.forM (restoreNode catalog)).outcome g with
      | (.ok _, g') => (layout.wires.forM restoreWire).outcome g'
      | (.error e, g') => (.error e, g') := by
  rw [restore, Edit.outcome_bind]
  cases (layout.nodes.forM (restoreNode catalog)).outcome g with
  | mk result g' => cases result <;> rfl

theorem outcome_load (layout : Layout α) (g : Graph α) :
    (layout.load catalog).outcome g = match layout.toGraph catalog with
      | .ok g' => (.ok (), g')
      | .error e => (.error e, g) := by
  rw [load, Edit.outcome_lift_bind]
  cases layout.toGraph catalog <;> rfl

/-! ## Layouts in which nothing is wrong -/

def Describes (catalog : Catalog) (r : NodeRecord α) (n : Node α) : Prop :=
  ∃ t, catalog.find r.typeName = .ok t ∧ n = r.toNode t

theorem ids_of_describes {records : List (NodeRecord α)} {nodes : List (Node α)}
    (h : List.Forall₂ (Describes catalog) records nodes) :
    nodes.map Node.id = records.map NodeRecord.id := by
  induction h with
  | nil => rfl
  | cons described _ ih =>
      obtain ⟨t, -, rfl⟩ := described
      rw [List.map_cons, List.map_cons, ih]
      rfl

theorem typed_of_describes {records : List (NodeRecord α)} {nodes : List (Node α)}
    (h : List.Forall₂ (Describes catalog) records nodes) :
    ∀ n ∈ nodes, ∃ t ∈ catalog.types, t.name = n.typeName := by
  intro n mem
  obtain ⟨r, -, t, known, rfl⟩ := Result.exists_related h mem
  exact ⟨t, (Catalog.find_ok known).1, rfl⟩

theorem restoreNodes_eq_ok {records : List (NodeRecord α)} {g g' : Graph α} (distinct : g.ids.Nodup) :
    (records.forM (restoreNode catalog)).outcome g = (.ok (), g') ↔
      ∃ nodes, List.Forall₂ (Describes catalog) records nodes ∧
        (g.ids ++ records.map NodeRecord.id).Nodup ∧
        g' = { g with nodes := g.nodes ++ nodes,
                      nextNumber := (records.map NodeRecord.id).foldl NodeId.past g.nextNumber } := by
  induction records generalizing g with
  | nil =>
      simp only [Edit.outcome_forM_nil, Prod.mk.injEq, true_and, List.forall₂_nil_left_iff,
        exists_eq_left, List.map_nil, List.append_nil, List.foldl_nil]
      exact ⟨fun h => ⟨distinct, h.symm⟩, fun h => h.2.symm⟩
  | cons r rest ih =>
      rw [Edit.outcome_forM_cons, outcome_restoreNode]
      cases known : catalog.find r.typeName with
      | error e =>
          refine ⟨fun h => (by cases h), fun ⟨nodes, described, _⟩ => ?_⟩
          obtain ⟨_, _, ⟨t, found, -⟩, -, -⟩ := List.forall₂_cons_left_iff.1 described
          rw [known] at found
          cases found
      | ok t =>
          by_cases taken : g.contains r.id
          · simp only [taken, if_true]
            refine ⟨fun h => (by cases h), fun ⟨nodes, _, nodup, _⟩ => ?_⟩
            have apart := (List.nodup_append.1 nodup).2.2
            exact absurd rfl (apart r.id (contains_iff.1 taken) r.id (by simp))
          · -- The node gets the free id, and the ids that the induction starts from stay distinct.
            have free : r.id ∉ g.ids := fun mem => taken (contains_iff.2 mem)
            simp only [taken, Bool.false_eq_true, if_false]
            have distinct' := Lists.nodup_addedLast distinct free
            rw [ih (by rwa [ids_addedLast]), ids_addedLast, List.append_assoc]
            constructor
            · rintro ⟨nodes, described, nodup, rfl⟩
              refine ⟨r.toNode t :: nodes, .cons ⟨t, known, rfl⟩ described, nodup, ?_⟩
              simp
            · rintro ⟨all, described, nodup, rfl⟩
              obtain ⟨n, nodes, ⟨t', found, rfl⟩, later, rfl⟩ :=
                List.forall₂_cons_left_iff.1 described
              obtain rfl : t = t' := by simpa [known] using found
              refine ⟨nodes, later, nodup, ?_⟩
              simp

theorem restoreWires_eq_ok {wires : List Wire} {g g' : Graph α} :
    (wires.forM restoreWire).outcome g = (.ok (), g') ↔
      (∀ w ∈ wires, w.source ∈ g.ids ∧ w.target ∈ g.ids) ∧
        g' = { g with wires := g.wires ++ wires } := by
  induction wires generalizing g with
  | nil =>
      rw [Edit.outcome_forM_nil]
      simp [eq_comm]
  | cons w rest ih =>
      rw [Edit.outcome_forM_cons, outcome_restoreWire]
      by_cases source : g.contains w.source
      · by_cases target : g.contains w.target
        · simp only [source, target, if_true]
          rw [ih, List.forall_mem_cons]
          have ends : w.source ∈ g.ids ∧ w.target ∈ g.ids :=
            ⟨contains_iff.1 source, contains_iff.1 target⟩
          simp only [ends, true_and, List.append_assoc, List.singleton_append]
          rfl
        · simp only [source, target, if_true, Bool.false_eq_true, if_false]
          refine ⟨fun h => (by cases h), fun ⟨anchored, _⟩ => ?_⟩
          exact absurd (contains_iff.2 (anchored w (by simp)).2) target
      · simp only [source, Bool.false_eq_true, if_false]
        refine ⟨fun h => (by cases h), fun ⟨anchored, _⟩ => ?_⟩
        exact absurd (contains_iff.2 (anchored w (by simp)).1) source

theorem restore_eq_ok {layout : Layout α} {g' : Graph α} :
    (layout.restore catalog).outcome g = (.ok (), g') ↔
      ∃ filled, (layout.nodes.forM (restoreNode catalog)).outcome g = (.ok (), filled) ∧
        (layout.wires.forM restoreWire).outcome filled = (.ok (), g') := by
  rw [restore, Edit.outcome_bind_eq_ok]
  exact ⟨fun ⟨_, filled, first, second⟩ => ⟨filled, first, second⟩, fun ⟨filled, steps⟩ => ⟨(), filled, steps⟩⟩

theorem toGraph_eq_ok_iff_restore {layout : Layout α} :
    layout.toGraph catalog = .ok g ↔ (layout.restore catalog).outcome Graph.empty = (.ok (), g) := by
  unfold toGraph
  cases (layout.restore catalog).outcome (Graph.empty : Graph α) with
  | mk result g' => cases result <;> simp

theorem toGraph_eq_ok {layout : Layout α} :
    layout.toGraph catalog = .ok g ↔
      ∃ nodes, List.Forall₂ (Describes catalog) layout.nodes nodes ∧
        (layout.nodes.map NodeRecord.id).Nodup ∧
        (∀ w ∈ layout.wires, w.source ∈ layout.nodes.map NodeRecord.id ∧
          w.target ∈ layout.nodes.map NodeRecord.id) ∧
        g = ⟨nodes, layout.wires, NodeId.nextAfter (layout.nodes.map NodeRecord.id)⟩ := by
  have start : (Graph.empty : Graph α).ids.Nodup := List.nodup_nil
  have next_eq : (layout.nodes.map NodeRecord.id).foldl NodeId.past (Graph.empty : Graph α).nextNumber =
      NodeId.nextAfter (layout.nodes.map NodeRecord.id) := NodeId.foldl_past [] _
  rw [toGraph_eq_ok_iff_restore, restore_eq_ok]
  constructor
  · rintro ⟨filled, fill, wire⟩
    obtain ⟨nodes, described, nodup, rfl⟩ := (restoreNodes_eq_ok start).1 fill
    obtain ⟨anchored, rfl⟩ := restoreWires_eq_ok.1 wire
    have ids_eq : nodes.map Node.id = layout.nodes.map NodeRecord.id := ids_of_describes described
    refine ⟨nodes, described, nodup, fun w mem => ?_, ?_⟩
    · rw [← ids_eq]
      exact anchored w mem
    · rw [next_eq]
      rfl
  · rintro ⟨nodes, described, nodup, anchored, rfl⟩
    rw [← ids_of_describes described] at anchored
    refine ⟨_, (restoreNodes_eq_ok start).2 ⟨nodes, described, nodup, rfl⟩, ?_⟩
    rw [next_eq]
    exact restoreWires_eq_ok.2 ⟨anchored, rfl⟩

theorem sound_toGraph {layout : Layout α} (h : layout.toGraph catalog = .ok g) : g.Sound catalog := by
  obtain ⟨nodes, described, nodup, anchored, rfl⟩ := toGraph_eq_ok.1 h
  have ids_eq := ids_of_describes described
  rw [← ids_eq] at nodup anchored
  exact ⟨nodup, anchored, typed_of_describes described⟩

end Layout
end FlowScript
