import FlowScript.Graph.Basic

namespace FlowScript

/-- The nodes that follow a node along oldest outgoing wires, and the id at which the chain is cut, because it
would come there a second time. The root counts as visited only once the chain comes back to it. -/
structure Chain (α : Type) where
  root : Node α
  steps : List (Node α)
  cycleAt : Option String
  deriving DecidableEq

namespace Chain
variable {α : Type}

def events (catalog : Catalog) : List (Node α) → Except Error (List (Node α))
  | [] => .ok []
  | n :: rest => do
      let type ← catalog.find n.typeName
      let later ← events catalog rest
      return if type.isEvent then n :: later else later

def roots (g : Graph α) (catalog : Catalog) : Except Error (List (Node α)) := events catalog g.nodes

theorem countP_unvisited_lt {g : Graph α} {id : String} {n : Node α} {visited : List String}
    (found : g.node? id = some n) (fresh : id ∉ visited) :
    (g.nodes.countP fun n => n.id ∉ id :: visited) < g.nodes.countP fun n => n.id ∉ visited := by
  have same : n.id = id := by simpa using List.find?_some found
  obtain ⟨front, back, nodes⟩ := List.append_of_mem (List.mem_of_find?_eq_some found)
  have noMore (others : List (Node α)) :
      (others.countP fun n => n.id ∉ id :: visited) ≤ others.countP fun n => n.id ∉ visited := by
    refine List.countP_mono_left fun m _ unseen => ?_
    simp only [List.mem_cons, not_or, decide_eq_true_eq] at unseen ⊢
    exact unseen.2
  have before := noMore front
  have after := noMore back
  rw [nodes, List.countP_append, List.countP_append, List.countP_cons_of_neg (by simp [same]),
    List.countP_cons_of_pos (by simpa [same] using fresh)]
  omega

def follow (g : Graph α) (visited : List String) (current : String) :
    Except Error (List (Node α) × Option String) :=
  match g.successor? current with
  | none => .ok ([], none)
  | some next =>
      if _ : next ∈ visited then .ok ([], some next)
      else match _ : g.node? next with
        | none => .error (.nodeNotFound next)
        | some n => do
            let (steps, cycleAt) ← follow g (next :: visited) next
            return (n :: steps, cycleAt)
termination_by g.nodes.countP fun n => n.id ∉ visited
decreasing_by exact countP_unvisited_lt ‹_› ‹_›

def ofNode (g : Graph α) (root : Node α) : Except Error (Chain α) := do
  let (steps, cycleAt) ← follow g [] root.id
  return ⟨root, steps, cycleAt⟩

end Chain
end FlowScript
