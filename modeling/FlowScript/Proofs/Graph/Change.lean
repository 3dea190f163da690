import FlowScript.Proofs.Catalog.Lookup
import FlowScript.Proofs.Graph.Edits

/-!
# Changes of a graph

Every edit of a graph, whether it succeeds or fails, is one of few kinds of change, so that an invariant has
to look at these and not at every edit. `Tweak` collects the changes that give out no id: a node is altered
in place, a wire is drawn between ports that exist, wires are dropped, or a node goes together with its wires.
A `Revision` is a tweak, an addition or a fresh start.
-/

namespace FlowScript

variable {α : Type}

inductive Node.Altered (n : Node α) : Node α → Prop
  | moved (position : Point α) : n.Altered { n with position }
  | valued {key : String} (value : String) (has : n.properties.contains key) :
      n.Altered { n with properties := n.properties.insert key value }
  | renamed (label : String) :
      n.Altered { n with label := if Text.isBlank label then n.typeName else label }

theorem Node.Altered.frame {n n' : Node α} (h : n.Altered n') :
    n'.id = n.id ∧ n'.typeName = n.typeName ∧ n'.ports = n.ports := by
  cases h <;> exact ⟨rfl, rfl, rfl⟩

def Node.Alters (change : Node α → Except Error (Node α)) : Prop :=
  ∀ n n', change n = .ok n' → n.Altered n'

theorem Node.alters_move (position : Point α) : Alters fun n => .ok { n with position } := by
  intro n n' changed
  cases changed
  exact .moved position

theorem Node.alters_setProperty (id key value : String) : Alters fun n : Node α =>
    if n.properties.contains key then .ok { n with properties := n.properties.insert key value }
    else .error (.unknownProperty id key) := by
  intro n n' changed
  dsimp only at changed
  split at changed
  · rename_i has
    cases changed
    exact .valued value has
  · cases changed

theorem Node.alters_rename (label : String) : Alters fun n : Node α =>
    .ok { n with label := if Text.isBlank label then n.typeName else label } := by
  intro n n' changed
  cases changed
  exact .renamed label

namespace Graph

inductive Tweak (g : Graph α) : Graph α → Prop
  | kept : Tweak g g
  | altered {id : String} {n n' : Node α} (found : g.node id = .ok n) (kind : n.Altered n') :
      Tweak g (g.replaceNode id n')
  | drawn {w : Wire} (allowed : g.checkWire w = .ok ()) (straight : w.isLoop = false)
      (fresh : w ∉ g.wires) : Tweak g { g with wires := g.wires ++ [w] }
  | dropped (condition : Wire → Bool) : Tweak g (g.dropWires condition).2
  | deleted {id : String} {n : Node α} (found : g.node id = .ok n) : Tweak g (g.without id)

inductive Revision (catalog : Catalog) (g : Graph α) : Graph α → Prop
  | tweaked {g' : Graph α} (t : Tweak g g') : Revision catalog g g'
  | grown (typeName : String) (position : Point α) (wished : Option String) :
      Revision catalog g ((addNode catalog typeName position wished).outcome g).2
  | cleared : Revision catalog g empty

variable {g g' : Graph α} {id : String}

theorem tweak_editNode {change : Node α → Except Error (Node α)} (alters : Node.Alters change) (g : Graph α) :
    Tweak g ((editNode id change).outcome g).2 := by
  rw [outcome_editNode]
  cases found : g.node id with
  | error e => exact .kept
  | ok n =>
      cases changed : change n with
      | error e => simpa [bind, Except.bind, changed] using Tweak.kept
      | ok n' => simpa [bind, Except.bind, changed] using Tweak.altered found (alters n n' changed)

theorem tweak_moveNode (position : Point α) (g : Graph α) :
    Tweak g ((moveNode id position).outcome g).2 :=
  tweak_editNode (Node.alters_move position) g

theorem tweak_setProperty (key value : String) (g : Graph α) :
    Tweak g ((setProperty id key value).outcome g).2 :=
  tweak_editNode (Node.alters_setProperty id key value) g

theorem tweak_renameNode (label : String) (g : Graph α) :
    Tweak g ((renameNode id label).outcome g).2 :=
  tweak_editNode (Node.alters_rename label) g

theorem tweak_connect (w : Wire) (g : Graph α) : Tweak g ((connect w).outcome g).2 := by
  rw [outcome_connect]
  cases allowed : g.checkWire w with
  | error e => exact .kept
  | ok _ =>
      simp only
      split
      · exact .kept
      · rename_i new
        simp only [Bool.or_eq_true, List.contains_iff_mem, not_or, Bool.not_eq_true] at new
        exact .drawn allowed new.1 new.2

theorem tweak_disconnect (w : Wire) (g : Graph α) : Tweak g ((disconnect w).outcome g).2 := by
  rw [outcome_disconnect]
  exact .dropped _

theorem tweak_disconnectAll (g : Graph α) : Tweak g ((disconnectAll id).outcome g).2 := by
  rw [outcome_disconnectAll]
  exact .dropped _

theorem tweak_deleteNode (g : Graph α) : Tweak g ((deleteNode id).outcome g).2 := by
  rw [outcome_deleteNode]
  cases found : g.node id with
  | error e => exact .kept
  | ok n => exact .deleted found

/-! ## Ids under a tweak -/

theorem ids_replaceNode {n : Node α} (same : n.id = id) : (g.replaceNode id n).ids = g.ids := by
  simp only [ids, replaceNode, List.map_map]
  apply List.map_congr_left
  intro old _
  by_cases h : old.id = id <;> simp [h, same]

theorem ids_without : (g.without id).ids = g.ids.filter (· ≠ id) := by
  have mapped := List.filter_map (f := Node.id) (p := (· ≠ id)) (l := g.nodes)
  exact mapped.symm

theorem Tweak.nextNumber_eq (t : Tweak g g') : g'.nextNumber = g.nextNumber := by
  cases t <;> rfl

theorem Tweak.ids_sublist (t : Tweak g g') : g'.ids.Sublist g.ids := by
  cases t with
  | altered found kind =>
      have kept := ids_replaceNode (g := g) (kind.frame.1.trans (node_ok found).2)
      exact kept ▸ List.Sublist.refl _
  | deleted found =>
      rw [ids_without]
      exact List.filter_sublist
  | _ => exact List.Sublist.refl _

/-! ## Nodes and wires of a revision -/

variable {catalog : Catalog} {P : Node α → Prop}

theorem Tweak.forall_nodes (t : Tweak g g') (altered : ∀ n n', P n → n.Altered n' → P n')
    (h : ∀ n ∈ g.nodes, P n) : ∀ n ∈ g'.nodes, P n := by
  cases t with
  | altered found kind =>
      intro n mem
      obtain ⟨old, own, rfl⟩ := List.mem_map.1 mem
      split
      · exact altered _ _ (h _ (node_ok found).1) kind
      · exact h old own
  | deleted => exact fun n mem => h n (List.mem_filter.1 mem).1
  | _ => exact h

theorem forall_nodes_addNode {typeName : String} {position : Point α} (wished : Option String)
    (new : ∀ t ∈ catalog.types, ∀ id, P (t.newNode id position)) (h : ∀ n ∈ g.nodes, P n) :
    ∀ n ∈ ((addNode catalog typeName position wished).outcome g).2.nodes, P n := by
  rcases addNode_cases catalog typeName position wished g with ⟨_, next, kept⟩ | ⟨t, id, next, found, -, added⟩
  · rw [kept]
    exact h
  · rw [added]
    intro n mem
    rcases List.mem_append.1 mem with mem | mem
    · exact h n mem
    · obtain rfl := List.mem_singleton.1 mem
      exact new t (Catalog.find_ok found).1 id

theorem Revision.forall_nodes (r : Revision catalog g g') (altered : ∀ n n', P n → n.Altered n' → P n')
    (new : ∀ t ∈ catalog.types, ∀ id position, P (t.newNode id position)) (h : ∀ n ∈ g.nodes, P n) :
    ∀ n ∈ g'.nodes, P n := by
  cases r with
  | tweaked t => exact t.forall_nodes altered h
  | grown typeName position wished => exact forall_nodes_addNode wished (fun t known id => new t known id position) h
  | cleared => simp [empty]

theorem Revision.mem_wires (r : Revision catalog g g') {w : Wire} (mem : w ∈ g'.wires) :
    w ∈ g.wires ∨ g.checkWire w = .ok () := by
  cases r with
  | cleared => cases mem
  | grown typeName position wished =>
      rcases addNode_cases catalog typeName position wished g with ⟨_, _, kept⟩ | ⟨_, _, _, -, -, added⟩
      · rw [kept] at mem
        exact .inl mem
      · rw [added] at mem
        exact .inl mem
  | tweaked t =>
      cases t with
      | drawn allowed =>
          rcases List.mem_append.1 mem with mem | mem
          · exact .inl mem
          · obtain rfl := List.mem_singleton.1 mem
            exact .inr allowed
      | dropped | deleted => exact .inl (List.mem_filter.1 mem).1
      | _ => exact .inl mem

end Graph
end FlowScript
