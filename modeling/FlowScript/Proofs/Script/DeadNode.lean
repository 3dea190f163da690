import FlowScript.Proofs.Script.Liveness
import FlowScript.Proofs.Lists

namespace FlowScript

variable {α : Type} {g g' : Graph α} {catalog : Catalog} {u id : String}

namespace Graph

structure SameApartFrom (u : String) (g g' : Graph α) : Prop where
  nodes : g'.nodes.filter (·.id ≠ u) = g.nodes.filter (·.id ≠ u)
  typeNames : ∀ n' ∈ g'.nodes, n'.id = u → ∃ n ∈ g.nodes, n.id = u ∧ n.typeName = n'.typeName
  successors : ∀ id, id ≠ u → g.successor? id ≠ some u → g'.successor? id = g.successor? id

theorem isEvent_congr {n n' : Node α} (same : n.typeName = n'.typeName) :
    Script.isEvent catalog n = Script.isEvent catalog n' := by
  rw [Script.isEvent, same, Script.isEvent]

theorem events_eq_of_apart (noEvent : ∀ n ∈ g.nodes, n.id = u → Script.isEvent catalog n = false) :
    g.nodes.filter (Script.isEvent catalog) =
      (g.nodes.filter (·.id ≠ u)).filter (Script.isEvent catalog) := by
  rw [List.filter_filter]
  apply List.filter_congr
  intro n mem
  by_cases same : n.id = u
  · simp [noEvent n mem same]
  · simp [same]

theorem SameApartFrom.sameLive (same : SameApartFrom u g g') (dead : ¬ g.Live catalog u) :
    SameLive catalog g g' := by
  have noEvent : ∀ n ∈ g.nodes, n.id = u → Script.isEvent catalog n = false := by
    intro n mem isNode
    by_contra event
    exact dead (isNode ▸ live_of_event mem (by simpa using event))
  have noEvent' : ∀ n ∈ g'.nodes, n.id = u → Script.isEvent catalog n = false := by
    intro n' mem isNode
    obtain ⟨n, old, isOld, sameType⟩ := same.typeNames n' mem isNode
    rw [← isEvent_congr sameType]
    exact noEvent n old isOld
  constructor
  case events => rw [events_eq_of_apart noEvent', events_eq_of_apart noEvent, same.nodes]
  case nodes =>
    intro n live
    have other : n.id ≠ u := fun isNode => dead (isNode ▸ live)
    have kept := congrArg (n ∈ ·) same.nodes
    simpa [other] using kept
  case successors =>
    intro id live
    exact same.successors id (fun isNode => dead (isNode ▸ live)) fun follows => dead (live.successor? follows)

/-! ## Changes of this kind -/

theorem SameApartFrom.refl (u : String) (g : Graph α) : SameApartFrom u g g :=
  ⟨rfl, fun n mem isNode => ⟨n, mem, isNode, rfl⟩, fun _ _ _ => rfl⟩

theorem filter_replaceNode {n : Node α} (same : n.id = u) :
    (g.replaceNode u n).nodes.filter (·.id ≠ u) = g.nodes.filter (·.id ≠ u) := by
  have kept : ∀ old ∈ g.nodes.filter (·.id ≠ u), (if old.id = u then n else old) = old := by
    intro old mem
    exact if_neg (by simpa using (List.mem_filter.1 mem).2)
  have sameTest : ((fun old : Node α => decide (old.id ≠ u)) ∘ fun old => if old.id = u then n else old) =
      fun old => decide (old.id ≠ u) := by
    funext old
    by_cases isNode : old.id = u <;> simp [isNode, same]
  rw [replaceNode, List.filter_map, sameTest, List.map_congr_left kept, List.map_id']

theorem sameApartFrom_editNode {change : Node α → Except Error (Node α)} (alters : Node.Alters change)
    (g : Graph α) : SameApartFrom u g ((editNode u change).outcome g).2 := by
  rw [outcome_editNode]
  cases done : g.node u >>= change with
  | error e => exact .refl u g
  | ok n' =>
      obtain ⟨n, found, changed⟩ := Result.bind_eq_ok.1 done
      obtain ⟨sameId, sameType, -⟩ := (alters n n' changed).frame
      obtain ⟨mem, isNode⟩ := node_ok found
      refine ⟨filter_replaceNode (sameId.trans isNode), fun other inNew isOther => ?_, fun _ _ _ => rfl⟩
      obtain ⟨old, oldMem, rfl⟩ := List.mem_map.1 inNew
      split at isOther
      · rename_i wasNode
        exact ⟨n, mem, isNode, by rw [if_pos wasNode, sameType]⟩
      · rename_i wasOther
        exact absurd isOther wasOther

theorem successor?_filter (keep : Wire → Bool) (kept : ∀ w, ¬ w.touches u → keep w) (other : id ≠ u)
    (apart : g.successor? id ≠ some u) :
    successor? { g with wires := g.wires.filter keep } id = g.successor? id := by
  -- The oldest wire touches the node at neither end, so it stays, and no older one appears.
  rw [successor?, successor?, firstOutgoing?, firstOutgoing?, Lists.find?_filter_of_kept]
  intro w first
  have source : w.source = id := by simpa using List.find?_some first
  have target : w.target ≠ u := by simpa [successor?, firstOutgoing?, first] using apart
  exact kept w (by simp [Wire.touches, source, other, target])

theorem sameApartFrom_dropWires {condition : Wire → Bool} (touching : ∀ w, condition w → w.touches u)
    (g : Graph α) : SameApartFrom u g (g.dropWires condition).2 where
  nodes := rfl
  typeNames n mem isNode := ⟨n, mem, isNode, rfl⟩
  successors id other apart := by
    refine successor?_filter (!condition ·) (fun w free => ?_) other apart
    simpa using fun dropped => free (touching w dropped)

theorem sameApartFrom_without (g : Graph α) : SameApartFrom u g (g.without u) where
  nodes := by simp [without]
  typeNames n mem isNode := by simp [without, isNode] at mem
  successors id other apart := by
    refine successor?_filter (!·.touches u) (fun w free => ?_) other apart
    simpa using free

theorem sameApartFrom_drawn {w : Wire} (source : w.source = u) (g : Graph α) :
    SameApartFrom u g { g with wires := g.wires ++ [w] } where
  nodes := rfl
  typeNames n mem isNode := ⟨n, mem, isNode, rfl⟩
  successors id other _ := by
    have none : [w].find? (fun v => v.source = id) = none := by simpa [source] using other.symm
    rw [successor?, successor?, firstOutgoing?, firstOutgoing?, List.find?_append, none, Option.or_none]

theorem sameApartFrom_connect {w : Wire} (source : w.source = u) (g : Graph α) :
    SameApartFrom u g ((connect w).outcome g).2 := by
  rw [outcome_connect]
  cases g.checkWire w with
  | error e => exact .refl u g
  | ok _ =>
      dsimp only
      split
      · exact .refl u g
      · exact sameApartFrom_drawn source g

theorem sameApartFrom_disconnect {w : Wire} (source : w.source = u) (g : Graph α) :
    SameApartFrom u g ((disconnect w).outcome g).2 := by
  rw [outcome_disconnect]
  apply sameApartFrom_dropWires
  intro other same
  obtain rfl : other = w := by simpa using same
  simp [Wire.touches, source]

theorem sameApartFrom_disconnectAll (g : Graph α) : SameApartFrom u g ((disconnectAll u).outcome g).2 := by
  rw [outcome_disconnectAll]
  exact sameApartFrom_dropWires (fun _ => id) g

theorem sameApartFrom_deleteNode (g : Graph α) : SameApartFrom u g ((deleteNode u).outcome g).2 := by
  rw [outcome_deleteNode]
  cases g.node u with
  | error e => exact .refl u g
  | ok n => exact sameApartFrom_without g

end Graph
end FlowScript
