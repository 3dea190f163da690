import FlowScript.Proofs.Catalog.Lookup
import FlowScript.Proofs.Graph.Change
import FlowScript.Proofs.Lists

namespace FlowScript

namespace Graph
variable {α : Type} {g g' : Graph α} {catalog : Catalog}

/-- Ids are distinct, wires join nodes of the graph, and types are types of the catalog. -/
structure Sound (catalog : Catalog) (g : Graph α) : Prop where
  distinct : g.ids.Nodup
  anchored : ∀ w ∈ g.wires, w.source ∈ g.ids ∧ w.target ∈ g.ids
  typed : ∀ n ∈ g.nodes, ∃ t ∈ catalog.types, t.name = n.typeName

theorem sound_empty : (empty : Graph α).Sound catalog :=
  ⟨List.nodup_nil, by simp [empty], by simp [empty]⟩

theorem ids_addedLast {n : Node α} {next : Nat} :
    ids { g with nodes := g.nodes ++ [n], nextNumber := next } = g.ids ++ [n.id] := by
  simp [ids]

theorem Sound.add (h : g.Sound catalog) {t : NodeType} {n : Node α} {next : Nat}
    (known : t ∈ catalog.types) (ofType : t.name = n.typeName) (free : n.id ∉ g.ids) :
    Sound catalog { g with nodes := g.nodes ++ [n], nextNumber := next } := by
  constructor
  case distinct =>
    rw [ids_addedLast]
    exact Lists.nodup_addedLast h.distinct free
  case anchored =>
    intro w mem
    obtain ⟨source, target⟩ := h.anchored w mem
    rw [ids_addedLast]
    exact ⟨List.mem_append_left _ source, List.mem_append_left _ target⟩
  case typed =>
    intro other mem
    rcases List.mem_append.1 mem with mem | mem
    · exact h.typed other mem
    · obtain rfl := List.mem_singleton.1 mem
      exact ⟨t, known, ofType⟩

theorem Sound.replaceNode (h : g.Sound catalog) {id : String} {n n' : Node α}
    (found : g.node id = .ok n) (sameId : n'.id = n.id) (sameType : n'.typeName = n.typeName) :
    (g.replaceNode id n').Sound catalog := by
  have ids_eq := ids_replaceNode (g := g) (sameId.trans (node_ok found).2)
  constructor
  case distinct => exact ids_eq ▸ h.distinct
  case anchored =>
    intro w mem
    exact ids_eq ▸ h.anchored w mem
  case typed =>
    intro other mem
    obtain ⟨old, oldMem, rfl⟩ := List.mem_map.1 mem
    split
    · rw [sameType]
      exact h.typed n (node_ok found).1
    · exact h.typed old oldMem

theorem Sound.addWire (h : g.Sound catalog) {w : Wire} (source : w.source ∈ g.ids)
    (target : w.target ∈ g.ids) : Sound catalog { g with wires := g.wires ++ [w] } := by
  constructor
  case distinct => exact h.distinct
  case anchored =>
    intro other mem
    rcases List.mem_append.1 mem with mem | mem
    · exact h.anchored other mem
    · obtain rfl := List.mem_singleton.1 mem
      exact ⟨source, target⟩
  case typed => exact h.typed

theorem Sound.dropWires (h : g.Sound catalog) (condition : Wire → Bool) :
    (g.dropWires condition).2.Sound catalog :=
  ⟨h.distinct, fun w mem => h.anchored w (List.mem_filter.1 mem).1, h.typed⟩

theorem Sound.without (h : g.Sound catalog) (id : String) : (g.without id).Sound catalog := by
  constructor
  case distinct =>
    rw [ids_without]
    exact h.distinct.filter _
  case anchored =>
    -- A wire that stays touches no deleted node, so its ends stay as well.
    intro w mem
    obtain ⟨mem, apart⟩ := List.mem_filter.1 mem
    obtain ⟨source, target⟩ := h.anchored w mem
    simp only [Wire.touches, Bool.not_eq_true', Bool.or_eq_false_iff, decide_eq_false_iff_not] at apart
    rw [ids_without]
    exact ⟨List.mem_filter.2 ⟨source, by simpa using apart.1⟩,
      List.mem_filter.2 ⟨target, by simpa using apart.2⟩⟩
  case typed =>
    intro n mem
    exact h.typed n (List.mem_filter.1 mem).1

theorem Sound.tweak (h : g.Sound catalog) (t : Tweak g g') : g'.Sound catalog := by
  cases t with
  | kept => exact h
  | altered found kind => exact h.replaceNode found kind.frame.1 kind.frame.2.1
  | drawn allowed =>
      obtain ⟨source, target, hs, ht, -⟩ := checkWire_ok.1 allowed
      exact h.addWire (mem_ids_of_node hs) (mem_ids_of_node ht)
  | dropped condition => exact h.dropWires condition
  | deleted => exact h.without _

theorem Sound.addNode (h : g.Sound catalog) (typeName : String) (position : Point α)
    (wished : Option String) :
    ((Graph.addNode catalog typeName position wished).outcome g).2.Sound catalog := by
  rcases addNode_cases catalog typeName position wished g with ⟨_, next, kept⟩ | ⟨t, id, next, found, free, added⟩
  · rw [kept]
    exact ⟨h.distinct, h.anchored, h.typed⟩
  · rw [added]
    exact h.add (Catalog.find_ok found).1 rfl free

theorem Sound.revision (h : g.Sound catalog) (r : Revision catalog g g') : g'.Sound catalog := by
  cases r with
  | tweaked t => exact h.tweak t
  | grown typeName position wished => exact h.addNode typeName position wished
  | cleared => exact sound_empty

end Graph
end FlowScript
