import FlowScript.Graph.Ports
import FlowScript.Proofs.Graph.Wiring
import FlowScript.Proofs.Scalar

/-!
# The port nearest to a point

The search for a port goes through the ports in order and keeps the best one so far (`Leads`). Where all
distances are numbers, it answers with the nearest port within the radius, and with the first of those that are
equally near (`hitTest_eq_some_iff`); it answers with none exactly if no port is that near
(`hitTest_eq_none_iff`).
-/

namespace FlowScript.NodeShape

open Scalar

variable {α : Type} [Scalar α] (shape : NodeShape α)

def distanceTo (p : Point α) (side : Side) (n : Node α) (index : Nat) : α :=
  (shape.anchor n side index).distance p

def hitAt (side : Side) (n : Node α) (index : Nat) : PortHit α := ⟨n.id, side, index, shape.anchor n side index⟩

/-- A port of the node `n`, which stands between `front` and `back`, is near enough; the ports before it are farther
away, and none is nearer. -/
structure Precedes (p : Point α) (side : Side) (radius : α) (front : List (Node α)) (n : Node α)
    (back : List (Node α)) (index : Nat) : Prop where
  own : index < n.ports.on side
  within : le (shape.distanceTo p side n index) radius = true
  earlierNodes : ∀ m ∈ front, ∀ j < m.ports.on side,
    lt (shape.distanceTo p side n index) (shape.distanceTo p side m j) = true
  earlierPorts : ∀ j < index, lt (shape.distanceTo p side n index) (shape.distanceTo p side n j) = true
  least : ∀ m ∈ front ++ n :: back, ∀ j < m.ports.on side,
    le (shape.distanceTo p side n index) (shape.distanceTo p side m j) = true

/-- The port is the first of the nearest ports of the graph, and near enough. -/
def Nearest (g : Graph α) (p : Point α) (side : Side) (radius : α) (hit : PortHit α) : Prop :=
  ∃ front n back index, g.nodes = front ++ n :: back ∧ shape.Precedes p side radius front n back index ∧
    hit = shape.hitAt side n index

def Measured (g : Graph α) (p : Point α) (side : Side) : Prop :=
  ∀ n ∈ g.nodes, ∀ i < n.ports.on side, IsNumber (shape.distanceTo p side n i)

variable {shape} {g : Graph α} {p : Point α} {side : Side} {radius : α}

theorem mem_portsOn {hit : PortHit α} :
    hit ∈ shape.portsOn g side ↔ ∃ n ∈ g.nodes, ∃ i < n.ports.on side, shape.hitAt side n i = hit := by
  simp [portsOn, hitAt]

theorem Measured.portsOn (measured : shape.Measured g p side) :
    ∀ o ∈ shape.portsOn g side, IsNumber (o.anchor.distance p) := by
  intro o mem
  obtain ⟨n, own, i, bound, rfl⟩ := mem_portsOn.1 mem
  exact measured n own i bound

/-! ## Places in the order of ports -/

theorem exists_split_portsOn {before after : List (PortHit α)} {hit : PortHit α}
    (split : shape.portsOn g side = before ++ hit :: after) :
    ∃ front n back index, g.nodes = front ++ n :: back ∧ index < n.ports.on side ∧ hit = shape.hitAt side n index ∧
      (∀ m ∈ front, ∀ j < m.ports.on side, shape.hitAt side m j ∈ before) ∧
      ∀ j < index, shape.hitAt side n j ∈ before := by
  obtain ⟨front, n, back, pre, post, nodes, here, rfl⟩ := Lists.exists_split_of_flatMap split
  rw [List.range_eq_range', List.map_eq_append_iff] at here
  obtain ⟨lower, upper, range, rfl, here⟩ := here
  obtain ⟨index, bound, rfl, rfl⟩ := List.range'_eq_append_iff.1 range
  obtain ⟨i, later, range, rfl, -⟩ := List.map_eq_cons_iff.1 here
  obtain ⟨rfl, left, -⟩ := List.range'_eq_cons_iff.1 range
  refine ⟨front, n, back, 0 + index * 1, nodes, by omega, rfl, fun m mem j bound => ?_, fun j bound => ?_⟩
  · refine List.mem_append_left _ (List.mem_flatMap.2 ⟨m, mem, List.mem_map.2 ⟨j, ?_, rfl⟩⟩)
    exact List.mem_range.2 bound
  · refine List.mem_append_right _ (List.mem_map.2 ⟨j, ?_, rfl⟩)
    rw [List.mem_range'_1]
    omega

/-! ## The scan -/

/-- What is known of the best candidate when the ports `seen` have been looked at. -/
inductive Leads (p : Point α) (radius : α) (seen : List (PortHit α)) : Option (α × PortHit α) → Prop
  | nobody (far : ∀ o ∈ seen, lt radius (o.anchor.distance p) = true) : Leads p radius seen none
  | leader {before after : List (PortHit α)} {hit : PortHit α} (split : seen = before ++ hit :: after)
      (within : le (hit.anchor.distance p) radius = true)
      (first : ∀ o ∈ before, lt (hit.anchor.distance p) (o.anchor.distance p) = true)
      (least : ∀ o ∈ after, le (hit.anchor.distance p) (o.anchor.distance p) = true) :
      Leads p radius seen (some (hit.anchor.distance p, hit))

variable {seen : List (PortHit α)} {best : Option (α × PortHit α)} {hit lead : PortHit α} {least : α}

theorem leads_overtaken (within : le (hit.anchor.distance p) radius = true)
    (ahead : ∀ o ∈ seen, lt (hit.anchor.distance p) (o.anchor.distance p) = true) :
    Leads p radius (seen ++ [hit]) (some (hit.anchor.distance p, hit)) :=
  .leader rfl within ahead (by simp)

theorem Leads.kept (h : Leads p radius seen (some (least, lead)))
    (behind : le least (hit.anchor.distance p) = true) : Leads p radius (seen ++ [hit]) (some (least, lead)) := by
  cases h with
  | @leader before after _ split within first later =>
      have split : seen ++ [hit] = before ++ lead :: (after ++ [hit]) := by simp [split]
      refine .leader split within first fun o mem => ?_
      rcases List.mem_append.1 mem with mem | mem
      · exact later o mem
      · obtain rfl := List.mem_singleton.1 mem
        exact behind

theorem nearer_cases (p : Point α) (radius : α) (best : Option (α × PortHit α)) (hit : PortHit α) :
    nearer p radius best hit = best ∨ nearer p radius best hit = some (hit.anchor.distance p, hit) := by
  unfold nearer
  dsimp only
  split
  · exact .inl rfl
  · cases best with
    | none => exact .inr rfl
    | some lead =>
        dsimp only
        split
        · exact .inr rfl
        · exact .inl rfl

theorem mem_or_of_foldl_nearer {ports : List (PortHit α)} {d : α}
    (found : ports.foldl (nearer p radius) best = some (d, hit)) : hit ∈ ports ∨ best = some (d, hit) := by
  induction ports generalizing best with
  | nil => exact .inr found
  | cons other rest ih =>
      rcases ih found with later | now
      · exact .inl (List.mem_cons_of_mem _ later)
      · rcases nearer_cases p radius best other with kept | won
        · exact .inr (kept.symm.trans now)
        · cases won.symm.trans now
          exact .inl List.mem_cons_self

theorem mem_of_hitTest (found : shape.hitTest g p side radius = some hit) : hit ∈ shape.portsOn g side := by
  obtain ⟨⟨d, hit⟩, best, rfl⟩ := Option.map_eq_some_iff.1 found
  exact (mem_or_of_foldl_nearer best).resolve_right nofun

variable [Ordered α]

theorem Leads.le_of_mem (h : Leads p radius seen (some (least, lead)))
    (measured : ∀ o ∈ seen, IsNumber (o.anchor.distance p)) :
    IsNumber least ∧ le least radius = true ∧ ∀ o ∈ seen, le least (o.anchor.distance p) = true := by
  cases h with
  | leader split within first later =>
      have own : IsNumber (lead.anchor.distance p) := measured lead (by simp [split])
      refine ⟨own, within, fun o mem => ?_⟩
      have other := measured o mem
      rw [split] at mem
      rcases List.mem_append.1 mem with mem | mem
      · exact le_of_lt own other (first o mem)
      · rcases List.mem_cons.1 mem with rfl | mem
        · exact own
        · exact later o mem

theorem Leads.nearer (h : Leads p radius seen best) (limit : IsNumber radius)
    (measured : ∀ o ∈ seen ++ [hit], IsNumber (o.anchor.distance p)) :
    Leads p radius (seen ++ [hit]) (nearer p radius best hit) := by
  have own : IsNumber (hit.anchor.distance p) := measured hit (by simp)
  have others : ∀ o ∈ seen, IsNumber (o.anchor.distance p) := fun o mem => measured o (by simp [mem])
  unfold NodeShape.nearer
  -- A port beyond the radius is no nearer than the leader, which is within it.
  by_cases far : lt radius (hit.anchor.distance p) = true
  · rw [if_pos far]
    cases best with
    | none =>
        cases h with
        | nobody away => exact .nobody (by simpa [or_imp, forall_and, far] using away)
    | some lead =>
        obtain ⟨number, within, -⟩ := h.le_of_mem others
        exact h.kept (le_of_lt number own (lt_of_le_of_lt number limit own within far))
  · rw [if_neg far]
    have within : le (hit.anchor.distance p) radius = true := le_of_not_lt limit own far
    cases best with
    | none =>
        cases h with
        | nobody away =>
            exact leads_overtaken within fun o mem => lt_of_le_of_lt own limit (others o mem) within (away o mem)
    | some lead =>
        obtain ⟨number, -, least⟩ := h.le_of_mem others
        by_cases ahead : lt (hit.anchor.distance p) lead.1 = true
        · simp only [ahead, if_true]
          exact leads_overtaken within fun o mem => lt_of_lt_of_le own number (others o mem) ahead (least o mem)
        · simp only [ahead]
          exact h.kept (le_of_not_lt own number ahead)

theorem Leads.foldl (h : Leads p radius seen best) (limit : IsNumber radius) {rest : List (PortHit α)}
    (measured : ∀ o ∈ seen ++ rest, IsNumber (o.anchor.distance p)) :
    Leads p radius (seen ++ rest) (rest.foldl (NodeShape.nearer p radius) best) := by
  induction rest generalizing seen best with
  | nil => simpa using h
  | cons hit rest ih =>
      rw [List.append_cons] at measured ⊢
      exact ih (h.nearer limit fun o mem => measured o (List.mem_append_left _ mem)) measured

theorem leads_portsOn (limit : IsNumber radius) (measured : shape.Measured g p side) :
    Leads p radius (shape.portsOn g side) ((shape.portsOn g side).foldl (NodeShape.nearer p radius) none) := by
  have start : Leads p radius ([] : List (PortHit α)) none := .nobody (by simp)
  exact start.foldl limit measured.portsOn

/-! ## The answer -/

theorem Leads.nearest (h : Leads p radius (shape.portsOn g side) (some (least, hit)))
    (measured : shape.Measured g p side) : shape.Nearest g p side radius hit := by
  obtain ⟨-, -, all⟩ := h.le_of_mem measured.portsOn
  cases h with
  | leader split within first =>
      obtain ⟨front, n, back, index, nodes, own, rfl, earlierNodes, earlierPorts⟩ := exists_split_portsOn split
      refine ⟨front, n, back, index, nodes, ⟨own, within, fun m mem j bound => ?_, fun j bound => ?_,
        fun m mem j bound => ?_⟩, rfl⟩
      · exact first _ (earlierNodes m mem j bound)
      · exact first _ (earlierPorts j bound)
      · exact all _ (mem_portsOn.2 ⟨m, nodes ▸ mem, j, bound, rfl⟩)

theorem nearest_or_far (limit : IsNumber radius) (measured : shape.Measured g p side) :
    (∃ hit, shape.hitTest g p side radius = some hit ∧ shape.Nearest g p side radius hit) ∨
      shape.hitTest g p side radius = none ∧
        ∀ n ∈ g.nodes, ∀ i < n.ports.on side, lt radius (shape.distanceTo p side n i) = true := by
  have scanned := leads_portsOn limit measured
  unfold hitTest
  cases best : (shape.portsOn g side).foldl (NodeShape.nearer p radius) none with
  | some lead =>
      rw [best] at scanned
      exact .inl ⟨lead.2, rfl, scanned.nearest measured⟩
  | none =>
      rw [best] at scanned
      cases scanned with
      | nobody far => exact .inr ⟨rfl, fun n own i bound => far _ (mem_portsOn.2 ⟨n, own, i, bound, rfl⟩)⟩

theorem Nearest.unique {hit' : PortHit α} (measured : shape.Measured g p side)
    (h : shape.Nearest g p side radius hit) (h' : shape.Nearest g p side radius hit') : hit = hit' := by
  obtain ⟨front, n, back, i, nodes, precedes, rfl⟩ := h
  obtain ⟨front', n', back', i', nodes', precedes', rfl⟩ := h'
  have own : IsNumber (shape.distanceTo p side n i) := measured n (by simp [nodes]) i precedes.own
  have own' : IsNumber (shape.distanceTo p side n' i') := measured n' (by simp [nodes']) i' precedes'.own
  have le := precedes.least n' (by simp [← nodes, nodes']) i' precedes'.own
  have le' := precedes'.least n (by simp [← nodes', nodes]) i precedes.own
  rcases Lists.split_cases (nodes.symm.trans nodes') with ⟨-, rfl, -⟩ | before | before
  · rcases Nat.lt_trichotomy i i' with lower | rfl | higher
    · exact absurd le (not_le_of_lt own' own (precedes'.earlierPorts i lower))
    · rfl
    · exact absurd le' (not_le_of_lt own own' (precedes.earlierPorts i' higher))
  · exact absurd le (not_le_of_lt own' own (precedes'.earlierNodes n before i precedes.own))
  · exact absurd le' (not_le_of_lt own own' (precedes.earlierNodes n' before i' precedes'.own))

theorem hitTest_eq_some_iff (limit : IsNumber radius) (measured : shape.Measured g p side) :
    shape.hitTest g p side radius = some hit ↔ shape.Nearest g p side radius hit := by
  rcases nearest_or_far limit measured with ⟨hit', found, nearest⟩ | ⟨nothing, far⟩
  · rw [found, Option.some.injEq]
    exact ⟨fun same => same ▸ nearest, fun other => nearest.unique measured other⟩
  · refine ⟨fun found => by simp [nothing] at found, fun ⟨front, n, back, i, nodes, precedes, _⟩ => ?_⟩
    have mem : n ∈ g.nodes := by simp [nodes]
    exact absurd precedes.within (not_le_of_lt limit (measured n mem i precedes.own) (far n mem i precedes.own))

theorem hitTest_eq_none_iff (limit : IsNumber radius) (measured : shape.Measured g p side) :
    shape.hitTest g p side radius = none ↔
      ∀ n ∈ g.nodes, ∀ i < n.ports.on side, ¬ le (shape.distanceTo p side n i) radius = true := by
  rcases nearest_or_far limit measured with ⟨hit, found, front, n, back, i, nodes, precedes, -⟩ | ⟨nothing, far⟩
  · refine ⟨fun missing => by simp [found] at missing, fun far => ?_⟩
    exact absurd precedes.within (far n (by simp [nodes]) i precedes.own)
  · refine ⟨fun _ n mem i own => not_le_of_lt limit (measured n mem i own) (far n mem i own), fun _ => nothing⟩

end FlowScript.NodeShape
