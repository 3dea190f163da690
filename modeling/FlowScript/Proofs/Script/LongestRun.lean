import FlowScript.Proofs.Script.Totality

/-!
# Chains as longest runs

A run lists the first successors of a node as long as they are there and differ. `Chain.isLongestRun_ofNode`: the steps
of a chain are the longest run from its root, and the chain is cut where the next successor is one of them. The root
comes among the steps only as the last one, where the chain leads back to it.
-/

namespace FlowScript

variable {α : Type} {g : Graph α}

namespace Graph

/-- These ids are the first successors of a node, one after the other, and none of them comes twice. -/
structure IsRun (g : Graph α) (start : String) (ids : List String) : Prop where
  path : ∀ i (h : i < ids.length), g.nthSuccessor? (i + 1) start = some ids[i]
  distinct : ids.Nodup

theorem IsRun.of_isPrefix {start : String} {ids longer : List String} (run : g.IsRun start longer)
    (le : ids <+: longer) : g.IsRun start ids where
  path i h := by rw [le.getElem h, run.path i (Nat.lt_of_lt_of_le h le.length_le)]
  distinct := run.distinct.sublist le.sublist

theorem nthSuccessor?_one (g : Graph α) (id : String) : g.nthSuccessor? 1 id = g.successor? id :=
  Option.bind_fun_some _

theorem successor?_eq_none {id : String} : g.successor? id = none ↔ g.outgoing id = [] := by
  rw [successor?, Option.map_eq_none_iff, firstOutgoing?, List.find?_eq_none, outgoing, List.filter_eq_nil_iff]

end Graph

namespace Chain

def lastId (c : Chain α) : String := (c.steps.map Node.id).getLastD c.root.id

/-- The steps are nodes of the graph and the longest run from the root. The chain is cut at the successor of the last
one, if there is any, and this is one of the steps. The root is a step exactly if some successor leads back to it, and
then it is the last one, and its own successor comes next. -/
structure IsLongestRun (g : Graph α) (c : Chain α) : Prop where
  among : ∀ n ∈ c.steps, n ∈ g.nodes
  few : c.steps.length ≤ g.nodes.length
  longest : ∀ ids, g.IsRun c.root.id ids ↔ ids <+: c.steps.map Node.id
  ends : c.cycleAt = none ↔ g.outgoing c.lastId = []
  next : c.cycleAt = g.successor? c.lastId
  again : ∀ id ∈ c.cycleAt, id ∈ c.steps.map Node.id
  returns : c.root.id ∈ c.steps.map Node.id ↔ ∃ k, 1 ≤ k ∧ g.nthSuccessor? k c.root.id = some c.root.id
  closes : ∀ i (h : i < c.steps.length), c.steps[i].id = c.root.id →
    i + 1 = c.steps.length ∧ c.cycleAt = g.successor? c.root.id

variable {start : String} {ids : List String} {steps : List (Node α)} {cycleAt : Option String}

theorem Succession.isRun (s : Succession g [] start steps cycleAt) : g.IsRun start (steps.map Node.id) where
  path i h := by
    rw [List.length_map] at h
    rw [List.getElem_map, s.path i h]
  distinct := s.distinct

theorem Succession.isPrefix_of_isRun (s : Succession g [] start steps cycleAt) (run : g.IsRun start ids) :
    ids <+: steps.map Node.id := by
  have agree : ∀ i (h : i < ids.length) (h' : i < steps.length), ids[i] = steps[i].id := fun i h h' =>
    Option.some.inj ((run.path i h).symm.trans (s.path i h'))
  rw [List.prefix_iff_getElem]
  have short : ids.length ≤ steps.length := by
    -- One more successor would be the one at which the chain is cut, and this one is among the steps.
    by_contra longer
    have reached := (run.path steps.length (by omega)).symm.trans s.stop
    obtain ⟨j, h, same⟩ := List.getElem_of_mem ((s.closed _ reached.symm).resolve_left List.not_mem_nil)
    rw [List.length_map] at h
    rw [List.getElem_map, ← agree j (by omega) h] at same
    have twice := run.distinct.getElem_inj_iff.1 same
    omega
  exact ⟨by rwa [List.length_map], fun i h => by rw [List.getElem_map]; exact agree i h (by omega)⟩

theorem Succession.nthSuccessor?_length (s : Succession g [] start steps cycleAt) :
    g.nthSuccessor? steps.length start = some ((steps.map Node.id).getLastD start) := by
  rcases List.eq_nil_or_concat steps with rfl | ⟨earlier, n, rfl⟩
  · rfl
  · have reached := s.path earlier.length (by simp)
    simpa using reached

theorem Succession.cycleAt_eq (s : Succession g [] start steps cycleAt) :
    cycleAt = g.successor? ((steps.map Node.id).getLastD start) := by
  rw [← s.stop, Graph.nthSuccessor?_add, s.nthSuccessor?_length, Option.bind_some, Graph.nthSuccessor?_one]

theorem Succession.closes (s : Succession g [] start steps cycleAt) {i : Nat} (h : i < steps.length)
    (home : steps[i].id = start) : i + 1 = steps.length ∧ cycleAt = g.successor? start := by
  have first : g.nthSuccessor? (i + 1 + 1) start = g.successor? start := by
    rw [Graph.nthSuccessor?_add, s.path i h, home, Option.bind_some, Graph.nthSuccessor?_one]
  have last : i + 1 = steps.length := by
    -- Otherwise the next step would be the first one again.
    by_contra inside
    have more : i + 1 < steps.length := by omega
    have least := (s.isLeast more).2 ⟨Nat.le_refl 1, by rw [Graph.nthSuccessor?_one, ← first, s.path _ more]⟩
    omega
  exact ⟨last, by rw [← s.stop, ← last, first]⟩

theorem Succession.isLongestRun {root : Node α} (s : Succession g [] root.id steps cycleAt) :
    IsLongestRun g ⟨root, steps, cycleAt⟩ where
  among := s.among
  few := s.length_le
  longest _ := ⟨s.isPrefix_of_isRun, s.isRun.of_isPrefix⟩
  ends := by
    rw [← Graph.successor?_eq_none]
    exact Eq.congr_left s.cycleAt_eq
  next := s.cycleAt_eq
  again id isCut := (s.closed id isCut).resolve_left List.not_mem_nil
  returns := s.mem_ids_iff root.id
  closes _ h := s.closes h

theorem isLongestRun_ofNode {catalog : Catalog} (h : g.Sound catalog) (root : Node α) :
    ∃ chain, ofNode g root = .ok chain ∧ chain.root = root ∧ IsLongestRun g chain := by
  obtain ⟨walk, walked⟩ := follow_ok h [] root.id
  refine ⟨⟨root, walk.1, walk.2⟩, ?_, rfl, (succession_follow walked).isLongestRun⟩
  rw [ofNode, walked]
  rfl

example :
    let node (id : String) : Node Nat := ⟨id, "Command", ⟨0, 0⟩, id, .empty, ⟨1, 1⟩⟩
    let g : Graph Nat := ⟨["tick", "log"].map node, [⟨"tick", 0, "log", 0⟩, ⟨"log", 0, "tick", 0⟩], 0⟩
    ofNode g (node "tick") = .ok ⟨node "tick", [node "log", node "tick"], some "log"⟩ := by
  decide +kernel

end Chain
end FlowScript
