import Mathlib.Data.List.Sort
import Mathlib.Order.Bounds.Basic
import FlowScript.Script.Chain
import FlowScript.Proofs.Result

/-!
# Chains and iterated successors

The oldest outgoing wire makes the successor a function on ids, and `Graph.nthSuccessor?` iterates it. A chain
lists these iterates up to the first one that is missing or comes back (`Chain.Succession`), so that its steps
are exactly the nodes that some iterate reaches, in the order in which they are reached first.
-/

namespace FlowScript

variable {α : Type} {g : Graph α}

namespace Graph

def nthSuccessor? (g : Graph α) : Nat → String → Option String
  | 0, id => some id
  | k + 1, id => (g.successor? id).bind (g.nthSuccessor? k)

theorem nthSuccessor?_add (j k : Nat) (id : String) :
    g.nthSuccessor? (j + k) id = (g.nthSuccessor? j id).bind (g.nthSuccessor? k) := by
  induction j generalizing id with
  | zero => rw [Nat.zero_add, nthSuccessor?, Option.bind_some]
  | succ j ih =>
      rw [Nat.succ_add, nthSuccessor?, nthSuccessor?, Option.bind_assoc]
      exact Option.bind_congr fun next _ => ih next

def visits (g : Graph α) (start id : String) : Set Nat := {k | 1 ≤ k ∧ g.nthSuccessor? k start = some id}

def Endless (g : Graph α) (start : String) : Prop := ∀ k, (g.nthSuccessor? k start).isSome

/-- Of the ids that the successors of a node come to more than once, it is the one that they come to first,
and they come to no other one a second time before it. -/
def FirstRepeated (g : Graph α) (start id : String) : Prop :=
  ∃ j k, j < k ∧ j ∈ g.visits start id ∧ k ∈ g.visits start id ∧
    ∀ other j' k', j' < k' → j' ∈ g.visits start other → k' ∈ g.visits start other → j ≤ j' ∧ k ≤ k'

end Graph

namespace Chain

/-- The steps of a walk and the id at which it was cut: the steps are different nodes, not visited before, that
the iterated successors of the start name one after the other, and the next iterate is visited already, if there
is one. -/
structure Succession (g : Graph α) (visited : List String) (start : String) (steps : List (Node α))
    (cycleAt : Option String) : Prop where
  path : ∀ i (h : i < steps.length), g.nthSuccessor? (i + 1) start = some steps[i].id
  among : ∀ n ∈ steps, n ∈ g.nodes
  fresh : ∀ n ∈ steps, n.id ∉ visited
  distinct : (steps.map Node.id).Nodup
  stop : g.nthSuccessor? (steps.length + 1) start = cycleAt
  closed : ∀ id, cycleAt = some id → id ∈ visited ∨ id ∈ steps.map Node.id

variable {visited : List String} {start next : String} {steps : List (Node α)} {cycleAt : Option String}

theorem Succession.last (last : g.successor? start = none) :
    Succession g visited start [] none where
  path i h := absurd h (Nat.not_lt_zero i)
  among := by simp
  fresh := by simp
  distinct := List.nodup_nil
  stop := by simp [Graph.nthSuccessor?, last]
  closed := by simp

theorem Succession.cut (follows : g.successor? start = some next) (seen : next ∈ visited) :
    Succession g visited start [] (some next) where
  path i h := absurd h (Nat.not_lt_zero i)
  among := by simp
  fresh := by simp
  distinct := List.nodup_nil
  stop := by simp [Graph.nthSuccessor?, follows]
  closed id isNext := .inl (Option.some.inj isNext ▸ seen)

theorem Succession.cons {n : Node α} (follows : g.successor? start = some next) (unseen : next ∉ visited)
    (found : g.node? next = some n) (later : Succession g (next :: visited) next steps cycleAt) :
    Succession g visited start (n :: steps) cycleAt := by
  have same : n.id = next := by simpa using List.find?_some found
  constructor
  case path =>
    intro i h
    rw [Graph.nthSuccessor?, follows, Option.bind_some]
    cases i with
    | zero => simp [Graph.nthSuccessor?, same]
    | succ i => exact later.path i (Nat.lt_of_succ_lt_succ h)
  case among =>
    rw [List.forall_mem_cons]
    exact ⟨List.mem_of_find?_eq_some found, later.among⟩
  case fresh =>
    rw [List.forall_mem_cons]
    exact ⟨same ▸ unseen, fun m mem seen => later.fresh m mem (List.mem_cons_of_mem next seen)⟩
  case distinct =>
    rw [List.map_cons, List.nodup_cons, same]
    refine ⟨fun again => ?_, later.distinct⟩
    obtain ⟨m, mem, isNext⟩ := List.mem_map.1 again
    exact later.fresh m mem (isNext ▸ List.mem_cons_self)
  case stop =>
    rw [Graph.nthSuccessor?, follows, Option.bind_some]
    exact later.stop
  -- The next id counted as visited for the later steps; here it is a step.
  case closed =>
    intro id isCut
    rw [List.map_cons, same]
    rcases later.closed id isCut with seen | among
    · rcases List.mem_cons.1 seen with rfl | seen
      · exact .inr List.mem_cons_self
      · exact .inl seen
    · exact .inr (List.mem_cons_of_mem next among)

theorem succession_follow (walked : follow g visited start = .ok (steps, cycleAt)) :
    Succession g visited start steps cycleAt := by
  fun_induction follow g visited start generalizing steps cycleAt with
  | case1 visited start last =>
      cases walked
      exact .last last
  | case2 visited start next follows seen =>
      cases walked
      exact .cut follows seen
  | case3 => cases walked
  | case4 visited start next follows unseen n found ih =>
      obtain ⟨rest, later, whole⟩ := Result.bind_eq_ok.1 walked
      cases whole
      exact .cons follows unseen found (ih later)

theorem succession_ofNode {root : Node α} {chain : Chain α} (walked : ofNode g root = .ok chain) :
    Succession g [] root.id chain.steps chain.cycleAt := by
  obtain ⟨rest, followed, whole⟩ := Result.bind_eq_ok.1 walked
  cases whole
  exact succession_follow followed

theorem root_of_ofNode {root : Node α} {chain : Chain α} (walked : ofNode g root = .ok chain) : chain.root = root := by
  obtain ⟨walk, -, whole⟩ := Result.bind_eq_ok.1 walked
  cases whole
  rfl

/-! ## What the steps are -/

theorem Succession.length_le (s : Succession g visited start steps cycleAt) :
    steps.length ≤ g.nodes.length :=
  (List.subperm_of_subset s.distinct.of_map s.among).length_le

theorem Succession.returns {again : String} (s : Succession g [] start steps (some again)) :
    ∃ i, ∃ h : i < steps.length, steps[i].id = again ∧
      ∀ k, i < k → ∃ m, ∃ h : m < steps.length, i ≤ m ∧ g.nthSuccessor? k start = some steps[m].id := by
  have back : again ∈ steps.map Node.id := by simpa using s.closed again rfl
  obtain ⟨i, h, same⟩ := List.getElem_of_mem back
  rw [List.length_map] at h
  rw [List.getElem_map] at same
  refine ⟨i, h, same, fun k past => ?_⟩
  induction k using Nat.strongRecOn with
  | ind k ih =>
      obtain ⟨j, rfl⟩ := Nat.exists_eq_add_of_le' (Nat.one_le_of_lt past)
      by_cases inside : j < steps.length
      · exact ⟨j, inside, by omega, s.path j inside⟩
      · obtain ⟨rest, rfl⟩ := Nat.exists_eq_add_of_le (Nat.le_of_not_lt inside)
        obtain ⟨m, hm, later, reached⟩ := ih (i + 1 + rest) (by omega) (by omega)
        refine ⟨m, hm, later, ?_⟩
        rw [Nat.add_right_comm, Graph.nthSuccessor?_add, s.stop, ← reached, Graph.nthSuccessor?_add, s.path i h,
          same]

theorem Succession.mem_of_nthSuccessor? (s : Succession g [] start steps cycleAt) (k : Nat) {id : String}
    (reached : g.nthSuccessor? (k + 1) start = some id) : id ∈ steps.map Node.id := by
  by_cases inside : k < steps.length
  · rw [s.path k inside, Option.some.injEq] at reached
    exact List.mem_map.2 ⟨steps[k], List.getElem_mem inside, reached⟩
  · cases cycleAt with
    | none =>
        obtain ⟨rest, rfl⟩ := Nat.exists_eq_add_of_le (Nat.le_of_not_lt inside)
        rw [Nat.add_right_comm, Graph.nthSuccessor?_add, s.stop] at reached
        cases reached
    | some again =>
        obtain ⟨i, h, -, returns⟩ := s.returns
        obtain ⟨m, hm, -, found⟩ := returns (k + 1) (by omega)
        rw [found, Option.some.injEq] at reached
        exact List.mem_map.2 ⟨steps[m], List.getElem_mem hm, reached⟩

theorem Succession.mem_ids_iff (s : Succession g [] start steps cycleAt) (id : String) :
    id ∈ steps.map Node.id ↔ (g.visits start id).Nonempty := by
  constructor
  · intro mem
    obtain ⟨i, h, rfl⟩ := List.getElem_of_mem mem
    rw [List.length_map] at h
    exact ⟨i + 1, by omega, by rw [List.getElem_map, s.path i h]⟩
  · rintro ⟨k, positive, reached⟩
    obtain ⟨j, rfl⟩ := Nat.exists_eq_add_of_le' positive
    exact s.mem_of_nthSuccessor? j reached

theorem Succession.isLeast (s : Succession g visited start steps cycleAt) {i : Nat} (h : i < steps.length) :
    IsLeast (g.visits start steps[i].id) (i + 1) := by
  refine ⟨⟨by omega, s.path i h⟩, ?_⟩
  rintro k ⟨positive, reached⟩
  by_contra earlier
  obtain ⟨j, rfl⟩ := Nat.exists_eq_add_of_le' positive
  have inside : j < steps.length := by omega
  have sameId : steps[j].id = steps[i].id := by
    rw [s.path j inside] at reached
    exact Option.some.inj reached
  have sameIndex : j = i := by
    apply (List.getElem?_inj (by rwa [List.length_map]) s.distinct).1
    rw [List.getElem?_map, List.getElem?_map, List.getElem?_eq_getElem inside,
      List.getElem?_eq_getElem h, Option.map_some, Option.map_some, sameId]
  omega

theorem Succession.ordered (s : Succession g visited start steps cycleAt) :
    steps.Pairwise fun m n => ∃ j k, IsLeast (g.visits start m.id) j ∧
      IsLeast (g.visits start n.id) k ∧ j < k := by
  rw [List.pairwise_iff_getElem]
  intro i j hi hj less
  exact ⟨i + 1, j + 1, s.isLeast hi, s.isLeast hj, by omega⟩

/-! ## Where a chain is cut -/

theorem Succession.endless_iff (s : Succession g [] start steps cycleAt) :
    g.Endless start ↔ cycleAt.isSome := by
  constructor
  · intro endless
    rw [← s.stop]
    exact endless _
  · intro isCut k
    obtain ⟨again, rfl⟩ := Option.isSome_iff_exists.1 isCut
    obtain ⟨i, h, -, returns⟩ := s.returns
    rcases Nat.lt_or_ge i k with past | before
    · obtain ⟨m, hm, -, found⟩ := returns k past
      rw [found, Option.isSome_some]
    · cases k with
      | zero => rfl
      | succ j => rw [s.path j (by omega), Option.isSome_some]

theorem Succession.firstRepeated {again : String} (s : Succession g [] start steps (some again)) :
    g.FirstRepeated start again := by
  obtain ⟨i, h, same, returns⟩ := s.returns
  refine ⟨i + 1, steps.length + 1, by omega, ⟨by omega, by rw [s.path i h, same]⟩, ⟨by omega, s.stop⟩, ?_⟩
  intro other j' k' less first second
  obtain ⟨j, rfl⟩ := Nat.exists_eq_add_of_le' first.1
  obtain ⟨k, rfl⟩ := Nat.exists_eq_add_of_le' second.1
  -- The steps are different nodes, so a second visit comes after them.
  have outside : steps.length ≤ k := by
    by_contra inside
    have inside : k < steps.length := Nat.lt_of_not_le inside
    have reached := second.2
    rw [s.path k inside, Option.some.injEq] at reached
    have least := (s.isLeast inside).2 (reached ▸ first)
    omega
  refine ⟨?_, by omega⟩
  by_contra earlier
  obtain ⟨m, hm, later, found⟩ := returns (k + 1) (by omega)
  have reached := second.2
  rw [found, Option.some.injEq] at reached
  have least := (s.isLeast hm).2 (reached ▸ first)
  omega

end Chain
end FlowScript
