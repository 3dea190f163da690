import FlowScript.Script.Bot
import FlowScript.Proofs.Result
import FlowScript.Proofs.Lists

namespace FlowScript

variable {α : Type}

/-! ## Walks in lockstep -/

theorem Graph.node?_rel {r : Node α → Node α → Prop} {g g' : Graph α} (ids : ∀ n n', r n n' → n.id = n'.id)
    (nodes : List.Forall₂ r g.nodes g'.nodes) (id : String) : Option.Rel r (g.node? id) (g'.node? id) :=
  Lists.find?_rel (fun n n' related => by rw [ids n n' related]) nodes

/-- From the ids in question on, both graphs have the same successors, and the nodes to which these lead are related,
or missing in both. -/
structure Graph.InStep (r : Node α → Node α → Prop) (known : String → Prop) (g g' : Graph α) : Prop where
  successors : ∀ id, known id → g.successor? id = g'.successor? id
  targets : ∀ id next, known id → g.successor? id = some next → Option.Rel r (g.node? next) (g'.node? next)
  closed : ∀ id n, g.node? id = some n → known id

theorem Chain.follow_eq (g : Graph α) (visited : List String) (current : String) :
    follow g visited current = match g.successor? current with
      | none => .ok ([], none)
      | some next =>
          if next ∈ visited then .ok ([], some next)
          else match g.node? next with
            | none => .error (.nodeNotFound next)
            | some n => do
                let (steps, cycleAt) ← follow g (next :: visited) next
                return (n :: steps, cycleAt) := by
  rw [follow]
  cases g.successor? current with
  | none => rfl
  | some next =>
      by_cases seen : next ∈ visited
      · simp only [seen, dif_pos, if_pos]
      · simp only [seen, dif_neg, if_neg, not_false_eq_true]
        split <;> rename_i found <;> rw [found]

namespace Graph.InStep

variable {r : Node α → Node α → Prop} {known : String → Prop} {g g' : Graph α}

theorem follow_agree (h : InStep r known g g') (visited : List String) {current : String} (start : known current) :
    Result.Agree (fun walk walk' => List.Forall₂ r walk.1 walk'.1 ∧ walk.2 = walk'.2)
      (Chain.follow g visited current) (Chain.follow g' visited current) := by
  -- The recursion is that of the first walk; each step of the second is opened by `follow_eq`.
  fun_induction Chain.follow g visited current with
  | case1 visited current last =>
      rw [Chain.follow_eq, ← h.successors current start, last]
      exact .both ⟨.nil, rfl⟩
  | case2 visited current next follows seen =>
      rw [Chain.follow_eq, ← h.successors current start, follows]
      simp only [seen, if_true]
      exact .both ⟨.nil, rfl⟩
  | case3 visited current next follows fresh missing =>
      have related := h.targets current next start follows
      rw [missing] at related
      rw [Chain.follow_eq, ← h.successors current start, follows]
      simp only [fresh, if_false]
      cases found' : g'.node? next with
      | none => exact .failed _
      | some n' =>
          rw [found'] at related
          cases related
  | case4 visited current next follows fresh n found ih =>
      have related := h.targets current next start follows
      rw [found] at related
      rw [Chain.follow_eq g', ← h.successors current start, follows]
      simp only [fresh, if_false]
      cases found' : g'.node? next with
      | none =>
          rw [found'] at related
          cases related
      | some n' =>
          rw [found'] at related
          cases related with
          | some head =>
              refine (ih (h.closed next n found)).bind ?_
              rintro ⟨steps, cycleAt⟩ ⟨steps', cycleAt'⟩ ⟨later, sameCut⟩
              exact .both ⟨.cons head later, sameCut⟩

theorem ofNode_agree (h : InStep r known g g') {root root' : Node α} (start : known root.id)
    (same : root.id = root'.id) :
    Result.Agree (fun c c' => c.root = root ∧ c'.root = root' ∧ List.Forall₂ r c.steps c'.steps ∧
      c.cycleAt = c'.cycleAt) (Chain.ofNode g root) (Chain.ofNode g' root') := by
  rw [Chain.ofNode, Chain.ofNode, ← same]
  refine (h.follow_agree [] start).bind ?_
  rintro ⟨steps, cycleAt⟩ ⟨steps', cycleAt'⟩ ⟨related, sameCut⟩
  exact .both ⟨rfl, rfl, related, sameCut⟩

theorem ofNode_eq (h : InStep (· = ·) known g g') {root : Node α} (start : known root.id) :
    Chain.ofNode g root = Chain.ofNode g' root := by
  refine Result.Agree.eq ((h.ofNode_agree start rfl).imp ?_)
  rintro ⟨root', steps, cycleAt⟩ ⟨root'', steps', cycleAt'⟩ ⟨sameRoot, sameRoot', related, sameCut⟩
  rw [List.forall₂_eq_eq_eq] at related
  exact congr (congrArg₂ Chain.mk (sameRoot.trans sameRoot'.symm) related) sameCut

end Graph.InStep

/-! ## The counter -/

theorem Graph.inStep_counter (g : Graph α) (k : Nat) :
    InStep (· = ·) (fun _ => True) { g with nextNumber := k } g where
  successors _ _ := rfl
  targets _ next _ _ := node?_rel (fun _ _ => congrArg Node.id) (List.forall₂_refl _) next
  closed _ _ _ := trivial

theorem Chain.ofNode_counter (g : Graph α) (k : Nat) :
    ofNode { g with nextNumber := k } = ofNode g := by
  funext root
  exact (g.inStep_counter k).ofNode_eq trivial

theorem Diagnostic.analyze_counter (g : Graph α) (k : Nat) (catalog : Catalog) :
    analyze { g with nextNumber := k } catalog = analyze g catalog := by
  rw [analyze, analyze, Chain.ofNode_counter]
  rfl

namespace Script

theorem handler_counter (g : Graph α) (k : Nat) (debug : Bool) (catalog : Catalog) :
    handler debug { g with nextNumber := k } catalog = handler debug g catalog := by
  funext root name
  rw [handler, handler, Chain.ofNode_counter]

theorem compile_counter (g : Graph α) (k : Nat) (o : Options) (catalog : Catalog) :
    compile o { g with nextNumber := k } catalog = compile o g catalog := by
  simp only [compile, blocks, handler_counter, Diagnostic.analyze_counter]
  rfl

end Script
end FlowScript
