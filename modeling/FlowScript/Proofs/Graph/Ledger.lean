import FlowScript.Proofs.Graph.Change

/-!
# Ids given out

A ledger lists the ids that a graph has given out since it was empty, oldest first; deleted ids stay in
it. The graph keeps only a counter, but that is enough to find an id that is not in the ledger, and to
find it at the first attempt.
-/

namespace FlowScript.Graph

variable {α : Type} {g g' : Graph α} {given : List String}

/-- The counter is the one that the ledger leaves, and the ids in use are in the ledger. -/
structure Ledger (given : List String) (g : Graph α) : Prop where
  counter : g.nextNumber = NodeId.nextAfter given
  recorded : ∀ id ∈ g.ids, id ∈ given

theorem ledger_empty : Ledger [] (empty : Graph α) := ⟨rfl, by simp [empty, ids]⟩

theorem Ledger.le_last (h : g.Ledger given) : g.nextNumber ≤ NodeId.lastNumber :=
  h.counter ▸ NodeId.nextAfter_le given

theorem Ledger.fresh (h : g.Ledger given) (left : g.nextNumber < NodeId.lastNumber) :
    NodeId.ofNumber g.nextNumber ∉ given :=
  NodeId.ofNumber_not_mem (Nat.le_of_eq h.counter.symm) left

theorem Ledger.allocate (h : g.Ledger given) :
    g.allocate =
      if g.nextNumber < NodeId.lastNumber then
        (.ok (NodeId.ofNumber g.nextNumber), { g with nextNumber := g.nextNumber + 1 })
      else (.error (.idsExhausted (NodeId.ofNumber g.nextNumber)), g) := by
  rw [Graph.allocate]
  split
  · -- The ledger holds every id of the graph, so that the search ends at once.
    rename_i left
    have free : ¬ g.contains (NodeId.ofNumber g.nextNumber) = true := fun taken =>
      h.fresh left (h.recorded _ (contains_iff.1 taken))
    rw [if_neg free]
  · rfl

theorem Ledger.chooseId (h : g.Ledger given) (wished : Option String) :
    (∃ e, (Graph.chooseId wished).outcome g = (.error e, g)) ∨
      ∃ id, (Graph.chooseId wished).outcome g =
        (.ok id, { g with nextNumber := NodeId.nextAfter (given ++ [id]) }) := by
  cases wished with
  | none =>
      rw [outcome_chooseId_none, h.allocate]
      split
      · rename_i left
        refine .inr ⟨NodeId.ofNumber g.nextNumber, ?_⟩
        rw [NodeId.nextAfter_concat, ← h.counter, NodeId.past_ofNumber left]
      · exact .inl ⟨_, rfl⟩
  | some id =>
      rw [outcome_chooseId_some]
      split
      · exact .inl ⟨_, rfl⟩
      · refine .inr ⟨id, ?_⟩
        rw [NodeId.nextAfter_concat, ← h.counter, reserve_eq]

theorem Ledger.addNode (h : g.Ledger given) (catalog : Catalog) (typeName : String)
    (position : Point α) (wished : Option String) :
    (∃ e, (Graph.addNode catalog typeName position wished).outcome g = (.error e, g)) ∨
      ∃ id g', (Graph.addNode catalog typeName position wished).outcome g = (.ok id, g') ∧
        g'.Ledger (given ++ [id]) := by
  rw [outcome_addNode]
  cases catalog.find typeName with
  | error e => exact .inl ⟨e, rfl⟩
  | ok t =>
      rcases h.chooseId wished with ⟨e, failed⟩ | ⟨id, chosen⟩
      · rw [failed]
        exact .inl ⟨e, rfl⟩
      · rw [chosen]
        refine .inr ⟨id, _, rfl, rfl, ?_⟩
        intro other mem
        simp only [ids, List.map_append, List.mem_append] at mem ⊢
        rcases mem with mem | mem
        · exact .inl (h.recorded other mem)
        · exact .inr (by simpa [NodeType.newNode] using mem)

theorem Ledger.tweak (h : g.Ledger given) (t : Tweak g g') : g'.Ledger given :=
  ⟨t.nextNumber_eq.trans h.counter, fun id mem => h.recorded id (t.ids_sublist.subset mem)⟩

end FlowScript.Graph
