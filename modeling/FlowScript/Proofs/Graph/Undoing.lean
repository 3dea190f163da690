import Mathlib.Data.List.Nodup
import FlowScript.Proofs.Graph.Soundness

namespace FlowScript.Graph
variable {α : Type} {g g' : Graph α} {catalog : Catalog} {id : String}

/-! ## Wires -/

theorem drawn_of_connect {w : Wire} (drawn : (connect w).outcome g = (.ok true, g')) :
    w ∉ g.wires ∧ g' = { g with wires := g.wires ++ [w] } := by
  rw [outcome_connect] at drawn
  cases allowed : g.checkWire w with
  | error e =>
      rw [allowed] at drawn
      cases drawn
  | ok _ =>
      rw [allowed] at drawn
      dsimp only at drawn
      split at drawn
      · cases drawn
      · rename_i new
        cases drawn
        simp only [Bool.or_eq_true, List.contains_iff_mem, not_or] at new
        exact ⟨new.2, rfl⟩

theorem outcome_disconnect_of_connect {w : Wire} (drawn : (connect w).outcome g = (.ok true, g')) :
    (disconnect w).outcome g' = (.ok true, g) := by
  obtain ⟨fresh, rfl⟩ := drawn_of_connect drawn
  have others : g.wires.filter (fun v => !decide (v = w)) = g.wires := by
    refine List.filter_eq_self.2 fun v mem => ?_
    have differs : v ≠ w := fun same => fresh (same ▸ mem)
    simpa using differs
  rw [outcome_disconnect, dropWires]
  simp [others]

structure Joined (id : String) (g g' : Graph α) : Prop where
  nodes : g'.nodes = g.nodes
  nextNumber : g'.nextNumber = g.nextNumber
  wires : ∃ drawn, g'.wires = g.wires ++ drawn ∧ ∀ w ∈ drawn, w.touches id = true

theorem Joined.refl (id : String) (g : Graph α) : Joined id g g := ⟨rfl, rfl, [], by simp⟩

theorem Joined.connect (h : Joined id g g') {w : Wire} (own : w.touches id = true) :
    Joined id g ((Graph.connect w).outcome g').2 := by
  rw [outcome_connect]
  cases g'.checkWire w with
  | error e => exact h
  | ok _ =>
      dsimp only
      split
      · exact h
      · obtain ⟨drawn, wires, touching⟩ := h.wires
        refine ⟨h.nodes, h.nextNumber, drawn ++ [w], by simp [wires], fun v mem => ?_⟩
        rcases List.mem_append.1 mem with mem | mem
        · exact touching v mem
        · exact List.mem_singleton.1 mem ▸ own

theorem Joined.ids_eq (h : Joined id g g') : g'.ids = g.ids := by rw [ids, h.nodes, ids]

theorem Joined.without_eq (h : Joined id g g') : g'.without id = g.without id := by
  obtain ⟨drawn, wires, touching⟩ := h.wires
  have gone : drawn.filter (!·.touches id) = [] := List.filter_eq_nil_iff.2 fun w mem => by simp [touching w mem]
  rw [without, without, h.nodes, h.nextNumber, wires, List.filter_append, gone, List.append_nil]

/-! ## Nodes -/

theorem Sound.without_of_free (h : g.Sound catalog) (free : id ∉ g.ids) : g.without id = g := by
  have nodes : g.nodes.filter (·.id ≠ id) = g.nodes := by
    refine List.filter_eq_self.2 fun n mem => ?_
    have differs : n.id ≠ id := fun same => free (same ▸ List.mem_map_of_mem mem)
    simpa using differs
  have wires : g.wires.filter (!·.touches id) = g.wires := by
    refine List.filter_eq_self.2 fun w mem => ?_
    obtain ⟨source, target⟩ := h.anchored w mem
    have apart : w.source ≠ id ∧ w.target ≠ id := ⟨fun same => free (same ▸ source), fun same => free (same ▸ target)⟩
    simp [Wire.touches, apart]
  rw [Graph.without, nodes, wires]

theorem without_addedLast {n : Node α} {next : Nat} :
    without { g with nodes := g.nodes ++ [n], nextNumber := next } n.id =
      { g.without n.id with nextNumber := next } := by
  simp [without, List.filter_append]

theorem filter_apart_of_split (distinct : g.ids.Nodup) {before after : List (Node α)} {n : Node α}
    (split : g.nodes = before ++ n :: after) : g.nodes.filter (·.id ≠ n.id) = before ++ after := by
  have ids_eq : g.ids = before.map Node.id ++ n.id :: after.map Node.id := by simp [ids, split]
  rw [ids_eq, List.nodup_middle, List.nodup_cons, List.mem_append, not_or] at distinct
  obtain ⟨⟨notBefore, notAfter⟩, -⟩ := distinct
  have kept {others : List (Node α)} (free : n.id ∉ others.map Node.id) :
      others.filter (·.id ≠ n.id) = others := by
    refine List.filter_eq_self.2 fun m mem => ?_
    have differs : m.id ≠ n.id := fun same => free (same ▸ List.mem_map_of_mem mem)
    simpa using differs
  rw [split, List.filter_append, List.filter_cons_of_neg (by simp), kept notBefore, kept notAfter]

end FlowScript.Graph
