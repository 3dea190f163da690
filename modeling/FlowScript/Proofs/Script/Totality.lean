import FlowScript.Script.Bot
import FlowScript.Proofs.Graph.Soundness
import FlowScript.Proofs.Script.Succession

namespace FlowScript

variable {α : Type} {g : Graph α} {catalog : Catalog}

namespace Graph

theorem Sound.find_ok (h : g.Sound catalog) {n : Node α} (mem : n ∈ g.nodes) :
    ∃ t, catalog.find n.typeName = .ok t :=
  Catalog.find_of_mem (h.typed n mem)

theorem Sound.node?_successor (h : g.Sound catalog) {id next : String}
    (follows : g.successor? id = some next) : ∃ n, g.node? next = some n := by
  obtain ⟨w, first, rfl⟩ := Option.map_eq_some_iff.1 follows
  obtain ⟨n, found⟩ := node_of_mem (h.anchored w (List.mem_of_find?_eq_some first)).2
  unfold Graph.node at found
  split at found
  · rename_i m found?
    exact ⟨m, found?⟩
  · cases found

end Graph

namespace Chain

theorem events_ok {nodes : List (Node α)} (known : ∀ n ∈ nodes, ∃ t, catalog.find n.typeName = .ok t) :
    ∃ roots, events catalog nodes = .ok roots ∧ ∀ n ∈ roots, n ∈ nodes := by
  induction nodes with
  | nil => exact ⟨[], rfl, by simp⟩
  | cons n rest ih =>
      obtain ⟨t, found⟩ := known n (by simp)
      obtain ⟨roots, later, among⟩ := ih fun m mem => known m (by simp [mem])
      refine ⟨if t.isEvent then n :: roots else roots, ?_, fun m mem => ?_⟩
      · rw [events, found, later]
        rfl
      · split at mem
        · rcases List.mem_cons.1 mem with rfl | mem
          · simp
          · exact List.mem_cons_of_mem n (among m mem)
        · exact List.mem_cons_of_mem n (among m mem)

theorem roots_ok (h : g.Sound catalog) :
    ∃ roots, Chain.roots g catalog = .ok roots ∧ ∀ n ∈ roots, n ∈ g.nodes :=
  events_ok fun _ mem => h.find_ok mem

theorem follow_ok (h : g.Sound catalog) (visited : List String) (current : String) :
    ∃ walk, follow g visited current = .ok walk := by
  fun_induction follow g visited current with
  | case1 visited current last => exact ⟨_, rfl⟩
  | case2 visited current next follows seen => exact ⟨_, rfl⟩
  | case3 visited current next follows fresh missing =>
      -- The only failure of a step is a wire that leads nowhere.
      obtain ⟨n, found⟩ := h.node?_successor follows
      rw [missing] at found
      cases found
  | case4 visited current next follows fresh n found ih =>
      obtain ⟨walk, later⟩ := ih
      exact Result.bind_ok later ⟨_, rfl⟩

theorem ofNode_ok (h : g.Sound catalog) (root : Node α) : ∃ chain, ofNode g root = .ok chain := by
  obtain ⟨walk, walked⟩ := follow_ok h [] root.id
  exact Result.bind_ok walked ⟨_, rfl⟩

end Chain

namespace Diagnostic

theorem missing_ok {nodes : List (Node α)} (known : ∀ n ∈ nodes, ∃ t, catalog.find n.typeName = .ok t) :
    ∃ warnings, missing catalog nodes = .ok warnings := by
  induction nodes with
  | nil => exact ⟨[], rfl⟩
  | cons n rest ih =>
      obtain ⟨t, found⟩ := known n (by simp)
      obtain ⟨later, rest_ok⟩ := ih fun m mem => known m (by simp [mem])
      rw [missing, found, rest_ok]
      exact ⟨_, rfl⟩

theorem analyze_ok (h : g.Sound catalog) : ∃ warnings, analyze g catalog = .ok warnings := by
  obtain ⟨roots, events, -⟩ := Chain.roots_ok h
  obtain ⟨chains, walked⟩ := Result.mapM_ok fun root (_ : root ∈ roots) => Chain.ofNode_ok h root
  obtain ⟨missing, gaps⟩ := missing_ok fun n (mem : n ∈ g.nodes) => h.find_ok mem
  exact Result.bind_ok events (Result.bind_ok walked (Result.bind_ok gaps ⟨_, rfl⟩))

end Diagnostic

namespace Script

theorem steps_ok (debug : Bool) {nodes : List (Node α)}
    (known : ∀ n ∈ nodes, ∃ t, catalog.find n.typeName = .ok t) :
    ∃ lines, steps debug catalog nodes = .ok lines := by
  induction nodes with
  | nil => exact ⟨[], rfl⟩
  | cons n rest ih =>
      obtain ⟨t, found⟩ := known n (by simp)
      obtain ⟨later, rest_ok⟩ := ih fun m mem => known m (by simp [mem])
      rw [steps, found, rest_ok]
      exact ⟨_, rfl⟩

theorem handler_ok (h : g.Sound catalog) (debug : Bool) {root : Node α} (mem : root ∈ g.nodes)
    (name : String) : ∃ lines, handler debug g catalog root name = .ok lines := by
  obtain ⟨t, found⟩ := h.find_ok mem
  obtain ⟨chain, walked⟩ := Chain.ofNode_ok h root
  have among : ∀ n ∈ chain.steps, n ∈ g.nodes := (Chain.succession_ofNode walked).among
  obtain ⟨lines, inlined⟩ := steps_ok debug fun n mem => h.find_ok (among n mem)
  exact Result.bind_ok found (Result.bind_ok walked (Result.bind_ok inlined ⟨_, rfl⟩))

theorem blocks_ok (h : g.Sound catalog) (o : Options) {roots : List (Node α)}
    (among : ∀ n ∈ roots, n ∈ g.nodes) : ∃ lines, blocks o g catalog roots = .ok lines := by
  have each : ∀ part ∈ roots.zip (handlerNames o.settings [] (roots.map Node.id)),
      ∃ lines, handler o.debug g catalog part.1 part.2 = .ok lines := by
    intro part mem
    exact handler_ok h o.debug (among part.1 (List.of_mem_zip mem).1) part.2
  obtain ⟨sections, written⟩ := Result.mapM_ok each
  exact Result.bind_ok written ⟨_, rfl⟩

theorem compile_ok (h : g.Sound catalog) (o : Options) : ∃ bot, compile o g catalog = .ok bot := by
  obtain ⟨roots, events, among⟩ := Chain.roots_ok h
  obtain ⟨lines, written⟩ := blocks_ok h o among
  obtain ⟨warnings, checked⟩ := Diagnostic.analyze_ok h
  exact Result.bind_ok events (Result.bind_ok written (Result.bind_ok checked ⟨_, rfl⟩))

end Script
end FlowScript
