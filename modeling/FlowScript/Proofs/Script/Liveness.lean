import FlowScript.Proofs.Script.Dependence
import FlowScript.Proofs.Script.Reference

/-!
# Live nodes

A node is live if it is an event or if the iterated successors of an event come to it. A script is made of live
nodes only: sound graphs with the same events, and with the same nodes and successors as far as these are live,
compile to the same text (`Script.compile_of_sameLive`).
-/

namespace FlowScript

variable {α : Type} {g g' : Graph α} {catalog : Catalog} {id : String}

namespace Graph

/-- Some number of steps along oldest outgoing wires, perhaps none, leads from an event to the id. -/
def Live (g : Graph α) (catalog : Catalog) (id : String) : Prop :=
  ∃ root ∈ g.nodes, Script.isEvent catalog root ∧ ∃ k, g.nthSuccessor? k root.id = some id

theorem live_of_event {n : Node α} (mem : n ∈ g.nodes) (event : Script.isEvent catalog n) :
    g.Live catalog n.id :=
  ⟨n, mem, event, 0, rfl⟩

theorem Live.nthSuccessor? (h : g.Live catalog id) {k : Nat} {later : String}
    (reached : g.nthSuccessor? k id = some later) : g.Live catalog later := by
  obtain ⟨root, mem, event, j, found⟩ := h
  refine ⟨root, mem, event, j + k, ?_⟩
  rw [nthSuccessor?_add, found, Option.bind_some, reached]

theorem Live.successor? (h : g.Live catalog id) {next : String} (follows : g.successor? id = some next) :
    g.Live catalog next :=
  h.nthSuccessor? (k := 1) (by simp [Graph.nthSuccessor?, follows])

/-! ## Graphs that are alike where they are live -/

structure SameLive (catalog : Catalog) (g g' : Graph α) : Prop where
  events : g'.nodes.filter (Script.isEvent catalog) = g.nodes.filter (Script.isEvent catalog)
  nodes : ∀ n, g.Live catalog n.id → (n ∈ g'.nodes ↔ n ∈ g.nodes)
  successors : ∀ id, g.Live catalog id → g'.successor? id = g.successor? id

theorem SameLive.nthSuccessor?_eq (same : SameLive catalog g g') (live : g.Live catalog id) (k : Nat) :
    g'.nthSuccessor? k id = g.nthSuccessor? k id := by
  induction k generalizing id with
  | zero => rfl
  | succ k ih =>
      rw [nthSuccessor?, nthSuccessor?, same.successors id live]
      exact Option.bind_congr fun next follows => ih (live.successor? follows)

theorem SameLive.visits_eq (same : SameLive catalog g g') (live : g.Live catalog id) :
    g'.visits id = g.visits id := by
  funext later
  simp only [visits, same.nthSuccessor?_eq live]

end Graph

namespace Script

theorem Inlined.ofSameLive (same : Graph.SameLive catalog g g') {root : Node α} {nodes : List (Node α)}
    (live : g.Live catalog root.id) (h : Inlined g catalog root nodes) : Inlined g' catalog root nodes := by
  constructor
  case mem_iff =>
    intro n
    rw [h.mem_iff, same.visits_eq live]
    refine ⟨fun ⟨mem, visited, body⟩ => ⟨?_, visited, body⟩, fun ⟨mem, visited, body⟩ => ⟨?_, visited, body⟩⟩
    all_goals
      obtain ⟨k, -, reached⟩ := visited
      have liveNode := live.nthSuccessor? reached
    · exact (same.nodes n liveNode).2 mem
    · exact (same.nodes n liveNode).1 mem
  case ordered =>
    rw [same.visits_eq live]
    exact h.ordered

theorem IsSource.ofSameLive (same : Graph.SameLive catalog g g') {o : Options} {source : String}
    (h : IsSource o g catalog source) : IsSource o g' catalog source := by
  obtain ⟨sections, sameLength, each, text⟩ := h
  rw [IsSource, same.events]
  refine ⟨sections, sameLength, ?_, text⟩
  have related := (List.forall₂_and_left (p := fun part : Node α × String =>
    part.1 ∈ g.nodes.filter (isEvent catalog)) _ _).2 ⟨fun part mem => (List.of_mem_zip mem).1, each⟩
  refine related.imp fun part lines ⟨mem, nodes, inlined, written⟩ => ?_
  obtain ⟨mem, event⟩ := List.mem_filter.1 mem
  exact ⟨nodes, inlined.ofSameLive same (Graph.live_of_event mem event), written⟩

theorem hash_of_compile {o : Options} {bot : Bot} (compiled : compile o g catalog = .ok bot) :
    bot.hash = Sha256.hex bot.source := by
  obtain ⟨roots, -, afterRoots⟩ := Result.bind_eq_ok.1 compiled
  obtain ⟨lines, -, afterLines⟩ := Result.bind_eq_ok.1 afterRoots
  obtain ⟨warnings, -, result⟩ := Result.bind_eq_ok.1 afterLines
  cases result
  rfl

theorem analyze_of_compile {o : Options} {bot : Bot} (compiled : compile o g catalog = .ok bot) :
    Diagnostic.analyze g catalog = .ok bot.diagnostics := by
  obtain ⟨roots, -, afterRoots⟩ := Result.bind_eq_ok.1 compiled
  obtain ⟨lines, -, afterLines⟩ := Result.bind_eq_ok.1 afterRoots
  obtain ⟨warnings, analyzed, result⟩ := Result.bind_eq_ok.1 afterLines
  cases result
  exact analyzed

theorem compile_of_sameLive (h : g.Sound catalog) (h' : g'.Sound catalog)
    (same : Graph.SameLive catalog g g') (o : Options) :
    ∃ bot bot', compile o g catalog = .ok bot ∧ compile o g' catalog = .ok bot' ∧ bot.SameScript bot' := by
  obtain ⟨bot, compiled⟩ := compile_ok h o
  obtain ⟨bot', compiled'⟩ := compile_ok h' o
  obtain ⟨meets, handlers⟩ := isSource_of_compile h compiled
  have source : bot.source = bot'.source := (isSource_iff h' compiled' _).1 (meets.ofSameLive same)
  refine ⟨bot, bot', compiled, compiled', source, ?_, ?_⟩
  · rw [hash_of_compile compiled, hash_of_compile compiled', source]
  · rw [handlers, (isSource_of_compile h' compiled').2, List.countP_eq_length_filter,
      List.countP_eq_length_filter, same.events]

end Script
end FlowScript
