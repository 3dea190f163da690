import FlowScript.Catalog.Builtin
import FlowScript.Proofs.Script.NewNode
import FlowScript.Proofs.Script.NodeMap
import FlowScript.Proofs.Session.Compilation

namespace FlowScript.Session

variable {α : Type} [Scalar α]

/-- With a new value of a property, the script consists of the same blocks with the node altered in them, and has the
same handlers, names and warnings. A block reads differently only if it is a header or a body of the node, and
its template has the placeholder of the property. -/
theorem script_after_property (catalog : Catalog) (shape : NodeShape α) (history : List (Operation α))
    (id key value : String) (n : Node α) (o : Script.Options) :
    let s := (Session.new catalog shape).after history
    let t := (Operation.setProperty id key value).next s
    let revalued : Block α → Block α := Block.map (Node.withProperty id key value)
    s.graph.node id = .ok n → n.properties.contains key = true →
      (Operation.setProperty id key value).run.outcome s = (.ok .done, t) ∧
        ∃ blocks bot bot', Script.Assembled o s.graph s.catalog blocks bot ∧
          Script.Assembled o t.graph t.catalog (blocks.map revalued) bot' ∧
          (∀ b ∈ blocks, (revalued b).text ≠ b.text → ∃ template, key ∈ Template.keys template ∧
            ((∃ name, b = .header n name template) ∧
                Script.template? s.catalog NodeType.header n = some template ∨
              b = .body n template ∧ Script.template? s.catalog NodeType.body n = some template)) ∧
          Script.eventNames o t.graph t.catalog = Script.eventNames o s.graph s.catalog ∧
          bot'.handlers = bot.handlers ∧ bot'.diagnostics = bot.diagnostics := by
  intro s t revalued found has
  have sound : s.graph.Sound s.catalog := sound_own catalog shape history
  have changed := Graph.outcome_setProperty sound value found has
  have same_catalog : t.catalog = s.catalog := (Operation.next_frame _ s).1
  have graph : t.graph = s.graph.mapNodes (Node.withProperty id key value) := by
    simp only [t, Operation.next, Operation.run, graph_onGraph, changed]
  have ended : (Operation.setProperty id key value).run.outcome s = (.ok .done, t) := by
    refine Prod.ext ?_ rfl
    rw [Operation.run, Edit.outcome_map, outcome_onGraph, changed]
    rfl
  have keeps : Node.Keeps (Node.withProperty id key value : Node α → Node α) :=
    Node.keeps_withProperty id key value
  obtain ⟨blocks, bot, bot', assembled, assembled', names, warnings⟩ := keeps.assembled sound o
  rw [same_catalog, graph]
  refine ⟨ended, blocks, bot, bot', assembled, assembled', fun b mem differs => ?_, names, ?_, warnings⟩
  · obtain ⟨m, template, rendered, isNode, hasKey⟩ := Block.text_withProperty differs
    obtain ⟨own, source⟩ := (assembled.stems b mem).source rendered
    obtain rfl : m = n := List.inj_on_of_nodup_map sound.distinct own (Graph.node_ok found).1
      (isNode.trans (Graph.node_ok found).2.symm)
    exact ⟨template, hasKey, source⟩
  · rw [assembled'.handlers_eq, assembled.handlers_eq, names]

theorem script_after_new_text :
    let s := (Session.new Catalog.builtin (.standard : NodeShape Float)).after
      [.addNode "Command" ⟨0, 0⟩ (some "a"), .addNode "Print Console" ⟨0, 0⟩ (some "b"), .connect ⟨"a", 0, "b", 0⟩]
    let t := (Operation.setProperty "b" "text" "bye").next s
    (Operation.setProperty "b" "text" "bye").run.outcome s = (.ok .done, t) ∧
      ∃ blocks bot bot', Script.Assembled {} s.graph s.catalog blocks bot ∧
        Script.Assembled {} t.graph t.catalog (blocks.map (Block.map (Node.withProperty "b" "text" "bye"))) bot' ∧
        bot'.handlers = bot.handlers ∧ bot'.diagnostics = bot.diagnostics := by
  intro s t
  have known : "b" ∈ s.graph.ids := by decide +kernel
  obtain ⟨n, found⟩ := Graph.node_of_mem known
  have has : n.properties.contains "text" = true := by
    have all : ∀ n ∈ s.graph.nodes, n.id = "b" → n.properties.contains "text" = true := by decide +kernel
    exact all n (Graph.node_ok found).1 (Graph.node_ok found).2
  obtain ⟨ended, blocks, bot, bot', assembled, assembled', -, -, handlers, warnings⟩ :=
    script_after_property Catalog.builtin .standard _ "b" "text" "bye" n {} found has
  exact ⟨ended, blocks, bot, bot', assembled, assembled', handlers, warnings⟩

/-- With a new node, the old blocks stay as they are and where they are. A new action adds nothing to the script, a
new event its header, if it has one, and an empty line before the closing line. -/
theorem script_after_addition (catalog : Catalog) (shape : NodeShape α) (history : List (Operation α))
    (typeName : String) (position : Point α) (wished : Option String) (id : String) (t : Session α)
    (o : Script.Options) :
    let s := (Session.new catalog shape).after history
    (Operation.addNode typeName position wished).run.outcome s = (.ok (.id id), t) →
      ∃ type blocks bot bot', s.catalog.find typeName = .ok type ∧
        Script.Assembled o s.graph s.catalog (blocks ++ [.line (Script.closing o.settings)]) bot ∧
        (type.isEvent = false →
          Script.Assembled o t.graph t.catalog (blocks ++ [.line (Script.closing o.settings)]) bot' ∧
            Script.eventNames o t.graph t.catalog = Script.eventNames o s.graph s.catalog ∧ bot.SameScript bot') ∧
        (type.isEvent = true → ∃ name,
          Script.Assembled o t.graph t.catalog
              (blocks ++ (type.header.toList.map (.header (type.newNode id position) name) ++
                [.line "", .line (Script.closing o.settings)])) bot' ∧
            Script.eventNames o t.graph t.catalog = Script.eventNames o s.graph s.catalog ++ [name] ∧
            bot'.handlers = bot.handlers + 1) := by
  intro s added
  have sound : s.graph.Sound s.catalog := sound_own catalog shape history
  rw [Operation.run, Edit.outcome_map, outcome_addNode] at added
  rcases Graph.addNode_cases s.catalog typeName position wished s.graph with
    ⟨e, next, failed⟩ | ⟨type, own, next, known, free, grown⟩
  · rw [failed] at added
    cases added
  · rw [grown] at added
    cases added
    have of_type : s.catalog.find (type.newNode id position).typeName = .ok type := by
      rw [← known]
      exact congrArg _ (Catalog.find_ok known).2
    obtain ⟨blocks, bot, bot', assembled, action, event⟩ := Script.assembled_addedLast sound of_type free next o
    refine ⟨type, blocks, bot, bot', known, assembled, fun kind => ?_, fun kind => ?_⟩
    · obtain ⟨assembled', names⟩ := action kind
      exact ⟨assembled', names, assembled.sameScript assembled' names⟩
    · obtain ⟨name, assembled', names⟩ := event kind
      refine ⟨name, assembled', names, ?_⟩
      rw [assembled'.handlers_eq, assembled.handlers_eq, names, List.length_append, List.length_singleton]

theorem script_after_second_command :
    let s := (Session.new Catalog.builtin (.standard : NodeShape Float)).after
      [.addNode "Command" ⟨0, 0⟩ (some "a-b"), .addNode "Print Console" ⟨0, 0⟩ (some "a_b"),
        .connect ⟨"a-b", 0, "a_b", 0⟩, .deleteNode "a_b"]
    let t := (Operation.addNode "Command" ⟨0, 0⟩ (some "a_b")).next s
    (Operation.addNode "Command" ⟨0, 0⟩ (some "a_b")).run.outcome s = (.ok (.id "a_b"), t) ∧
      Script.eventNames {} t.graph t.catalog = ["cmd_a_b", "cmd_a_b_2"] ∧
      ∃ type blocks bot bot' name, s.catalog.find "Command" = .ok type ∧
        Script.Assembled {} s.graph s.catalog (blocks ++ [.line (Script.closing {})]) bot ∧
        Script.Assembled {} t.graph t.catalog
          (blocks ++ (type.header.toList.map (.header (type.newNode "a_b" ⟨0, 0⟩) name) ++
            [.line "", .line (Script.closing {})])) bot' ∧
        bot'.handlers = bot.handlers + 1 := by
  intro s t
  have added : (Operation.addNode "Command" ⟨0, 0⟩ (some "a_b")).run.outcome s = (.ok (.id "a_b"), t) :=
    Result.end_of_result (by decide +kernel)
  obtain ⟨type, blocks, bot, bot', known, assembled, -, event⟩ :=
    script_after_addition Catalog.builtin .standard _ "Command" ⟨0, 0⟩ (some "a_b") "a_b" t {} added
  have isEvent : type.isEvent = true := by
    have command : (s.catalog.find "Command").map NodeType.isEvent = .ok true := by decide +kernel
    rw [known] at command
    exact Except.ok.inj command
  obtain ⟨name, assembled', -, handlers⟩ := event isEvent
  exact ⟨added, by decide +kernel, type, blocks, bot, bot', name, known, assembled, assembled', handlers⟩

end FlowScript.Session
