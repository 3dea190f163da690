import FlowScript.Catalog.Builtin
import FlowScript.Proofs.Script.Blocks
import FlowScript.Proofs.Session.Compilation

namespace FlowScript

variable {α : Type} {g : Graph α} {catalog other : Catalog} {o : Script.Options} {bot : Bot}

/-! ## Compiling over any catalog -/

theorem Chain.known_of_events {nodes roots : List (Node α)} (found : events catalog nodes = .ok roots) :
    ∀ n ∈ nodes, ∃ t ∈ catalog.types, t.name = n.typeName := by
  induction nodes generalizing roots with
  | nil => exact fun _ mem => by cases mem
  | cons n rest ih =>
      obtain ⟨t, known, found⟩ := Result.bind_eq_ok.1 found
      obtain ⟨later, events, -⟩ := Result.bind_eq_ok.1 found
      exact List.forall_mem_cons.2 ⟨⟨t, Catalog.find_ok known⟩, ih events⟩

theorem Graph.Sound.of_compile (h : g.Sound catalog) (compiled : Script.compile o g other = .ok bot) :
    g.Sound other := by
  obtain ⟨roots, events, -⟩ := Result.bind_eq_ok.1 compiled
  exact ⟨h.distinct, h.anchored, Chain.known_of_events events⟩

theorem Script.assembled_of_compile (h : g.Sound catalog) (compiled : compile o g catalog = .ok bot) :
    ∃ blocks, Assembled o g catalog blocks bot := by
  obtain ⟨cs, walked⟩ := exists_walked h
  obtain ⟨bot', assembled⟩ := exists_assembled h o walked
  obtain rfl : bot' = bot := Except.ok.inj (assembled.compiled.symm.trans compiled)
  exact ⟨_, assembled⟩

/-! ## Values that are missing -/

theorem Block.lacks_of_value?_eq_none {b : Block α} (stems : b.Stems g catalog) {n : Node α} {template key : String}
    (rendered : b.rendered? = some (n, template)) (own : key ∈ Template.keys template) (unset : b.value? key = none) :
    n ∈ g.nodes ∧ Diagnostic.Lacks catalog n key ∧ (key = Diagnostic.handlerKey → b = .body n template) := by
  obtain ⟨mem, ⟨⟨name, rfl⟩, isTemplate⟩ | ⟨rfl, isTemplate⟩⟩ := stems.source rendered
  · rw [value?] at unset
    split at unset
    · cases unset
    · rename_i other
      exact ⟨mem, ⟨⟨template, .inl isTemplate, own⟩, unset⟩, fun same => absurd same other⟩
  · exact ⟨mem, ⟨⟨template, .inr isTemplate, own⟩, unset⟩, fun _ => rfl⟩

variable [Scalar α]

namespace Session

/-- The warnings about properties are those about nodes that lack one, each at most once. They report every
placeholder that is rendered without a value, but none for the name of a handler, which a body has no value for. -/
theorem placeholders_after (catalog other : Catalog) (shape : NodeShape α) (history : List (Operation α))
    (o : Script.Options) (bot : Bot) :
    let g := ((Session.new catalog shape).after history).graph
    Script.compile o g other = .ok bot →
      (∃ blocks, Script.Assembled o g other blocks bot ∧
        ∀ b ∈ blocks, ∀ n template key, b.rendered? = some (n, template) → key ∈ Template.keys template →
          b.value? key = none →
            (key ≠ "func_name" → .missingProperty n.id key ∈ bot.diagnostics) ∧
            (key = "func_name" → b = .body n template ∧ .missingProperty n.id key ∉ bot.diagnostics)) ∧
      (∀ id key, .missingProperty id key ∈ bot.diagnostics ↔
        ∃ n ∈ g.nodes, n.id = id ∧ Diagnostic.Lacks other n key ∧ key ≠ "func_name") ∧
      bot.diagnostics.Nodup := by
  intro g compiled
  have sound : g.Sound other := (sound_own catalog shape history).of_compile compiled
  have analyzed := Script.analyze_of_compile compiled
  have reported := Diagnostic.mem_missingProperty_iff analyzed
  obtain ⟨blocks, assembled⟩ := Script.assembled_of_compile sound compiled
  refine ⟨⟨blocks, assembled, fun b mem n template key rendered own unset => ?_⟩, reported,
    (Diagnostic.analyze_exact sound analyzed).distinct⟩
  obtain ⟨inGraph, lacks, inBody⟩ := Block.lacks_of_value?_eq_none (assembled.stems b mem) rendered own unset
  refine ⟨fun ordinary => (reported n.id key).2 ⟨n, inGraph, rfl, lacks, ordinary⟩, fun exempt => ⟨inBody exempt, ?_⟩⟩
  rintro mem
  obtain ⟨-, -, -, -, ordinary⟩ := (reported n.id key).1 mem
  exact ordinary exempt

theorem placeholders_after_bare_layout :
    let layout : Layout Float := ⟨[⟨"a", "Command", 0, 0, none, none, none⟩,
      ⟨"b", "Send Message", 0, 0, some (.ofList []), none, none⟩], [⟨"a", 0, "b", 0⟩]⟩
    let g := ((Session.new Catalog.builtin (.standard : NodeShape Float)).after [.load layout]).graph
    ∃ bot, Script.compile {} g Catalog.builtin = .ok bot ∧ .missingProperty "b" "text" ∈ bot.diagnostics ∧
      bot.diagnostics.Nodup := by
  intro layout g
  have sound : g.Sound Catalog.builtin := sound_own Catalog.builtin .standard [.load layout]
  obtain ⟨bot, compiled⟩ := Script.compile_ok sound {}
  obtain ⟨-, -, distinct⟩ := placeholders_after Catalog.builtin Catalog.builtin .standard [.load layout] {} bot compiled
  have reported : Diagnostic.analyze g Catalog.builtin = .ok [.missingProperty "b" "text"] := by decide +kernel
  have warnings : bot.diagnostics = [.missingProperty "b" "text"] :=
    Except.ok.inj ((Script.analyze_of_compile compiled).symm.trans reported)
  exact ⟨bot, compiled, by rw [warnings]; exact List.mem_singleton_self _, distinct⟩

/-- The body asks for the name of its handler. It is rendered with nothing in that place, without a warning. -/
theorem placeholders_unreported :
    let tick : NodeType :=
      ⟨"Tick", .event, [], ["Flow"], [], some "async def \x7bfunc_name\x7d():", none⟩
    let log : NodeType :=
      ⟨"Log", .action, ["Flow"], ["Flow"], [], none, some "    print('\x7bfunc_name\x7d')"⟩
    let s := (Session.new (.ofDistinct [tick, log] (by decide)) (.standard : NodeShape Float)).after
      [.addNode "Tick" ⟨0, 0⟩ none, .addNode "Log" ⟨0, 0⟩ none, .connect ⟨"node_0", 0, "node_1", 0⟩]
    ∃ blocks bot, Script.Assembled {} s.graph s.catalog blocks bot ∧ bot.diagnostics = [] ∧
      ∃ b ∈ blocks, ∃ n template, b.rendered? = some (n, template) ∧ "func_name" ∈ Template.keys template ∧
        b.value? "func_name" = none ∧ b.text = "    print('')" := by
  intro tick log s
  have sound : s.graph.Sound s.catalog := sound_own _ _ _
  obtain ⟨bot, compiled⟩ := Script.compile_ok sound {}
  obtain ⟨blocks, assembled⟩ := Script.assembled_of_compile sound compiled
  have analyzed : Diagnostic.analyze s.graph s.catalog = .ok [] := by decide +kernel
  have silent : bot.diagnostics = [] := Except.ok.inj ((Script.analyze_of_compile compiled).symm.trans analyzed)
  let shown (b : Block Float) : Option (String × Option String × String) :=
    b.rendered?.map fun source => (source.2, b.value? "func_name", b.text)
  have traced : (Script.trace {} s.graph s.catalog).map (List.filterMap shown) =
      .ok [("async def \x7bfunc_name\x7d():", some "cmd_0", "async def cmd_0():"),
        ("    print('\x7bfunc_name\x7d')", none, "    print('')")] := by decide +kernel
  rw [assembled.traced] at traced
  have last : ("    print('\x7bfunc_name\x7d')", none, "    print('')") ∈ blocks.filterMap shown := by
    rw [Except.ok.inj traced]
    exact List.mem_of_mem_getLast? rfl
  obtain ⟨b, mem, source⟩ := List.mem_filterMap.1 last
  obtain ⟨⟨n, template⟩, rendered, parts⟩ := Option.map_eq_some_iff.1 source
  simp only [Prod.mk.injEq] at parts
  obtain ⟨rfl, unset, text⟩ := parts
  exact ⟨blocks, bot, assembled, silent, b, mem, n, _, rendered, by decide +kernel, unset, text⟩

end Session
end FlowScript
