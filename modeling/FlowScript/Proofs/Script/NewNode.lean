import FlowScript.Proofs.Script.Blocks
import FlowScript.Proofs.Script.Liveness

namespace FlowScript

variable {α : Type} {g : Graph α} {catalog : Catalog} {n : Node α} {next : Nat}

/-! ## Chains -/

namespace Graph

theorem inStep_addedLast (h : g.Sound catalog) (n : Node α) (next : Nat) :
    InStep (· = ·) (fun _ => True) g { g with nodes := g.nodes ++ [n], nextNumber := next } where
  successors _ _ := rfl
  targets id later _ follows := by
    -- No wire dangles, so the look-up ends before it comes to the new node.
    obtain ⟨m, found⟩ := h.node?_successor follows
    have kept : node? { g with nodes := g.nodes ++ [n], nextNumber := next } later = some m := by
      rw [node?, List.find?_append]
      exact congrArg (Option.or · _) found
    rw [found, kept]
    exact .some rfl
  closed _ _ _ := trivial

theorem Sound.successor?_of_free (h : g.Sound catalog) {id : String} (free : id ∉ g.ids) :
    g.successor? id = none := by
  rw [successor?, firstOutgoing?, Option.map_eq_none_iff, List.find?_eq_none]
  intro w mem source
  exact free (of_decide_eq_true source ▸ (h.anchored w mem).1)

end Graph

theorem Chain.ofNode_addedLast (h : g.Sound catalog) (n : Node α) (next : Nat) (root : Node α) :
    ofNode { g with nodes := g.nodes ++ [n], nextNumber := next } root = ofNode g root :=
  ((Graph.inStep_addedLast h n next).ofNode_eq trivial).symm

theorem Chain.ofNode_of_last {root : Node α} (last : g.successor? root.id = none) :
    ofNode g root = .ok ⟨root, [], none⟩ := by
  rw [ofNode, follow_eq, last]
  rfl

namespace Script

theorem walked_addedLast (h : g.Sound catalog) (n : Node α) (next : Nat) {roots : List (Node α)} {cs : List (Chain α)}
    (walked : List.Forall₂ (fun root c => Chain.ofNode g root = .ok c) roots cs) :
    List.Forall₂ (fun root c => Chain.ofNode { g with nodes := g.nodes ++ [n], nextNumber := next } root = .ok c)
      roots cs :=
  walked.imp fun root _ each => (Chain.ofNode_addedLast h n next root).trans each

/-! ## Names and blocks -/

theorem handlerNames_snoc (s : Settings) (taken ids : List String) (id : String) :
    handlerNames s taken (ids ++ [id]) = handlerNames s taken ids ++
      [freshName ((handlerNames s taken ids).reverse ++ taken) (functionName s id)] := by
  induction ids generalizing taken with
  | nil => rfl
  | cons first rest ih =>
      simp only [List.cons_append, handlerNames, ih, List.reverse_cons, List.append_assoc, List.nil_append]

theorem openBlocks_snoc (o : Options) (cs : List (Chain α)) (c : Chain α) :
    let names := handlerNames o.settings [] (cs.map fun c => c.root.id)
    openBlocks o catalog (cs ++ [c]) =
      openBlocks o catalog cs ++
        chainBlocks o.debug catalog c (freshName names.reverse (functionName o.settings c.root.id)) := by
  intro names
  have lengths : cs.length = names.length := by rw [length_handlerNames, List.length_map]
  rw [openBlocks, List.map_append, List.map_singleton, handlerNames_snoc, List.append_nil, List.zip_append lengths,
    List.flatMap_append, openBlocks, List.append_assoc]
  simp only [List.zip_cons_cons, List.zip_nil_left, List.flatMap_singleton]
  rfl

/-! ## The script -/

theorem Assembled.sameScript {g' : Graph α} {o : Options} {parts : List (Block α)} {bot bot' : Bot}
    (h : Assembled o g catalog parts bot) (h' : Assembled o g' catalog parts bot')
    (names : eventNames o g' catalog = eventNames o g catalog) : bot.SameScript bot' := by
  have source : bot.source = bot'.source := h.source.trans h'.source.symm
  refine ⟨source, ?_, ?_⟩
  · rw [hash_of_compile h.compiled, hash_of_compile h'.compiled, source]
  · rw [h.handlers_eq, h'.handlers_eq, names]

theorem assembled_addedLast (h : g.Sound catalog) {t : NodeType} (known : catalog.find n.typeName = .ok t)
    (free : n.id ∉ g.ids) (next : Nat) (o : Options) :
    let g' : Graph α := { g with nodes := g.nodes ++ [n], nextNumber := next }
    ∃ blocks bot bot', Assembled o g catalog (blocks ++ [.line (closing o.settings)]) bot ∧
      (t.isEvent = false → Assembled o g' catalog (blocks ++ [.line (closing o.settings)]) bot' ∧
        eventNames o g' catalog = eventNames o g catalog) ∧
      (t.isEvent = true → ∃ name,
        Assembled o g' catalog
          (blocks ++ (t.header.toList.map (.header n name) ++ [.line "", .line (closing o.settings)])) bot' ∧
        eventNames o g' catalog = eventNames o g catalog ++ [name]) := by
  intro g'
  obtain ⟨known_mem, known_name⟩ := Catalog.find_ok known
  have h' : g'.Sound catalog := h.add known_mem known_name free
  obtain ⟨cs, walked⟩ := exists_walked h
  obtain ⟨bot, assembled⟩ := exists_assembled h o walked
  have later := walked_addedLast h n next walked
  cases kind : t.isEvent with
  | false =>
      have events : g'.nodes.filter (isEvent catalog) = g.nodes.filter (isEvent catalog) := by
        rw [List.filter_append, List.filter_singleton, isEvent_of_find known, kind, cond_false, List.append_nil]
      obtain ⟨bot', assembled'⟩ := exists_assembled h' o (events ▸ later)
      refine ⟨_, bot, bot', assembled, fun _ => ⟨assembled', ?_⟩, fun event => by cases event⟩
      rw [eventNames, events, eventNames]
  | true =>
      have events : g'.nodes.filter (isEvent catalog) = g.nodes.filter (isEvent catalog) ++ [n] := by
        rw [List.filter_append, List.filter_singleton, isEvent_of_find known, kind, cond_true]
      have own : Chain.ofNode g' n = .ok ⟨n, [], none⟩ := Chain.ofNode_of_last (h.successor?_of_free free)
      have later' : List.Forall₂ (fun root c => Chain.ofNode g' root = .ok c) (g'.nodes.filter (isEvent catalog))
          (cs ++ [⟨n, [], none⟩]) := by
        rw [events]
        exact List.rel_append later (.cons own .nil)
      obtain ⟨bot', assembled'⟩ := exists_assembled h' o later'
      refine ⟨_, bot, bot', assembled, fun action => (by cases action), fun _ =>
        ⟨freshName (eventNames o g catalog).reverse (functionName o.settings n.id), ?_, ?_⟩⟩
      · rw [openBlocks_snoc, ids_of_walked walked, chainBlocks, headerBlocks, template?_of_find known] at assembled'
        simp only [List.flatMap_nil, List.append_nil, List.append_assoc] at assembled'
        exact assembled'
      · rw [eventNames, events, List.map_append, List.map_singleton, handlerNames_snoc, List.append_nil]
        rfl

end Script
end FlowScript
