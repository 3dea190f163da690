import FlowScript.Catalog.Builtin
import FlowScript.Proofs.Script.Blocks
import FlowScript.Proofs.Session.Compilation

/-!
# Sections of a script

Behind the preamble, a script has one section for each event (`Script.IsSectionOf`). `Session.sections_after`: a section
begins with the header of its event if the type of the event has a template for one. If it has none, the bodies along the
chain are written without a header, and the event counts as a handler all the same.
-/

namespace FlowScript

variable {α : Type} {g : Graph α} {catalog : Catalog}

namespace Block

def isHeader : Block α → Bool
  | .header .. => true
  | .line _ | .comment _ | .body .. => false

def isBody : Block α → Bool
  | .body .. => true
  | .line _ | .comment _ | .header .. => false

def Opens (root : Node α) (blocks : List (Block α)) : Prop :=
  ∃ name template, blocks.head? = some (.header root name template)

end Block

namespace Script

def hasHeader (catalog : Catalog) (n : Node α) : Bool := (template? catalog NodeType.header n).isSome

/-- The blocks of the section of an event: its header, if there is one, the bodies of the nodes that its successors come
to, and an empty line. -/
def IsSectionOf (debug : Bool) (g : Graph α) (catalog : Catalog) (root : Node α) (blocks : List (Block α)) : Prop :=
  ∃ name nodes, Inlined g catalog root nodes ∧
    blocks = headerBlocks catalog root name ++ nodes.flatMap (bodyBlocks debug catalog) ++ [.line ""]

/-! ## Headers and bodies of a section -/

section
variable {debug : Bool} {root : Node α} {blocks : List (Block α)}

theorem countP_headerBlocks (root : Node α) (name : String) :
    (headerBlocks catalog root name).countP Block.isHeader = if hasHeader catalog root then 1 else 0 := by
  rw [headerBlocks, hasHeader]
  cases template? catalog NodeType.header root <;> rfl

theorem isHeader_of_bodyBlocks {nodes : List (Node α)} {b : Block α}
    (mem : b ∈ nodes.flatMap (bodyBlocks debug catalog)) : b.isHeader = false := by
  obtain ⟨n, -, own⟩ := List.mem_flatMap.1 mem
  obtain ⟨template, -, own⟩ := List.mem_flatMap.1 own
  rcases List.mem_append.1 own with own | own
  · split at own
    · rw [List.mem_singleton.1 own]
      rfl
    · cases own
  · rw [List.mem_singleton.1 own]
    rfl

theorem IsSectionOf.countP_isHeader (h : IsSectionOf debug g catalog root blocks) :
    blocks.countP Block.isHeader = if hasHeader catalog root then 1 else 0 := by
  obtain ⟨name, nodes, -, rfl⟩ := h
  have noHeader : (nodes.flatMap (bodyBlocks debug catalog)).countP Block.isHeader = 0 := by
    rw [List.countP_eq_zero]
    intro b mem isHeader
    rw [isHeader_of_bodyBlocks mem] at isHeader
    cases isHeader
  rw [List.countP_append, List.countP_append, countP_headerBlocks, noHeader]
  rfl

theorem IsSectionOf.opens_iff (h : IsSectionOf debug g catalog root blocks) :
    Block.Opens root blocks ↔ hasHeader catalog root = true := by
  have count := h.countP_isHeader
  constructor
  · rintro ⟨name, template, first⟩
    have counted : 0 < blocks.countP Block.isHeader :=
      List.countP_pos_iff.2 ⟨_, List.mem_of_head? first, rfl⟩
    by_contra headless
    rw [count, if_neg headless] at counted
    exact Nat.lt_irrefl 0 counted
  · intro has
    obtain ⟨name, nodes, -, rfl⟩ := h
    obtain ⟨template, own⟩ := Option.isSome_iff_exists.1 has
    refine ⟨name, template, ?_⟩
    rw [headerBlocks, own]
    rfl

theorem IsSectionOf.mem_body (h : IsSectionOf debug g catalog root blocks) {n : Node α} (own : n ∈ g.nodes)
    (visited : (g.visits root.id n.id).Nonempty) {template : String}
    (has : template? catalog NodeType.body n = some template) :
    .body n template ∈ blocks := by
  obtain ⟨name, nodes, inlined, rfl⟩ := h
  have among : n ∈ nodes := (inlined.mem_iff n).2 ⟨own, visited, Option.isSome_of_eq_some has⟩
  have written : .body n template ∈ bodyBlocks debug catalog n := by
    rw [bodyBlocks, has]
    simp
  have inlined : .body n template ∈ nodes.flatMap (bodyBlocks debug catalog) :=
    List.mem_flatMap.2 ⟨n, among, written⟩
  simp [inlined]

theorem IsSectionOf.exists_header (h : IsSectionOf debug g catalog root blocks) {template : String}
    (has : template? catalog NodeType.header root = some template) : ∃ name, .header root name template ∈ blocks := by
  obtain ⟨name, nodes, -, rfl⟩ := h
  refine ⟨name, ?_⟩
  rw [headerBlocks, has]
  simp

end

/-! ## The sections of a script -/

theorem flatMap_bodyBlocks_filter (debug : Bool) (nodes : List (Node α)) :
    (nodes.filter fun n => (template? catalog NodeType.body n).isSome).flatMap (bodyBlocks debug catalog) =
      nodes.flatMap (bodyBlocks debug catalog) :=
  flatMap_filter_body _ nodes

theorem isSectionOf_chainBlocks (h : g.Sound catalog) (debug : Bool) {root : Node α} {chain : Chain α}
    (walked : Chain.ofNode g root = .ok chain) (name : String) :
    IsSectionOf debug g catalog root (chainBlocks debug catalog chain name) := by
  refine ⟨name, _, inlined_of_succession h (Chain.succession_ofNode walked), ?_⟩
  rw [flatMap_bodyBlocks_filter, chainBlocks, Chain.root_of_ofNode walked]

theorem sections_of_walked (h : g.Sound catalog) (debug : Bool) {roots : List (Node α)} {cs : List (Chain α)}
    {names : List String} (walked : List.Forall₂ (fun root c => Chain.ofNode g root = .ok c) roots cs)
    (enough : names.length = cs.length) :
    List.Forall₂ (IsSectionOf debug g catalog) roots
      ((cs.zip names).map fun part => chainBlocks debug catalog part.1 part.2) := by
  induction walked generalizing names with
  | nil => exact .nil
  | cons head _ ih =>
      cases names with
      | nil => cases enough
      | cons name names => exact .cons (isSectionOf_chainBlocks h debug head name) (ih (Nat.succ.inj enough))

theorem exists_sections (h : g.Sound catalog) (o : Options) :
    ∃ sections bot, Assembled o g catalog
        ((preamble o.settings).map .line ++ sections.flatten ++ [.line (closing o.settings)]) bot ∧
      List.Forall₂ (IsSectionOf o.debug g catalog) (g.nodes.filter (isEvent catalog)) sections := by
  obtain ⟨cs, walked⟩ := exists_walked h
  obtain ⟨bot, assembled⟩ := exists_assembled h o walked
  let names := handlerNames o.settings [] (cs.map fun chain => chain.root.id)
  have enough : names.length = cs.length := by rw [length_handlerNames, List.length_map]
  refine ⟨_, bot, ?_, sections_of_walked h o.debug walked enough⟩
  rw [← List.flatMap_def]
  exact assembled

theorem countP_sections {debug : Bool} {roots : List (Node α)} {sections : List (List (Block α))}
    (each : List.Forall₂ (IsSectionOf debug g catalog) roots sections) :
    sections.flatten.countP Block.isHeader = roots.countP (hasHeader catalog) := by
  induction each with
  | nil => rfl
  | cons head _ ih => rw [List.flatten_cons, List.countP_append, List.countP_cons, head.countP_isHeader, ih, Nat.add_comm]

theorem hasHeader_of_event (headers : ∀ t ∈ catalog.types, t.isEvent = true → t.header.isSome = true) {n : Node α}
    (event : isEvent catalog n = true) : hasHeader catalog n = true := by
  rw [hasHeader, template?]
  rw [isEvent] at event
  cases known : catalog.find? n.typeName with
  | none =>
      rw [known] at event
      cases event
  | some t =>
      rw [known] at event
      exact headers t (Catalog.find?_eq_some_iff.1 known).1 event

/-- Bodies stand behind the header of their event only, and a handler is counted for each header. -/
structure Headed (roots : List (Node α)) (sections : List (List (Block α))) (handlers : Nat) : Prop where
  opened : List.Forall₂ (fun root blocks => (∃ b ∈ blocks, b.isBody = true) → Block.Opens root blocks) roots sections
  counted : handlers = sections.flatten.countP Block.isHeader

theorem headed_iff {debug : Bool} {roots : List (Node α)} {sections : List (List (Block α))}
    (each : List.Forall₂ (IsSectionOf debug g catalog) roots sections) :
    Headed roots sections roots.length ↔ ∀ root ∈ roots, hasHeader catalog root = true := by
  constructor
  · intro headed
    rw [← List.countP_eq_length, ← countP_sections each]
    exact headed.counted.symm
  · intro has
    constructor
    · apply ((List.forall₂_and_left _ _).2 ⟨has, each⟩).imp
      intro root blocks own _
      exact own.2.opens_iff.2 own.1
    · rw [countP_sections each]
      exact (List.countP_eq_length.2 has).symm

end Script

variable [Scalar α]

namespace Session

/-- A section begins with the header of its event exactly if the event is of a type that has one, and the number of
handlers is that of the events. So bodies stand behind headers only, with a handler for each header, exactly if all
events of the session have headers, which they do if those of the catalog have them. -/
theorem sections_after (catalog : Catalog) (shape : NodeShape α) (history : List (Operation α))
    (o : Script.Options) :
    let s := (Session.new catalog shape).after history
    let roots := s.graph.nodes.filter (Script.isEvent s.catalog)
    ∃ sections bot,
      Script.Assembled o s.graph s.catalog
        ((Script.preamble o.settings).map .line ++ sections.flatten ++ [.line (Script.closing o.settings)]) bot ∧
      List.Forall₂ (Script.IsSectionOf o.debug s.graph s.catalog) roots sections ∧
      List.Forall₂ (fun root blocks => Block.Opens root blocks ↔ Script.hasHeader s.catalog root = true) roots sections ∧
      bot.handlers = roots.length ∧
      sections.flatten.countP Block.isHeader = roots.countP (Script.hasHeader s.catalog) ∧
      (Script.Headed roots sections bot.handlers ↔ ∀ root ∈ roots, Script.hasHeader s.catalog root = true) ∧
      ((∀ t ∈ catalog.types, t.isEvent = true → t.header.isSome = true) →
        Script.Headed roots sections bot.handlers) := by
  intro s roots
  have known : s.catalog = catalog := (sound_history catalog shape history).1
  obtain ⟨sections, bot, assembled, each⟩ := Script.exists_sections (sound_own catalog shape history) o
  have handlers : bot.handlers = roots.length := (Script.hasHandlers_of_compile assembled.compiled).2
  refine ⟨sections, bot, assembled, each, each.imp fun _ _ own => own.opens_iff, handlers,
    Script.countP_sections each, ?_, fun headers => ?_⟩
  · rw [handlers]
    exact Script.headed_iff each
  · rw [handlers, Script.headed_iff each]
    intro root mem
    apply Script.hasHeader_of_event _ (List.mem_filter.1 mem).2
    rw [known]
    exact headers

example : ∀ t ∈ Catalog.builtin.types, t.isEvent = true → t.header.isSome = true := by decide

/-- The event has no header, so nothing but the body of the step is written for it, and it counts as a handler. -/
theorem sections_headless :
    let ping : NodeType := ⟨"Ping", .event, [], ["Flow"], [], none, none⟩
    let log : NodeType := ⟨"Log", .action, ["Flow"], ["Flow"], [], none, some "    print('x')"⟩
    ∃ catalog, Catalog.ofTypes [ping, log] = .ok catalog ∧
      let s := (Session.new catalog (.standard : NodeShape Float)).after
        [.addNode "Ping" ⟨0, 0⟩ none, .addNode "Log" ⟨0, 0⟩ none, .connect ⟨"node_0", 0, "node_1", 0⟩]
      ∃ blocks bot, Script.Assembled {} s.graph s.catalog blocks bot ∧
        (∃ b ∈ blocks, b.isBody = true ∧ b.text = "    print('x')") ∧
        blocks.countP Block.isHeader = 0 ∧ bot.handlers = 1 := by
  intro ping log
  refine ⟨.ofDistinct [ping, log] (by decide), by decide +kernel, ?_⟩
  intro s
  have sound : s.graph.Sound s.catalog := sound_own _ _ _
  obtain ⟨sections, bot, assembled, -⟩ := Script.exists_sections sound {}
  refine ⟨_, bot, assembled, ?_⟩
  have traced : (Script.trace {} s.graph s.catalog).map (fun parts =>
      (parts.any fun b => b.isBody && b.text = "    print('x')", parts.countP Block.isHeader)) = .ok (true, 0) := by
    decide +kernel
  rw [assembled.traced] at traced
  obtain ⟨written, headless⟩ := Prod.mk.inj (Except.ok.inj traced)
  refine ⟨?_, headless, ?_⟩
  · obtain ⟨b, mem, isBody⟩ := List.any_eq_true.1 written
    exact ⟨b, mem, by simpa using isBody⟩
  · rw [assembled.handlers_eq]
    decide +kernel

end Session
end FlowScript
