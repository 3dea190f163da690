import FlowScript.Proofs.Script.Reference

namespace FlowScript

variable {α : Type} {g : Graph α} {catalog : Catalog}

/-- A line of the frame, an empty line, or what a node contributes. -/
inductive Block (α : Type) where
  | line (text : String)
  | header (root : Node α) (name template : String)
  | comment (n : Node α)
  | body (n : Node α) (template : String)

namespace Block

def value? : Block α → String → Option String
  | .header root name _, key => if key = "func_name" then some name else root.properties.get? key
  | .body n _, key => n.properties.get? key
  | .line _, _ | .comment _, _ => none

def rendered? : Block α → Option (Node α × String)
  | .header root _ template => some (root, template)
  | .body n template => some (n, template)
  | .line _ | .comment _ => none

def text : Block α → String
  | .line text => text
  | .header root name template => Template.render template (header root name template).value?
  | .comment n => Script.comment n
  | .body n template => Template.render template (body n template).value?

def Stems (g : Graph α) (catalog : Catalog) : Block α → Prop
  | .line _ => True
  | .header root _ template => root ∈ g.nodes ∧ Script.isEvent catalog root ∧
      Script.template? catalog NodeType.header root = some template
  | .comment n => n ∈ g.nodes
  | .body n template => n ∈ g.nodes ∧ Script.template? catalog NodeType.body n = some template

theorem Stems.source {b : Block α} (stems : b.Stems g catalog) {n : Node α} {template : String}
    (rendered : b.rendered? = some (n, template)) :
    n ∈ g.nodes ∧
      ((∃ name, b = .header n name template) ∧ Script.template? catalog NodeType.header n = some template ∨
        b = .body n template ∧ Script.template? catalog NodeType.body n = some template) := by
  cases b with
  | line | comment => cases rendered
  | header root name source =>
      cases rendered
      obtain ⟨own, -, isTemplate⟩ := stems
      exact ⟨own, .inl ⟨⟨name, rfl⟩, isTemplate⟩⟩
  | body m source =>
      cases rendered
      obtain ⟨own, isTemplate⟩ := stems
      exact ⟨own, .inr ⟨rfl, isTemplate⟩⟩

end Block

namespace Script

/-! ## Blocks of a chain -/

def headerBlocks (catalog : Catalog) (root : Node α) (name : String) : List (Block α) :=
  (template? catalog NodeType.header root).toList.map (.header root name)

def bodyBlocks (debug : Bool) (catalog : Catalog) (n : Node α) : List (Block α) :=
  (template? catalog NodeType.body n).toList.flatMap fun template =>
    (if debug then [.comment n] else []) ++ [.body n template]

def chainBlocks (debug : Bool) (catalog : Catalog) (chain : Chain α) (name : String) : List (Block α) :=
  headerBlocks catalog chain.root name ++ chain.steps.flatMap (bodyBlocks debug catalog) ++ [.line ""]

def openBlocks (o : Options) (catalog : Catalog) (chains : List (Chain α)) : List (Block α) :=
  let names := handlerNames o.settings [] (chains.map fun chain => chain.root.id)
  (preamble o.settings).map .line ++
    (chains.zip names).flatMap fun part => chainBlocks o.debug catalog part.1 part.2

def eventNames (o : Options) (g : Graph α) (catalog : Catalog) : List String :=
  handlerNames o.settings [] ((g.nodes.filter (isEvent catalog)).map Node.id)

def chains (g : Graph α) (catalog : Catalog) : Except Error (List (Chain α)) := do
  (← Chain.roots g catalog).mapM (Chain.ofNode g)

def trace (o : Options) (g : Graph α) (catalog : Catalog) : Except Error (List (Block α)) := do
  return openBlocks o catalog (← chains g catalog) ++ [.line (closing o.settings)]

theorem text_lines (lines : List String) : (lines.map (Block.line : String → Block α)).map Block.text = lines := by
  rw [List.map_map]
  exact List.map_id _

theorem text_headerBlocks (root : Node α) (name : String) :
    (headerBlocks catalog root name).map Block.text = headerLines catalog root name := by
  rw [headerBlocks, headerLines, List.map_map]
  rfl

theorem text_bodyBlocks (debug : Bool) (n : Node α) :
    (bodyBlocks debug catalog n).map Block.text = bodyLines debug catalog n := by
  rw [bodyBlocks, bodyLines, List.map_flatMap]
  congr 1
  funext template
  cases debug <;> rfl

/-! ## Compiling puts the blocks together -/

/-- The script of a graph, and the blocks that it is put together from. -/
structure Assembled (o : Options) (g : Graph α) (catalog : Catalog) (parts : List (Block α)) (bot : Bot) : Prop where
  compiled : compile o g catalog = .ok bot
  traced : trace o g catalog = .ok parts
  pushed : ∃ roots, Chain.roots g catalog = .ok roots ∧ blocks o g catalog roots = .ok (parts.map Block.text)
  source : bot.source = "\n".intercalate (parts.map Block.text)
  stems : ∀ b ∈ parts, b.Stems g catalog

theorem Assembled.handlers_eq {o : Options} {parts : List (Block α)} {bot : Bot} (h : Assembled o g catalog parts bot) :
    bot.handlers = (eventNames o g catalog).length := by
  rw [(hasHandlers_of_compile h.compiled).2, eventNames, length_handlerNames, List.length_map]

theorem text_chainBlocks {debug : Bool} {root : Node α} {chain : Chain α} {name : String} {lines : List String}
    (walked : Chain.ofNode g root = .ok chain) (written : handler debug g catalog root name = .ok lines) :
    (chainBlocks debug catalog chain name).map Block.text = lines := by
  obtain ⟨t, known, written⟩ := Result.bind_eq_ok.1 written
  obtain ⟨chain', walked', written⟩ := Result.bind_eq_ok.1 written
  obtain ⟨inlined, rendered, written⟩ := Result.bind_eq_ok.1 written
  cases written
  obtain rfl : chain = chain' := Except.ok.inj (walked.symm.trans walked')
  simp only [chainBlocks, List.map_append, List.map_flatMap, text_headerBlocks, text_bodyBlocks,
    Chain.root_of_ofNode walked, header_eq known, steps_eq rendered]
  rfl

theorem text_sections {debug : Bool} {roots : List (Node α)} {chains : List (Chain α)} {names : List String}
    {sections : List (List String)} (walked : List.Forall₂ (fun root c => Chain.ofNode g root = .ok c) roots chains)
    (written : List.Forall₂ (fun part lines => handler debug g catalog part.1 part.2 = .ok lines) (roots.zip names)
      sections) :
    ((chains.zip names).flatMap fun part => chainBlocks debug catalog part.1 part.2).map Block.text =
      sections.flatten := by
  induction walked generalizing names sections with
  | nil =>
      cases written
      rfl
  | @cons root c roots chains head _ ih =>
      cases names with
      | nil =>
          cases written
          rfl
      | cons name names =>
          cases written with
          | cons first others =>
              rw [List.zip_cons_cons, List.flatMap_cons, List.map_append, text_chainBlocks head first, ih others,
                List.flatten_cons]

theorem ids_of_walked {roots : List (Node α)} {chains : List (Chain α)}
    (walked : List.Forall₂ (fun root c => Chain.ofNode g root = .ok c) roots chains) :
    chains.map (fun c => c.root.id) = roots.map Node.id := by
  rw [← List.forall₂_eq_eq_eq, List.forall₂_map_left_iff, List.forall₂_map_right_iff]
  exact walked.flip.imp fun c root each => by rw [Chain.root_of_ofNode each]

theorem text_openBlocks {o : Options} {roots : List (Node α)} {cs : List (Chain α)} {lines : List String}
    (walked : List.Forall₂ (fun root c => Chain.ofNode g root = .ok c) roots cs)
    (written : blocks o g catalog roots = .ok lines) :
    (openBlocks o catalog cs ++ [Block.line (closing o.settings)]).map Block.text = lines := by
  obtain ⟨sections, each, joined⟩ := Result.bind_eq_ok.1 written
  rw [← Except.ok.inj joined, List.map_append, openBlocks, List.map_append, ids_of_walked walked,
    text_sections walked (Result.mapM_eq_ok.1 each), text_lines]
  rfl

theorem stems_chainBlocks {debug : Bool} {root : Node α} {chain : Chain α} {name : String} (mem : root ∈ g.nodes)
    (event : isEvent catalog root) (walked : Chain.ofNode g root = .ok chain) :
    ∀ b ∈ chainBlocks debug catalog chain name, b.Stems g catalog := by
  rw [chainBlocks, Chain.root_of_ofNode walked]
  simp only [List.forall_mem_append, List.forall_mem_singleton]
  refine ⟨⟨?_, ?_⟩, trivial⟩
  · intro b among
    obtain ⟨template, own, rfl⟩ := List.mem_map.1 among
    exact ⟨mem, event, Option.mem_toList.1 own⟩
  · intro b among
    obtain ⟨n, onChain, among⟩ := List.mem_flatMap.1 among
    have inGraph := (Chain.succession_ofNode walked).among n onChain
    obtain ⟨template, own, among⟩ := List.mem_flatMap.1 among
    rcases List.mem_append.1 among with among | among
    · split at among
      · obtain rfl := List.mem_singleton.1 among
        exact inGraph
      · cases among
    · obtain rfl := List.mem_singleton.1 among
      exact ⟨inGraph, Option.mem_toList.1 own⟩

theorem stems_openBlocks (o : Options) {cs : List (Chain α)}
    (walked : List.Forall₂ (fun root c => Chain.ofNode g root = .ok c) (g.nodes.filter (isEvent catalog)) cs) :
    ∀ b ∈ openBlocks o catalog cs ++ [Block.line (closing o.settings)], b.Stems g catalog := by
  rw [openBlocks]
  simp only [List.forall_mem_append, List.forall_mem_singleton]
  refine ⟨⟨?_, ?_⟩, trivial⟩
  · intro b among
    obtain ⟨line, -, rfl⟩ := List.mem_map.1 among
    trivial
  · intro b among
    obtain ⟨part, own, among⟩ := List.mem_flatMap.1 among
    obtain ⟨root, isRoot, each⟩ := Result.exists_related walked (List.of_mem_zip own).1
    obtain ⟨mem, event⟩ := List.mem_filter.1 isRoot
    exact stems_chainBlocks mem event each b among

theorem trace_of_walked {o : Options} {roots : List (Node α)} {cs : List (Chain α)}
    (events : Chain.roots g catalog = .ok roots)
    (walked : List.Forall₂ (fun root c => Chain.ofNode g root = .ok c) roots cs) :
    trace o g catalog = .ok (openBlocks o catalog cs ++ [Block.line (closing o.settings)]) := by
  have found : chains g catalog = .ok cs := Result.bind_eq_ok.2 ⟨roots, events, Result.mapM_eq_ok.2 walked⟩
  exact Result.bind_eq_ok.2 ⟨cs, found, rfl⟩

theorem exists_walked (h : g.Sound catalog) :
    ∃ cs, List.Forall₂ (fun root c => Chain.ofNode g root = .ok c) (g.nodes.filter (isEvent catalog)) cs := by
  obtain ⟨cs, each⟩ := Result.mapM_ok fun root (_ : root ∈ g.nodes.filter (isEvent catalog)) => Chain.ofNode_ok h root
  exact ⟨cs, Result.mapM_eq_ok.1 each⟩

theorem exists_assembled (h : g.Sound catalog) (o : Options) {cs : List (Chain α)}
    (walked : List.Forall₂ (fun root c => Chain.ofNode g root = .ok c) (g.nodes.filter (isEvent catalog)) cs) :
    ∃ bot, Assembled o g catalog (openBlocks o catalog cs ++ [.line (closing o.settings)]) bot := by
  obtain ⟨bot, compiled⟩ := compile_ok h o
  obtain ⟨roots, events, afterRoots⟩ := Result.bind_eq_ok.1 compiled
  obtain ⟨lines, written, afterLines⟩ := Result.bind_eq_ok.1 afterRoots
  obtain ⟨warnings, -, result⟩ := Result.bind_eq_ok.1 afterLines
  have text : (openBlocks o catalog cs ++ [Block.line (closing o.settings)]).map Block.text = lines :=
    text_openBlocks (events_eq events ▸ walked) written
  refine ⟨bot, compiled, trace_of_walked (roots_eq h) walked, ⟨roots, events, ?_⟩, ?_, stems_openBlocks o walked⟩
  · rw [text, written]
  · rw [← Except.ok.inj result, text]

end Script
end FlowScript
