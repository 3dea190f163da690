import FlowScript.Proofs.Script.Totality

/-!
# What a script consists of

`Script.IsSource` says what the text of a script has to be, in terms of the events of a graph and of the nodes
that their iterated successors reach, and without walking anything. A sound graph compiles to the one text that
satisfies it (`Script.isSource_iff`).
-/

namespace FlowScript

variable {α : Type} {g : Graph α} {catalog : Catalog}

/-- The successor is the target of the first of the wires that leave the node. -/
theorem Graph.successor?_eq_some_iff {id next : String} :
    g.successor? id = some next ↔
      ∃ before w after, g.wires = before ++ w :: after ∧ w.source = id ∧ w.target = next ∧
        ∀ v ∈ before, v.source ≠ id := by
  rw [successor?, Option.map_eq_some_iff]
  simp only [firstOutgoing?, List.find?_eq_some_iff_append, decide_eq_true_eq]
  constructor
  · rintro ⟨w, ⟨leaves, before, after, split, others⟩, target⟩
    exact ⟨before, w, after, split, leaves, target, by simpa using others⟩
  · rintro ⟨before, w, after, split, leaves, target, others⟩
    exact ⟨w, ⟨leaves, before, after, split, by simpa using others⟩, target⟩

namespace Script

/-! ## The reference -/

def isEvent (catalog : Catalog) (n : Node α) : Bool := (catalog.find? n.typeName).any NodeType.isEvent

def template? (catalog : Catalog) (part : NodeType → Option String) (n : Node α) : Option String :=
  (catalog.find? n.typeName).bind part

theorem isEvent_of_find {n : Node α} {t : NodeType} (known : catalog.find n.typeName = .ok t) :
    isEvent catalog n = t.isEvent := by
  rw [isEvent, Catalog.find?_of_find known, Option.any_some]

theorem template?_of_find {n : Node α} {t : NodeType} (known : catalog.find n.typeName = .ok t)
    (part : NodeType → Option String) : template? catalog part n = part t := by
  rw [template?, Catalog.find?_of_find known, Option.bind_some]

/-- The nodes with a body that the iterated successors of the root reach, each once, ordered by the least number
of steps that leads to them. -/
structure Inlined (g : Graph α) (catalog : Catalog) (root : Node α) (nodes : List (Node α)) : Prop where
  mem_iff : ∀ n, n ∈ nodes ↔ n ∈ g.nodes ∧ (g.visits root.id n.id).Nonempty ∧
    (template? catalog NodeType.body n).isSome
  ordered : nodes.Pairwise fun m n => ∃ j k, IsLeast (g.visits root.id m.id) j ∧
    IsLeast (g.visits root.id n.id) k ∧ j < k

def headerLines (catalog : Catalog) (root : Node α) (name : String) : List String :=
  (template? catalog NodeType.header root).toList.map fun template =>
    Template.render template fun key => if key = "func_name" then some name else root.properties.get? key

def bodyLines (debug : Bool) (catalog : Catalog) (n : Node α) : List String :=
  (template? catalog NodeType.body n).toList.flatMap fun template =>
    (if debug then ["    # " ++ n.id ++ " (" ++ n.label ++ ")"] else []) ++
      [Template.render template n.properties.get?]

def IsSection (debug : Bool) (g : Graph α) (catalog : Catalog) (root : Node α) (name : String)
    (lines : List String) : Prop :=
  ∃ nodes, Inlined g catalog root nodes ∧
    lines = headerLines catalog root name ++ nodes.flatMap (bodyLines debug catalog) ++ [""]

/-- The text of the script: the preamble, one section for each event in graph order, and the closing line. What this
shares with the compiler is determined on its own: successors by `Graph.successor?_eq_some_iff`, rendered templates by
`Template.render_eq` and `Template.splits_ofSegments`, and the names of handlers by `isHandlerName_handlerNames` and
`nodup_handlerNames`. -/
def IsSource (o : Options) (g : Graph α) (catalog : Catalog) (source : String) : Prop :=
  let roots := g.nodes.filter (isEvent catalog)
  let names := handlerNames o.settings [] (roots.map Node.id)
  ∃ sections, sections.length = roots.length ∧
    List.Forall₂ (fun part lines => IsSection o.debug g catalog part.1 part.2 lines) (roots.zip names)
      sections ∧
    source = "\n".intercalate (preamble o.settings ++ sections.flatten ++ [closing o.settings])

/-! ## The reference determines the text -/

theorem Inlined.unique {root : Node α} {nodes nodes' : List (Node α)} (h : Inlined g catalog root nodes)
    (h' : Inlined g catalog root nodes') : nodes = nodes' := by
  let Before (m n : Node α) : Prop := ∃ j k, IsLeast (g.visits root.id m.id) j ∧
    IsLeast (g.visits root.id n.id) k ∧ j < k
  have asymm : ∀ m n, Before m n → ¬ Before n m := by
    rintro m n ⟨j, k, hj, hk, less⟩ ⟨k', j', hk', hj', less'⟩
    rw [hj.unique hj', hk.unique hk'] at less
    omega
  have : Std.Antisymm Before := ⟨fun m n first second => absurd second (asymm m n first)⟩
  have : Std.Irrefl Before := ⟨fun n same => asymm n n same same⟩
  apply h.ordered.eq_of_mem_iff (r := Before) h'.ordered
  intro n
  rw [h.mem_iff, h'.mem_iff]

theorem IsSection.unique {debug : Bool} {root : Node α} {name : String} {lines lines' : List String}
    (h : IsSection debug g catalog root name lines) (h' : IsSection debug g catalog root name lines') :
    lines = lines' := by
  obtain ⟨nodes, inlined, rfl⟩ := h
  obtain ⟨nodes', inlined', rfl⟩ := h'
  rw [inlined.unique inlined']

theorem IsSource.unique {o : Options} {source source' : String} (h : IsSource o g catalog source)
    (h' : IsSource o g catalog source') : source = source' := by
  obtain ⟨sections, -, each, text⟩ := h
  obtain ⟨sections', -, each', text'⟩ := h'
  have functional : Relator.RightUnique fun (part : Node α × String) lines =>
      IsSection o.debug g catalog part.1 part.2 lines := fun _ _ _ first second => first.unique second
  rw [text, text', List.right_unique_forall₂' functional each each']

/-! ## Compiling meets the reference -/

theorem events_eq {nodes roots : List (Node α)} (found : Chain.events catalog nodes = .ok roots) :
    roots = nodes.filter (isEvent catalog) := by
  induction nodes generalizing roots with
  | nil =>
      cases found
      rfl
  | cons n rest ih =>
      obtain ⟨t, known, found⟩ := Result.bind_eq_ok.1 found
      obtain ⟨later, events, found⟩ := Result.bind_eq_ok.1 found
      cases found
      rw [List.filter_cons, isEvent_of_find known, ih events]

theorem roots_eq (h : g.Sound catalog) : Chain.roots g catalog = .ok (g.nodes.filter (isEvent catalog)) := by
  obtain ⟨roots, events, -⟩ := Chain.roots_ok h
  rw [events, events_eq events]

theorem step_eq (debug : Bool) {n : Node α} {t : NodeType} (known : catalog.find n.typeName = .ok t) :
    step debug t n = bodyLines debug catalog n := by
  rw [step, bodyLines, template?_of_find known]
  cases t.body with
  | none => rfl
  | some template => simp [comment]

theorem steps_eq {debug : Bool} {nodes : List (Node α)} {lines : List String}
    (inlined : steps debug catalog nodes = .ok lines) : lines = nodes.flatMap (bodyLines debug catalog) := by
  induction nodes generalizing lines with
  | nil =>
      cases inlined
      rfl
  | cons n rest ih =>
      obtain ⟨t, known, inlined⟩ := Result.bind_eq_ok.1 inlined
      obtain ⟨later, others, inlined⟩ := Result.bind_eq_ok.1 inlined
      cases inlined
      rw [List.flatMap_cons, step_eq debug known, ih others]

theorem header_eq {root : Node α} {t : NodeType} (known : catalog.find root.typeName = .ok t)
    (name : String) : header t root name = headerLines catalog root name := by
  rw [header, headerLines, template?_of_find known]
  cases t.header <;> rfl

theorem flatMap_filter_body {β : Type} (write : Node α → String → List β) (nodes : List (Node α)) :
    ((nodes.filter fun n => (template? catalog NodeType.body n).isSome).flatMap fun n =>
        (template? catalog NodeType.body n).toList.flatMap (write n)) =
      nodes.flatMap fun n => (template? catalog NodeType.body n).toList.flatMap (write n) := by
  induction nodes with
  | nil => rfl
  | cons n rest ih =>
      rw [List.filter_cons, List.flatMap_cons]
      cases body : template? catalog NodeType.body n with
      | none => exact ih
      | some template =>
          rw [← ih]
          simp [body]

theorem flatMap_bodyLines_filter (debug : Bool) (nodes : List (Node α)) :
    (nodes.filter fun n => (template? catalog NodeType.body n).isSome).flatMap (bodyLines debug catalog) =
      nodes.flatMap (bodyLines debug catalog) :=
  flatMap_filter_body _ nodes

theorem inlined_of_succession (h : g.Sound catalog) {root : Node α} {steps : List (Node α)}
    {cycleAt : Option String} (s : Chain.Succession g [] root.id steps cycleAt) :
    Inlined g catalog root (steps.filter fun n => (template? catalog NodeType.body n).isSome) := by
  constructor
  case mem_iff =>
    intro n
    rw [List.mem_filter, ← s.mem_ids_iff, ← and_assoc]
    refine and_congr_left fun _ => ⟨fun mem => ⟨s.among n mem, List.mem_map_of_mem mem⟩, ?_⟩
    rintro ⟨inGraph, mem⟩
    obtain ⟨m, mem, same⟩ := List.mem_map.1 mem
    rwa [List.inj_on_of_nodup_map h.distinct (s.among m mem) inGraph same] at mem
  case ordered => exact s.ordered.filter _

theorem isSection_of_handler (h : g.Sound catalog) {debug : Bool} {root : Node α} {name : String}
    {lines : List String} (written : handler debug g catalog root name = .ok lines) :
    IsSection debug g catalog root name lines := by
  obtain ⟨t, known, written⟩ := Result.bind_eq_ok.1 written
  obtain ⟨chain, walked, written⟩ := Result.bind_eq_ok.1 written
  obtain ⟨inlined, rendered, written⟩ := Result.bind_eq_ok.1 written
  cases written
  refine ⟨_, inlined_of_succession h (Chain.succession_ofNode walked), ?_⟩
  rw [flatMap_bodyLines_filter, header_eq known, steps_eq rendered]

theorem length_handlerNames (s : Settings) (taken ids : List String) :
    (handlerNames s taken ids).length = ids.length := by
  induction ids generalizing taken with
  | nil => rfl
  | cons id rest ih => rw [handlerNames, List.length_cons, List.length_cons, ih]

def HasHandlers (o : Options) (g : Graph α) (catalog : Catalog) (roots : List (Node α)) (names : List String)
    (source : String) : Prop :=
  ∃ sections, List.Forall₂ (fun part lines => handler o.debug g catalog part.1 part.2 = .ok lines) (roots.zip names)
      sections ∧
    source = "\n".intercalate (preamble o.settings ++ sections.flatten ++ [closing o.settings])

theorem hasHandlers_of_compile {o : Options} {bot : Bot} (compiled : compile o g catalog = .ok bot) :
    let roots := g.nodes.filter (isEvent catalog)
    HasHandlers o g catalog roots (handlerNames o.settings [] (roots.map Node.id)) bot.source ∧
      bot.handlers = roots.length := by
  obtain ⟨roots, events, afterRoots⟩ := Result.bind_eq_ok.1 compiled
  obtain ⟨lines, written, afterLines⟩ := Result.bind_eq_ok.1 afterRoots
  obtain ⟨warnings, -, result⟩ := Result.bind_eq_ok.1 afterLines
  obtain ⟨sections, each, joined⟩ := Result.bind_eq_ok.1 written
  rw [Result.mapM_eq_ok] at each
  rw [← Except.ok.inj result, ← Except.ok.inj joined, ← events_eq events]
  exact ⟨⟨sections, each, by dsimp only⟩, by dsimp only⟩

theorem isSource_of_compile (h : g.Sound catalog) {o : Options} {bot : Bot}
    (compiled : compile o g catalog = .ok bot) :
    IsSource o g catalog bot.source ∧ bot.handlers = g.nodes.countP (isEvent catalog) := by
  obtain ⟨⟨sections, each, text⟩, count⟩ := hasHandlers_of_compile compiled
  constructor
  · refine ⟨sections, ?_, each.imp fun part lines => isSection_of_handler h, text⟩
    rw [← each.length_eq, List.length_zip, length_handlerNames, List.length_map, Nat.min_self]
  · rw [count, List.countP_eq_length_filter]

theorem isSource_iff (h : g.Sound catalog) {o : Options} {bot : Bot}
    (compiled : compile o g catalog = .ok bot) (source : String) :
    IsSource o g catalog source ↔ source = bot.source := by
  have meets := (isSource_of_compile h compiled).1
  exact ⟨fun other => other.unique meets, fun same => same ▸ meets⟩

end Script
end FlowScript
