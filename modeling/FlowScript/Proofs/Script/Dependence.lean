import FlowScript.Catalog.Builtin
import FlowScript.Proofs.Graph.Edits
import FlowScript.Proofs.Result
import FlowScript.Proofs.Script.Locality
import FlowScript.Proofs.Lists

/-!
# Graphs with the same script

Two graphs have the same script if their nodes agree in what the compiler reads of them and if every node has
the same successor in both (`Graph.Alike`). Walks over such graphs run in lockstep, so compiling either fails in
the same way for both or gives the same text (`Script.compile_noninterference`).
-/

namespace FlowScript

variable {α : Type} {catalog : Catalog}

/-! ## What has to agree -/

/-- Nodes that differ in position, ports and, unless labels count, label at most. -/
structure Node.Alike (labels : Bool) (n n' : Node α) : Prop where
  id : n.id = n'.id
  typeName : n.typeName = n'.typeName
  properties : n.properties = n'.properties
  label : labels = true → n.label = n'.label

structure Graph.Alike (labels : Bool) (g g' : Graph α) : Prop where
  nodes : List.Forall₂ (Node.Alike labels) g.nodes g'.nodes
  successors : ∀ n ∈ g.nodes, g.successor? n.id = g'.successor? n.id

structure Bot.SameScript (b b' : Bot) : Prop where
  source : b.source = b'.source
  hash : b.hash = b'.hash
  handlers : b.handlers = b'.handlers

theorem Node.alike_ids {labels : Bool} {nodes nodes' : List (Node α)}
    (alike : List.Forall₂ (Node.Alike labels) nodes nodes') : nodes.map Node.id = nodes'.map Node.id := by
  rw [← List.forall₂_eq_eq_eq, List.forall₂_map_left_iff, List.forall₂_map_right_iff]
  exact alike.imp fun _ _ => Node.Alike.id

namespace Graph.Alike

variable {labels : Bool} {g g' : Graph α}

theorem successor? (h : g.Alike labels g') {id : String} (inGraph : id ∈ g.ids) :
    g.successor? id = g'.successor? id := by
  obtain ⟨n, mem, rfl⟩ := List.mem_map.1 inGraph
  exact h.successors n mem

theorem inStep (h : g.Alike labels g') : g.InStep (Node.Alike labels) (· ∈ g.ids) g' where
  successors _ inGraph := h.successor? inGraph
  targets _ next _ _ := node?_rel (fun _ _ => Node.Alike.id) h.nodes next
  closed id n found := List.mem_map.2 ⟨n, List.mem_of_find?_eq_some found, by simpa using List.find?_some found⟩

end Graph.Alike

/-! ## Walks in lockstep -/

namespace Chain

variable {labels : Bool} {g g' : Graph α}

theorem events_agree {r : Node α → Node α → Prop} (typed : ∀ n n', r n n' → n.typeName = n'.typeName)
    {nodes nodes' : List (Node α)} (related : List.Forall₂ r nodes nodes') :
    Result.Agree (List.Forall₂ r) (events catalog nodes) (events catalog nodes') := by
  induction related with
  | nil => exact .both .nil
  | @cons n n' rest rest' head _ ih =>
      rw [events, events, typed n n' head]
      refine (Result.Agree.same _).bind fun t t' sameType => ih.bind fun later later' others => .both ?_
      subst sameType
      split
      · exact .cons head others
      · exact others

theorem roots_agree (h : g.Alike labels g') :
    Result.Agree (List.Forall₂ fun root root' => root ∈ g.nodes ∧ root.Alike labels root')
      (roots g catalog) (roots g' catalog) :=
  events_agree (fun _ _ both => both.2.typeName) ((List.forall₂_and_left _ _).2 ⟨fun _ => id, h.nodes⟩)

theorem ofNode_agree (h : g.Alike labels g') {root root' : Node α} (mem : root ∈ g.nodes)
    (alike : root.Alike labels root') :
    Result.Agree (fun chain chain' => List.Forall₂ (Node.Alike labels) chain.steps chain'.steps)
      (ofNode g root) (ofNode g' root') :=
  (h.inStep.ofNode_agree (List.mem_map_of_mem mem) alike.id).imp fun _ _ both => both.2.2.1

end Chain

/-! ## Warnings, sections and scripts -/

namespace Diagnostic

theorem missing_congr {labels : Bool} {nodes nodes' : List (Node α)}
    (alike : List.Forall₂ (Node.Alike labels) nodes nodes') :
    missing catalog nodes = missing catalog nodes' := by
  induction alike with
  | nil => rfl
  | cons head _ ih => simp only [missing, missingKeys, head.id, head.typeName, head.properties, ih]

theorem analyze_agree {labels : Bool} {g g' : Graph α} (h : g.Alike labels g') :
    Result.Agree (fun _ _ => True) (analyze g catalog) (analyze g' catalog) := by
  refine (Chain.roots_agree h).bind fun roots roots' events => ?_
  have walks := Result.Agree.mapM (fun root root' (both : root ∈ g.nodes ∧ root.Alike labels root') =>
    Chain.ofNode_agree h both.1 both.2) events
  refine walks.bind fun chains chains' _ => ?_
  rw [missing_congr h.nodes]
  exact (Result.Agree.same _).bind fun gaps gaps' _ => .both trivial

end Diagnostic

namespace Script

variable {debug : Bool} {o : Options} {g g' : Graph α}

theorem steps_congr {nodes nodes' : List (Node α)} (alike : List.Forall₂ (Node.Alike debug) nodes nodes') :
    steps debug catalog nodes = steps debug catalog nodes' := by
  induction alike with
  | nil => rfl
  | @cons n n' rest rest' head _ ih =>
      have sameLines : ∀ t, step debug t n = step debug t n' := by
        intro t
        cases debug with
        | false => simp only [step, head.properties, Bool.false_eq_true, if_false]
        | true => simp only [step, comment, head.id, head.properties, head.label rfl]
      simp only [steps, sameLines, head.typeName, ih]

theorem handler_congr (h : g.Alike debug g') {root root' : Node α} (mem : root ∈ g.nodes)
    (alike : root.Alike debug root') (name : String) :
    handler debug g catalog root name = handler debug g' catalog root' name := by
  have sameHeader : ∀ t, header t root name = header t root' name := fun t => by
    simp only [header, alike.properties]
  rw [handler, handler, alike.typeName]
  apply Result.Agree.eq
  refine (Result.Agree.same _).bind fun t t' sameType => ?_
  refine (Chain.ofNode_agree h mem alike).bind fun chain chain' related => ?_
  rw [sameType, sameHeader, steps_congr related]
  exact .same _

theorem blocks_congr (h : g.Alike o.debug g') {roots roots' : List (Node α)}
    (related : List.Forall₂ (fun root root' => root ∈ g.nodes ∧ root.Alike o.debug root') roots roots') :
    blocks o g catalog roots = blocks o g' catalog roots' := by
  have sameIds : roots.map Node.id = roots'.map Node.id := Node.alike_ids (related.imp fun _ _ => And.right)
  rw [blocks, blocks, sameIds]
  apply Result.Agree.eq
  refine (Result.Agree.mapM (s := (· = ·)) ?_ (Lists.forall₂_zip related _)).bind fun sections sections' same => ?_
  · rintro ⟨root, name⟩ ⟨root', name'⟩ ⟨⟨mem, alike⟩, sameName⟩
    cases sameName
    dsimp only at mem alike ⊢
    rw [handler_congr h mem alike name]
    exact .same _
  · rw [List.forall₂_eq_eq_eq] at same
    exact .both (by rw [same])

theorem compile_agree (o : Options) (catalog : Catalog) (h : g.Alike o.debug g') :
    Result.Agree Bot.SameScript (compile o g catalog) (compile o g' catalog) := by
  refine (Chain.roots_agree h).bind fun roots roots' events => ?_
  rw [blocks_congr h events]
  refine (Result.Agree.same _).bind fun lines lines' same => ?_
  refine (Diagnostic.analyze_agree h).bind fun warnings warnings' _ => .both ?_
  exact ⟨by dsimp only; rw [same], by dsimp only; rw [same], events.length_eq⟩

end Script

/-! ## A wire that is not the first of its node -/

namespace Graph

variable {labels : Bool} {g g' : Graph α} {w : Wire}

theorem Alike.refl (labels : Bool) (g : Graph α) : g.Alike labels g where
  nodes := List.forall₂_same.2 fun _ _ => ⟨rfl, rfl, rfl, fun _ => rfl⟩
  successors _ _ := rfl

theorem alike_append (older : g.firstOutgoing? w.source ≠ none) :
    g.Alike labels { g with wires := g.wires ++ [w] } where
  nodes := (Alike.refl labels g).nodes
  successors n _ := by
    simp only [successor?, firstOutgoing?, List.find?_append]
    by_cases same : w.source = n.id
    · obtain ⟨first, found⟩ := Option.ne_none_iff_exists'.1 older
      rw [firstOutgoing?, same] at found
      rw [found, Option.some_or]
    · have other : [w].find? (fun v => v.source = n.id) = none := by simpa using same
      rw [other, Option.or_none]

theorem alike_of_connect {answer : Bool} (connected : (connect w).outcome g = (.ok answer, g'))
    (older : g.firstOutgoing? w.source ≠ none) : g.Alike labels g' := by
  rw [outcome_connect] at connected
  cases allowed : g.checkWire w with
  | error e =>
      rw [allowed] at connected
      cases connected
  | ok _ =>
      rw [allowed] at connected
      dsimp only at connected
      split at connected
      · cases connected
        exact .refl labels g
      · cases connected
        exact alike_append older

end Graph

namespace Script

/-- A script depends on the nodes, as far as `Node.Alike` compares them, and on the oldest wire of each of them.
A wire that is drawn from a node with an older one changes nothing. -/
theorem compile_noninterference (o : Options) (catalog : Catalog) :
    (∀ g g' : Graph α, g.Alike o.debug g' →
      Result.Agree Bot.SameScript (compile o g catalog) (compile o g' catalog)) ∧
      ∀ (g g' : Graph α) (w : Wire) (answer : Bool), (Graph.connect w).outcome g = (.ok answer, g') →
        g.firstOutgoing? w.source ≠ none →
        Result.Agree Bot.SameScript (compile o g catalog) (compile o g' catalog) := by
  constructor
  · intro g g' alike
    exact compile_agree o catalog alike
  · intro g g' w answer connected older
    exact compile_agree o catalog (Graph.alike_of_connect connected older)

theorem compile_noninterference_rewired :
    let command (x : Float) (label : String) (ports : PortCounts) : Node Float :=
      ⟨"a", "Command", ⟨x, 0⟩, label, .ofList [("trigger", "hi")], ports⟩
    let print (id : String) (x : Float) (ports : PortCounts) : Node Float :=
      ⟨id, "Print Console", ⟨x, 0⟩, id, .ofList [("text", id)], ports⟩
    let g : Graph Float := ⟨[command 0 "first" ⟨0, 1⟩, print "b" 1 ⟨1, 1⟩, print "c" 2 ⟨1, 1⟩],
      [⟨"a", 0, "b", 0⟩, ⟨"b", 0, "c", 0⟩], 3⟩
    let g' : Graph Float := ⟨[command 7 "second" ⟨2, 2⟩, print "b" 8 ⟨3, 3⟩, print "c" 9 ⟨4, 4⟩],
      [⟨"b", 2, "c", 3⟩, ⟨"a", 1, "b", 2⟩, ⟨"a", 0, "c", 0⟩, ⟨"b", 0, "b", 1⟩], 12⟩
    (compile {} g Catalog.builtin).map Bot.handlers = .ok 1 ∧
      Result.Agree Bot.SameScript (compile {} g Catalog.builtin) (compile {} g' Catalog.builtin) ∧
      ∃ g'', (Graph.connect ⟨"a", 0, "c", 0⟩).outcome g = (.ok true, g'') ∧
        Result.Agree Bot.SameScript (compile { debug := true } g Catalog.builtin)
          (compile { debug := true } g'' Catalog.builtin) := by
  intro command print g g'
  have alike : g.Alike false g' := by
    have command_alike : (command 0 "first" ⟨0, 1⟩).Alike false (command 7 "second" ⟨2, 2⟩) :=
      ⟨rfl, rfl, rfl, nofun⟩
    have print_alike (id : String) (x x' : Float) (ports ports' : PortCounts) :
        (print id x ports).Alike false (print id x' ports') := ⟨rfl, rfl, rfl, nofun⟩
    constructor
    case nodes => exact .cons command_alike (.cons (print_alike ..) (.cons (print_alike ..) .nil))
    case successors => decide +kernel
  have drawn : ((Graph.connect ⟨"a", 0, "c", 0⟩).outcome g).1 = .ok true := by decide +kernel
  refine ⟨by decide +kernel, (compile_noninterference {} Catalog.builtin).1 g g' alike, _,
    Prod.ext drawn rfl, ?_⟩
  exact (compile_noninterference { debug := true } Catalog.builtin).2 g _ _ true (Prod.ext drawn rfl) nofun

end Script
end FlowScript
