import FlowScript.Proofs.Properties
import FlowScript.Proofs.Script.Blocks
import FlowScript.Proofs.Script.Dependence
import FlowScript.Proofs.Script.Warnings

/-!
# Scripts of graphs with altered nodes

A change of nodes that keeps their ids and types (`Node.Keeps`) passes through everything that compiling does: walks,
chains and blocks are those of the old graph with the nodes altered in them. For the new value of a property,
`Block.text_withProperty` says which blocks read differently.
-/

namespace FlowScript

variable {α : Type} {g : Graph α} {catalog : Catalog} {f : Node α → Node α}

/-! ## Altering nodes -/

structure Node.Keeps (f : Node α → Node α) : Prop where
  id : ∀ n, (f n).id = n.id
  typeName : ∀ n, (f n).typeName = n.typeName
  keys : ∀ n key, (f n).properties.contains key = n.properties.contains key

def Graph.mapNodes (f : Node α → Node α) (g : Graph α) : Graph α := { g with nodes := g.nodes.map f }

def Chain.map (f : Node α → Node α) (c : Chain α) : Chain α := ⟨f c.root, c.steps.map f, c.cycleAt⟩

def Block.map (f : Node α → Node α) : Block α → Block α
  | .line text => .line text
  | .header root name template => .header (f root) name template
  | .comment n => .comment (f n)
  | .body n template => .body (f n) template

namespace Node.Keeps

theorem ids (keeps : Keeps f) (nodes : List (Node α)) : (nodes.map f).map Node.id = nodes.map Node.id := by
  rw [List.map_map]
  exact List.map_congr_left fun n _ => keeps.id n

theorem template? (keeps : Keeps f) (part : NodeType → Option String) (n : Node α) :
    Script.template? catalog part (f n) = Script.template? catalog part n := by
  rw [Script.template?, Script.template?, keeps.typeName]

theorem isEvent (keeps : Keeps f) (n : Node α) : Script.isEvent catalog (f n) = Script.isEvent catalog n := by
  rw [Script.isEvent, Script.isEvent, keeps.typeName]

theorem filter_isEvent (keeps : Keeps f) (nodes : List (Node α)) :
    (nodes.map f).filter (Script.isEvent catalog) = (nodes.filter (Script.isEvent catalog)).map f := by
  rw [List.filter_map]
  congr 2
  funext n
  exact keeps.isEvent n

theorem sound_mapNodes (keeps : Keeps f) (h : g.Sound catalog) : (g.mapNodes f).Sound catalog where
  distinct := by
    rw [Graph.ids, Graph.mapNodes, keeps.ids]
    exact h.distinct
  anchored := by
    rw [Graph.ids, Graph.mapNodes, keeps.ids]
    exact h.anchored
  typed n mem := by
    obtain ⟨old, own, rfl⟩ := List.mem_map.1 mem
    rw [keeps.typeName]
    exact h.typed old own

/-! ## Chains -/

theorem inStep (keeps : Keeps f) (g : Graph α) :
    g.InStep (fun n n' => f n = n') (fun _ => True) (g.mapNodes f) where
  successors _ _ := rfl
  targets _ next _ _ := by
    refine Graph.node?_rel (fun n n' same => by rw [← same, keeps.id]) ?_ next
    rw [Graph.mapNodes, List.forall₂_map_right_iff, List.forall₂_same]
    exact fun _ _ => rfl
  closed _ _ _ := trivial

theorem ofNode (keeps : Keeps f) {root : Node α} {c : Chain α} (walked : Chain.ofNode g root = .ok c) :
    Chain.ofNode (g.mapNodes f) (f root) = .ok (c.map f) := by
  have sameId : root.id = (f root).id := (keeps.id root).symm
  have agree := (keeps.inStep g).ofNode_agree trivial sameId
  rw [walked] at agree
  obtain ⟨c', walked', sameRoot, sameRoot', steps, cut⟩ := agree.exists_ok
  rw [← List.forall₂_map_left_iff, List.forall₂_eq_eq_eq] at steps
  rw [walked', Chain.map, sameRoot, ← sameRoot', steps, cut]

theorem walked (keeps : Keeps f) {roots : List (Node α)} {cs : List (Chain α)}
    (walked : List.Forall₂ (fun root c => Chain.ofNode g root = .ok c) roots cs) :
    List.Forall₂ (fun root c => Chain.ofNode (g.mapNodes f) root = .ok c) (roots.map f) (cs.map (Chain.map f)) := by
  rw [List.forall₂_map_left_iff, List.forall₂_map_right_iff]
  exact walked.imp fun _ _ => keeps.ofNode

/-! ## Blocks -/

theorem headerBlocks (keeps : Keeps f) (root : Node α) (name : String) :
    Script.headerBlocks catalog (f root) name = (Script.headerBlocks catalog root name).map (Block.map f) := by
  rw [Script.headerBlocks, Script.headerBlocks, keeps.template?, List.map_map]
  rfl

theorem bodyBlocks (keeps : Keeps f) (debug : Bool) (n : Node α) :
    Script.bodyBlocks debug catalog (f n) = (Script.bodyBlocks debug catalog n).map (Block.map f) := by
  rw [Script.bodyBlocks, Script.bodyBlocks, keeps.template?, List.map_flatMap]
  congr 1
  funext template
  cases debug <;> rfl

theorem chainBlocks (keeps : Keeps f) (debug : Bool) (c : Chain α) (name : String) :
    Script.chainBlocks debug catalog (c.map f) name =
      (Script.chainBlocks debug catalog c name).map (Block.map f) := by
  simp only [Script.chainBlocks, Chain.map, keeps.headerBlocks, List.flatMap_map, keeps.bodyBlocks, List.map_append,
    List.map_flatMap]
  rfl

theorem openBlocks (keeps : Keeps f) (o : Script.Options) (cs : List (Chain α)) :
    Script.openBlocks o catalog (cs.map (Chain.map f)) = (Script.openBlocks o catalog cs).map (Block.map f) := by
  have ids : (cs.map (Chain.map f)).map (fun c => c.root.id) = cs.map fun c => c.root.id := by
    rw [List.map_map]
    exact List.map_congr_left fun c _ => keeps.id c.root
  have lines (texts : List String) : (texts.map Block.line).map (Block.map f) = texts.map Block.line := by
    rw [List.map_map]
    rfl
  simp only [Script.openBlocks, ids, List.map_append, lines, List.zip_map_left, List.flatMap_map, Prod.map_fst,
    Prod.map_snd, keeps.chainBlocks, List.map_flatMap, id_eq]

/-! ## Warnings -/

theorem fanOuts (keeps : Keeps f) (g : Graph α) : Diagnostic.fanOuts (g.mapNodes f) = Diagnostic.fanOuts g := by
  rw [Diagnostic.fanOuts, Diagnostic.fanOuts, Graph.mapNodes, List.filterMap_map]
  congr 1
  funext n
  simp only [Function.comp_apply, keeps.id]
  rfl

theorem cycles (keeps : Keeps f) (cs : List (Chain α)) :
    Diagnostic.cycles (cs.map (Chain.map f)) = Diagnostic.cycles cs := by
  rw [Diagnostic.cycles, Diagnostic.cycles, List.filterMap_map]
  congr 1
  funext c
  simp only [Function.comp_apply, Chain.map, keeps.id]

theorem unreached (keeps : Keeps f) (g : Graph α) (cs : List (Chain α)) :
    Diagnostic.unreached (g.mapNodes f) (cs.map (Chain.map f)) = Diagnostic.unreached g cs := by
  have ids : (cs.map (Chain.map f)).flatMap Diagnostic.idsOf = cs.flatMap Diagnostic.idsOf := by
    rw [List.flatMap_map]
    refine List.flatMap_congr fun c _ => ?_
    simp only [Diagnostic.idsOf, Chain.map, keeps.id, keeps.ids]
  rw [Diagnostic.unreached, Diagnostic.unreached, ids, Graph.mapNodes, List.filter_map, List.map_map]
  simp only [Function.comp_def, keeps.id]

theorem missing (keeps : Keeps f) (nodes : List (Node α)) :
    Diagnostic.missing catalog (nodes.map f) = Diagnostic.missing catalog nodes := by
  induction nodes with
  | nil => rfl
  | cons n rest ih =>
      rw [List.map_cons, Diagnostic.missing, Diagnostic.missing, keeps.typeName, keeps.id, ih]
      simp only [Diagnostic.missingKeys, keeps.keys]

theorem analyze (keeps : Keeps f) (h : g.Sound catalog) :
    Diagnostic.analyze (g.mapNodes f) catalog = Diagnostic.analyze g catalog := by
  obtain ⟨cs, walked⟩ := Script.exists_walked h
  have walked' := keeps.walked walked
  rw [← keeps.filter_isEvent] at walked'
  rw [Diagnostic.analyze_of_walked h walked, Diagnostic.analyze_of_walked (keeps.sound_mapNodes h) walked',
    keeps.fanOuts, keeps.cycles, keeps.unreached, Graph.mapNodes, keeps.missing]

theorem assembled (keeps : Keeps f) (h : g.Sound catalog) (o : Script.Options) :
    ∃ blocks bot bot', Script.Assembled o g catalog blocks bot ∧
      Script.Assembled o (g.mapNodes f) catalog (blocks.map (Block.map f)) bot' ∧
      Script.eventNames o (g.mapNodes f) catalog = Script.eventNames o g catalog ∧
      bot'.diagnostics = bot.diagnostics := by
  have h' : (g.mapNodes f).Sound catalog := keeps.sound_mapNodes h
  obtain ⟨cs, walked⟩ := Script.exists_walked h
  have walked' := keeps.walked walked
  rw [← keeps.filter_isEvent] at walked'
  obtain ⟨bot, assembled⟩ := Script.exists_assembled h o walked
  obtain ⟨bot', assembled'⟩ := Script.exists_assembled h' o walked'
  refine ⟨_, bot, bot', assembled, ?_, ?_, ?_⟩
  · rw [List.map_append, ← keeps.openBlocks]
    exact assembled'
  · rw [Script.eventNames, Graph.mapNodes, keeps.filter_isEvent, keeps.ids, Script.eventNames]
  · have analyzed := Script.analyze_of_compile assembled.compiled
    have analyzed' := Script.analyze_of_compile assembled'.compiled
    rw [keeps.analyze h, analyzed] at analyzed'
    exact (Except.ok.inj analyzed').symm

end Node.Keeps

/-! ## The new value of a property -/

def Node.withProperty (id key value : String) (n : Node α) : Node α :=
  if n.id = id ∧ n.properties.contains key then { n with properties := n.properties.insert key value } else n

theorem Node.keeps_withProperty (id key value : String) :
    Keeps (withProperty id key value : Node α → Node α) where
  id n := by
    unfold withProperty
    split <;> rfl
  typeName n := by
    unfold withProperty
    split <;> rfl
  keys n other := by
    unfold withProperty
    split
    · rename_i own
      exact Properties.contains_insert_of_contains own.2
    · rfl

theorem Node.label_withProperty (id key value : String) (n : Node α) :
    (n.withProperty id key value).label = n.label := by
  unfold withProperty
  split <;> rfl

theorem Node.get?_withProperty {id key value template : String} {n : Node α}
    (apart : n.id = id → key ∉ Template.keys template) :
    ∀ other ∈ Template.keys template,
      (n.withProperty id key value).properties.get? other = n.properties.get? other := by
  intro other mem
  unfold withProperty
  split
  · rename_i own
    have other_ne : other ≠ key := fun same => apart own.1 (same ▸ mem)
    rw [Properties.get?_insert, if_neg other_ne]
  · rfl

theorem Block.text_withProperty {id key value : String} {b : Block α}
    (differs : (b.map (Node.withProperty id key value)).text ≠ b.text) :
    ∃ n template, b.rendered? = some (n, template) ∧ n.id = id ∧ key ∈ Template.keys template := by
  cases b with
  | line text => exact absurd rfl differs
  | comment n =>
      refine absurd ?_ differs
      simp only [map, text, Script.comment, (Node.keeps_withProperty id key value).id, Node.label_withProperty]
  | header root name template =>
      refine ⟨root, template, rfl, ?_⟩
      by_contra apart
      refine differs (Template.render_congr fun other mem => ?_)
      simp only [value?, Node.get?_withProperty (not_and.1 apart) other mem]
  | body n template =>
      refine ⟨n, template, rfl, ?_⟩
      by_contra apart
      refine differs (Template.render_congr fun other mem => ?_)
      simp only [value?, Node.get?_withProperty (not_and.1 apart) other mem]

theorem Graph.outcome_setProperty (h : g.Sound catalog) {id key : String} (value : String) {n : Node α}
    (found : g.node id = .ok n) (has : n.properties.contains key = true) :
    (setProperty id key value).outcome g = (.ok (), g.mapNodes (Node.withProperty id key value)) := by
  obtain ⟨own, isNode⟩ := node_ok found
  have placed : g.replaceNode id { n with properties := n.properties.insert key value } =
      g.mapNodes (Node.withProperty id key value) := by
    refine congrArg (fun nodes => { g with nodes }) (List.map_congr_left fun old mem => ?_)
    split
    · rename_i same
      obtain rfl : old = n := List.inj_on_of_nodup_map h.distinct mem own (same.trans isNode.symm)
      exact (if_pos ⟨same, has⟩).symm
    · rename_i other
      exact (if_neg fun both => other both.1).symm
  have changed : (g.node id >>= fun n => if n.properties.contains key then
      .ok { n with properties := n.properties.insert key value } else .error (.unknownProperty id key)) =
      .ok { n with properties := n.properties.insert key value } :=
    Result.bind_eq_ok.2 ⟨n, found, if_pos has⟩
  rw [setProperty, outcome_editNode, changed]
  exact congrArg (Prod.mk _) placed

end FlowScript
