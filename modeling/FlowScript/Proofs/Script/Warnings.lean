import FlowScript.Proofs.Script.Liveness
import FlowScript.Proofs.Template
import FlowScript.Proofs.Lists

/-!
# The warnings of a graph

`Diagnostic.Exact` says which warnings a graph deserves, in which order, in terms of iterated successors and
without walking anything. The analysis of a sound graph gives exactly these (`Diagnostic.analyze_exact`).
-/

namespace FlowScript

variable {α : Type} {g : Graph α} {catalog : Catalog}

namespace Diagnostic

/-! ## What a graph deserves -/

def degree (g : Graph α) (n : Node α) : Nat := g.wires.countP (·.source = n.id)

def IsFanOut (g : Graph α) (n : Node α) (d : Diagnostic) : Prop :=
  ∃ next, g.successor? n.id = some next ∧ d = .fanOut n.id (degree g n) next

def IsCut (g : Graph α) (root : Node α) (d : Diagnostic) : Prop :=
  ∃ id, g.FirstRepeated root.id id ∧ d = .cycleTruncated root.id id

def IsDead (n : Node α) (d : Diagnostic) : Prop := d = .unreachable n.id

open Classical in
/-- One warning for every node with several wires, then one for every event without a last successor, then one
for every node that is not live, each time in graph order; then gaps in properties. No warning comes twice. -/
structure Exact (g : Graph α) (catalog : Catalog) (warnings : List Diagnostic) : Prop where
  parts : ∃ fans cuts dead gaps, warnings = fans ++ cuts ++ dead ++ gaps ∧
    List.Forall₂ (IsFanOut g) (g.nodes.filter fun n => 2 ≤ degree g n) fans ∧
    List.Forall₂ (IsCut g) (g.nodes.filter fun n => Script.isEvent catalog n ∧ g.Endless n.id) cuts ∧
    List.Forall₂ IsDead (g.nodes.filter fun n => ¬ g.Live catalog n.id) dead ∧
    ∀ d ∈ gaps, ∃ id key, d = .missingProperty id key
  distinct : warnings.Nodup

/-! ## One kind after the other -/

theorem fanOuts_exact (g : Graph α) :
    List.Forall₂ (IsFanOut g) (g.nodes.filter fun n => 2 ≤ degree g n) (fanOuts g) := by
  refine Lists.forall₂_filter_filterMap (r := (· = ·)) ?_ ?_ (List.forall₂_refl _)
  · rintro n _ rfl few
    rw [decide_eq_false_iff_not, degree, List.countP_eq_length_filter] at few
    rw [Graph.outgoing]
    split
    · rename_i several
      rw [several] at few
      simp at few
    · rfl
  · rintro n _ rfl several
    rw [decide_eq_true_iff, degree, List.countP_eq_length_filter] at several
    cases leaving : g.outgoing n.id with
    | nil => rw [← Graph.outgoing, leaving] at several; cases several
    | cons first others =>
        cases others with
        | nil => rw [← Graph.outgoing, leaving] at several; simp at several
        | cons second more =>
            refine ⟨_, rfl, first.target, ?_, ?_⟩
            · rw [Graph.successor?, Graph.firstOutgoing?, ← List.head?_filter, ← Graph.outgoing, leaving]
              rfl
            · rw [degree, List.countP_eq_length_filter, ← Graph.outgoing, leaving]
              rfl

theorem walked_of_mapM {roots : List (Node α)} {chains : List (Chain α)}
    (walked : roots.mapM (Chain.ofNode g) = .ok chains) :
    List.Forall₂ (fun root c => c.root = root ∧ Chain.Succession g [] root.id c.steps c.cycleAt) roots
      chains :=
  (Result.mapM_eq_ok.1 walked).imp fun _ _ each => ⟨Chain.root_of_ofNode each, Chain.succession_ofNode each⟩

open Classical in
theorem cycles_exact {roots : List (Node α)} {chains : List (Chain α)}
    (walked : List.Forall₂ (fun root c => c.root = root ∧ Chain.Succession g [] root.id c.steps c.cycleAt)
      roots chains) :
    List.Forall₂ (IsCut g) (roots.filter fun root => g.Endless root.id) (cycles chains) := by
  refine Lists.forall₂_filter_filterMap ?_ ?_ walked
  · rintro root c ⟨-, s⟩ ends
    rw [decide_eq_false_iff_not, s.endless_iff, Option.not_isSome_iff_eq_none] at ends
    rw [ends, Option.map_none]
  · rintro root c ⟨same, s⟩ endless
    rw [decide_eq_true_iff, s.endless_iff, Option.isSome_iff_exists] at endless
    obtain ⟨again, isCut⟩ := endless
    rw [isCut] at s
    refine ⟨_, by rw [isCut, Option.map_some], again, s.firstRepeated, by rw [same]⟩

theorem mem_idsOf_iff {root : Node α} {c : Chain α} (same : c.root = root)
    (s : Chain.Succession g [] root.id c.steps c.cycleAt) (id : String) :
    id ∈ idsOf c ↔ ∃ k, g.nthSuccessor? k root.id = some id := by
  rw [idsOf, List.mem_cons, s.mem_ids_iff, same]
  constructor
  · rintro (rfl | ⟨k, -, reached⟩)
    · exact ⟨0, rfl⟩
    · exact ⟨k, reached⟩
  · rintro ⟨k, reached⟩
    cases k with
    | zero => exact .inl (Option.some.inj reached).symm
    | succ k => exact .inr ⟨k + 1, by omega, reached⟩

theorem mem_flatMap_idsOf_iff {roots : List (Node α)} {chains : List (Chain α)}
    (walked : List.Forall₂ (fun root c => c.root = root ∧ Chain.Succession g [] root.id c.steps c.cycleAt)
      roots chains) (id : String) :
    id ∈ chains.flatMap idsOf ↔ ∃ root ∈ roots, ∃ k, g.nthSuccessor? k root.id = some id := by
  induction walked with
  | nil => simp
  | cons head _ ih =>
      rw [List.flatMap_cons, List.mem_append, ih, mem_idsOf_iff head.1 head.2]
      simp

open Classical in
theorem unreached_exact {chains : List (Chain α)}
    (walked : List.Forall₂ (fun root c => c.root = root ∧ Chain.Succession g [] root.id c.steps c.cycleAt)
      (g.nodes.filter (Script.isEvent catalog)) chains) :
    List.Forall₂ IsDead (g.nodes.filter fun n => ¬ g.Live catalog n.id) (unreached g chains) := by
  have live_iff (id : String) : id ∈ chains.flatMap idsOf ↔ g.Live catalog id := by
    rw [mem_flatMap_idsOf_iff walked]
    simp only [List.mem_filter, Graph.Live, and_assoc]
  simp only [unreached, live_iff, List.forall₂_map_right_iff, List.forall₂_same]
  exact fun _ _ => rfl

theorem missing_exact {nodes : List (Node α)} {gaps : List Diagnostic}
    (found : missing catalog nodes = .ok gaps) (distinct : (nodes.map Node.id).Nodup) :
    (∀ d ∈ gaps, ∃ id ∈ nodes.map Node.id, ∃ key, d = .missingProperty id key) ∧ gaps.Nodup := by
  induction nodes generalizing gaps with
  | nil =>
      cases found
      simp
  | cons n rest ih =>
      obtain ⟨t, -, found⟩ := Result.bind_eq_ok.1 found
      obtain ⟨later, others, found⟩ := Result.bind_eq_ok.1 found
      cases found
      obtain ⟨fresh, distinct⟩ := List.nodup_cons.1 distinct
      obtain ⟨among, once⟩ := ih others distinct
      constructor
      · intro d mem
        rcases List.mem_append.1 mem with mem | mem
        · obtain ⟨key, -, rfl⟩ := List.mem_map.1 mem
          exact ⟨n.id, by simp, key, rfl⟩
        · obtain ⟨id, inRest, key, rfl⟩ := among d mem
          exact ⟨id, List.mem_cons_of_mem _ inRest, key, rfl⟩
      · rw [List.nodup_append]
        have keys : (missingKeys t n).Nodup := (Template.firstAppearances_distinct _).nodup.filter _
        refine ⟨keys.map fun _ _ same => (Diagnostic.missingProperty.inj same).2, once, ?_⟩
        -- Gaps of different nodes name different ids.
        rintro d own _ other rfl
        obtain ⟨key, -, rfl⟩ := List.mem_map.1 own
        obtain ⟨id, mem, key', same⟩ := among _ other
        exact fresh ((Diagnostic.missingProperty.inj same).1 ▸ mem)

def Lacks (catalog : Catalog) (n : Node α) (key : String) : Prop :=
  (∃ template, (Script.template? catalog NodeType.header n = some template ∨
    Script.template? catalog NodeType.body n = some template) ∧ key ∈ Template.keys template) ∧
  n.properties.get? key = none

theorem mem_missingKeys_iff {n : Node α} {t : NodeType} (known : catalog.find n.typeName = .ok t) (key : String) :
    key ∈ missingKeys t n ↔ Lacks catalog n key ∧ key ≠ handlerKey := by
  have templates : ∀ template, template ∈ t.header.toList ++ t.body.toList ↔
      Script.template? catalog NodeType.header n = some template ∨
        Script.template? catalog NodeType.body n = some template := by
    intro template
    simp [Script.template?_of_find known, Option.mem_toList]
  rw [missingKeys, List.mem_filter, (Template.firstAppearances_distinct _).1, List.mem_flatMap, Lacks]
  simp only [templates, Properties.contains, Bool.and_eq_true, decide_eq_true_eq, Bool.not_eq_true',
    Option.isSome_eq_false_iff, Option.isNone_iff_eq_none]
  rw [← and_assoc, and_right_comm]

theorem mem_missing_iff {nodes : List (Node α)} {gaps : List Diagnostic}
    (found : missing catalog nodes = .ok gaps) (id key : String) :
    .missingProperty id key ∈ gaps ↔ ∃ n ∈ nodes, n.id = id ∧ Lacks catalog n key ∧ key ≠ handlerKey := by
  induction nodes generalizing gaps with
  | nil =>
      cases found
      simp
  | cons n rest ih =>
      obtain ⟨t, known, found⟩ := Result.bind_eq_ok.1 found
      obtain ⟨later, others, found⟩ := Result.bind_eq_ok.1 found
      cases found
      rw [List.mem_append, ih others, List.exists_mem_cons_iff, ← mem_missingKeys_iff known]
      refine or_congr_left ?_
      rw [List.mem_map]
      constructor
      · rintro ⟨_, mem, same⟩
        obtain ⟨rfl, rfl⟩ := Diagnostic.missingProperty.inj same
        exact ⟨rfl, mem⟩
      · rintro ⟨rfl, mem⟩
        exact ⟨key, mem, rfl⟩

/-! ## All kinds together -/

theorem analyze_of_walked (h : g.Sound catalog) {cs : List (Chain α)}
    (walked : List.Forall₂ (fun root c => Chain.ofNode g root = .ok c) (g.nodes.filter (Script.isEvent catalog)) cs) :
    analyze g catalog =
      (missing catalog g.nodes).map fun gaps => fanOuts g ++ cycles cs ++ unreached g cs ++ gaps := by
  obtain ⟨gaps, lacking⟩ := missing_ok fun n (mem : n ∈ g.nodes) => h.find_ok mem
  rw [lacking]
  exact Result.bind_eq_ok.2 ⟨_, Script.roots_eq h,
    Result.bind_eq_ok.2 ⟨cs, Result.mapM_eq_ok.2 walked, Result.bind_eq_ok.2 ⟨gaps, lacking, rfl⟩⟩⟩

def subject : Diagnostic → String
  | .fanOut id _ _ => id
  | .cycleTruncated root _ => root
  | .unreachable id => id
  | .missingProperty id _ => id

def rank : Diagnostic → Nat
  | .fanOut .. => 0
  | .cycleTruncated .. => 1
  | .unreachable _ => 2
  | .missingProperty .. => 3

theorem nodup_of_subjects {nodes : List (Node α)} {warnings : List Diagnostic}
    (about : List.Forall₂ (fun n d => subject d = n.id) nodes warnings)
    (distinct : (nodes.map Node.id).Nodup) : warnings.Nodup := by
  have subjects : warnings.map subject = nodes.map Node.id := by
    rw [← List.forall₂_eq_eq_eq, List.forall₂_map_left_iff, List.forall₂_map_right_iff]
    exact about.flip
  exact .of_map subject (subjects ▸ distinct)

theorem nodup_append_of_rank {earlier later : List Diagnostic} {k : Nat} (first : earlier.Nodup)
    (second : later.Nodup) (below : ∀ d ∈ earlier, rank d < k) (above : ∀ d ∈ later, rank d = k) :
    (earlier ++ later).Nodup ∧ ∀ d ∈ earlier ++ later, rank d < k + 1 := by
  constructor
  · refine List.nodup_append.2 ⟨first, second, ?_⟩
    rintro d mem _ other rfl
    exact Nat.ne_of_lt (below d mem) (above d other)
  · intro d mem
    rcases List.mem_append.1 mem with mem | mem
    · exact Nat.lt_succ_of_lt (below d mem)
    · exact Nat.lt_succ_of_le (Nat.le_of_eq (above d mem))

open Classical in
theorem nodup_of_parts {fans cuts dead gaps : List Diagnostic} (distinct : g.ids.Nodup)
    (fan : List.Forall₂ (IsFanOut g) (g.nodes.filter fun n => 2 ≤ degree g n) fans)
    (cut : List.Forall₂ (IsCut g) (g.nodes.filter fun n => Script.isEvent catalog n ∧ g.Endless n.id) cuts)
    (lost : List.Forall₂ IsDead (g.nodes.filter fun n => ¬ g.Live catalog n.id) dead)
    (gap : ∀ d ∈ gaps, ∃ id key, d = .missingProperty id key) (once : gaps.Nodup) :
    (fans ++ cuts ++ dead ++ gaps).Nodup := by
  have kept (p : Node α → Bool) : ((g.nodes.filter p).map Node.id).Nodup :=
    distinct.sublist (List.filter_sublist.map _)
  have fanRank : ∀ d ∈ fans, rank d < 1 := fun d mem => by
    obtain ⟨n, -, next, -, rfl⟩ := Result.exists_related fan mem
    exact Nat.zero_lt_one
  have cutRank : ∀ d ∈ cuts, rank d = 1 := fun d mem => by
    obtain ⟨n, -, id, -, rfl⟩ := Result.exists_related cut mem
    rfl
  have deadRank : ∀ d ∈ dead, rank d = 2 := fun d mem => by
    obtain ⟨n, -, rfl⟩ := Result.exists_related lost mem
    rfl
  have fans_once : fans.Nodup :=
    nodup_of_subjects (fan.imp fun n d ⟨_, _, same⟩ => by rw [same, subject]) (kept _)
  have cuts_once : cuts.Nodup :=
    nodup_of_subjects (cut.imp fun n d ⟨_, _, same⟩ => by rw [same, subject]) (kept _)
  have dead_once : dead.Nodup :=
    nodup_of_subjects (lost.imp fun n d same => by rw [same, subject]) (kept _)
  obtain ⟨wired, wiredRank⟩ := nodup_append_of_rank fans_once cuts_once fanRank cutRank
  obtain ⟨shaped, shapedRank⟩ := nodup_append_of_rank wired dead_once wiredRank deadRank
  refine (nodup_append_of_rank shaped once shapedRank fun d mem => ?_).1
  obtain ⟨id, key, rfl⟩ := gap d mem
  rfl

theorem analyze_exact (h : g.Sound catalog) {warnings : List Diagnostic}
    (found : analyze g catalog = .ok warnings) : Exact g catalog warnings := by
  classical
  obtain ⟨roots, events, found⟩ := Result.bind_eq_ok.1 found
  obtain ⟨chains, each, found⟩ := Result.bind_eq_ok.1 found
  obtain ⟨gaps, lacking, found⟩ := Result.bind_eq_ok.1 found
  cases found
  have walked := walked_of_mapM each
  rw [Script.events_eq events] at walked
  have fan := fanOuts_exact g
  have cut : List.Forall₂ (IsCut g)
      (g.nodes.filter fun n => Script.isEvent catalog n ∧ g.Endless n.id) (cycles chains) := by
    have cut := cycles_exact walked
    rw [List.filter_filter] at cut
    simpa only [Bool.decide_and, Bool.decide_eq_true, Bool.and_comm] using cut
  obtain ⟨among, once⟩ := missing_exact lacking h.distinct
  have gap : ∀ d ∈ gaps, ∃ id key, d = .missingProperty id key := fun d mem => by
    obtain ⟨id, -, key, same⟩ := among d mem
    exact ⟨id, key, same⟩
  have lost := unreached_exact walked
  exact ⟨⟨_, _, _, _, rfl, fan, cut, lost, gap⟩, nodup_of_parts h.distinct fan cut lost gap once⟩

theorem mem_missingProperty_iff {warnings : List Diagnostic} (found : analyze g catalog = .ok warnings)
    (id key : String) :
    .missingProperty id key ∈ warnings ↔ ∃ n ∈ g.nodes, n.id = id ∧ Lacks catalog n key ∧ key ≠ handlerKey := by
  obtain ⟨roots, -, found⟩ := Result.bind_eq_ok.1 found
  obtain ⟨chains, -, found⟩ := Result.bind_eq_ok.1 found
  obtain ⟨gaps, lacking, found⟩ := Result.bind_eq_ok.1 found
  cases found
  have noFan : .missingProperty id key ∉ fanOuts g := fun mem => by
    obtain ⟨n, -, next, -, other⟩ := Result.exists_related (fanOuts_exact g) mem
    cases other
  have noCut : .missingProperty id key ∉ cycles chains := fun mem => by
    obtain ⟨c, -, other⟩ := List.mem_filterMap.1 mem
    obtain ⟨again, -, other⟩ := Option.map_eq_some_iff.1 other
    cases other
  have noDead : .missingProperty id key ∉ unreached g chains := fun mem => by
    obtain ⟨n, -, other⟩ := List.mem_map.1 mem
    cases other
  simp only [List.mem_append, noFan, noCut, noDead, false_or]
  exact mem_missing_iff lacking id key

example :
    let node (id typeName : String) : Node Nat :=
      ⟨id, typeName, ⟨0, 0⟩, id, .ofList [("text", ""), ("trigger", "")], ⟨1, 1⟩⟩
    analyze ⟨[node "u" "Print Console", node "c" "Command", node "a" "Print Console", node "b" "Print Console"],
      [⟨"c", 0, "a", 0⟩, ⟨"a", 0, "b", 0⟩, ⟨"b", 0, "a", 0⟩, ⟨"c", 0, "u", 0⟩], 0⟩ Catalog.builtin =
      .ok [.fanOut "c" 2 "a", .cycleTruncated "c" "a", .unreachable "u"] := by
  decide +kernel

theorem Exact.mem_unreachable_iff {warnings : List Diagnostic} (exact : Exact g catalog warnings) (id : String) :
    .unreachable id ∈ warnings ↔ id ∈ g.ids ∧ ¬ g.Live catalog id := by
  classical
  obtain ⟨fans, cuts, dead, gaps, rfl, fan, cut, lost, gap⟩ := exact.parts
  have noFan : .unreachable id ∉ fans := fun mem => by
    obtain ⟨n, -, next, -, other⟩ := Result.exists_related fan mem
    cases other
  have noCut : .unreachable id ∉ cuts := fun mem => by
    obtain ⟨n, -, again, -, other⟩ := Result.exists_related cut mem
    cases other
  have noGap : .unreachable id ∉ gaps := fun mem => by
    obtain ⟨_, key, other⟩ := gap _ mem
    cases other
  have dead_eq : dead = (g.nodes.filter fun n => ¬ g.Live catalog n.id).map fun n => .unreachable n.id := by
    rw [← List.forall₂_eq_eq_eq, List.forall₂_map_right_iff]
    exact lost.flip
  simp only [List.mem_append, noFan, noCut, noGap, false_or, or_false]
  rw [dead_eq, List.mem_map]
  constructor
  · rintro ⟨n, mem, same⟩
    obtain rfl := Diagnostic.unreachable.inj same
    obtain ⟨mem, notLive⟩ := List.mem_filter.1 mem
    exact ⟨List.mem_map_of_mem mem, by simpa using notLive⟩
  · rintro ⟨inGraph, notLive⟩
    obtain ⟨n, mem, rfl⟩ := List.mem_map.1 inGraph
    exact ⟨n, List.mem_filter.2 ⟨mem, by simpa using notLive⟩, rfl⟩

end Diagnostic
end FlowScript
