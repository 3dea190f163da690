import FlowScript.Catalog.Builtin
import FlowScript.Proofs.Script.Blocks
import FlowScript.Proofs.Session.Compilation
import FlowScript.Proofs.Lists

/-!
# Comments in a script

With comments, a script has one further block before every body (`Script.assembled_remarked`). A comment holds the id and
the label of its node as they are, and goes on behind a line end in them as text of the script. So the further lines are
single lines of comment exactly if no id and no label of an inlined node has a line end (`Session.comments_after`).
-/

namespace FlowScript

/-! ## Lines -/

/-- Where the lines of a text end: at line feeds, and perhaps elsewhere, but at no printable ASCII character. -/
structure Text.LineEnds where
  isEnd : Char → Bool
  newline : isEnd '\n' = true
  printable : ∀ c, ' ' ≤ c → c ≤ '~' → isEnd c = false

namespace Text.LineEnds

def lineFeed : LineEnds where
  isEnd c := c = '\n'
  newline := rfl
  printable c after _ := by
    apply decide_eq_false
    rintro rfl
    exact absurd after (by decide)

variable (ends : LineEnds)

def lines (text : String) : List String := (text.toList.splitOnP ends.isEnd).map String.ofList

def Unbroken (text : String) : Prop := ∀ c ∈ text.toList, ends.isEnd c = false

theorem lines_append (before after : String) :
    ends.lines (before ++ "\n" ++ after) = ends.lines before ++ ends.lines after := by
  have joined : (before ++ "\n" ++ after).toList = before.toList ++ '\n' :: after.toList := by simp
  rw [lines, joined, List.splitOnP_append_cons _ _ ends.newline, List.map_append]
  rfl

theorem lines_intercalate {texts : List String} (some : texts ≠ []) :
    ends.lines ("\n".intercalate texts) = texts.flatMap ends.lines := by
  induction texts with
  | nil => exact absurd rfl some
  | cons first rest ih =>
      cases rest with
      | nil => simp
      | cons second rest =>
          rw [String.intercalate_cons_cons, lines_append, ih (List.cons_ne_nil _ _)]
          rfl

theorem length_lines_pos (text : String) : 1 ≤ (ends.lines text).length := by
  rw [lines, List.length_map, Nat.one_le_iff_ne_zero, ne_eq, List.length_eq_zero_iff]
  exact List.splitOnP_ne_nil _ _

theorem lines_eq_singleton_iff {text : String} : ends.lines text = [text] ↔ ends.Unbroken text := by
  constructor
  · intro single c mem
    by_contra broken
    obtain ⟨before, after, cut⟩ := List.append_of_mem mem
    have parts := congrArg List.length single
    rw [lines, cut, List.splitOnP_append_cons _ _ (Bool.eq_true_of_not_eq_false broken), List.length_map,
      List.length_append, List.length_singleton] at parts
    have first := List.length_pos_iff.2 (List.splitOnP_ne_nil ends.isEnd before)
    have second := List.length_pos_iff.2 (List.splitOnP_ne_nil ends.isEnd after)
    omega
  · intro unbroken
    rw [lines, List.splitOnP_eq_singleton unbroken, List.map_singleton, String.ofList_toList]

variable {ends}

theorem unbroken_append {before after : String} :
    ends.Unbroken (before ++ after) ↔ ends.Unbroken before ∧ ends.Unbroken after := by
  simp only [Unbroken, String.toList_append, List.forall_mem_append]

theorem unbroken_of_printable {text : String} (printable : text.toList.all (fun c => ' ' ≤ c ∧ c ≤ '~') = true) :
    ends.Unbroken text := by
  intro c mem
  obtain ⟨after, before⟩ := of_decide_eq_true (List.all_eq_true.1 printable c mem)
  exact ends.printable c after before

end Text.LineEnds

theorem Script.unbroken_comment {α : Type} {ends : Text.LineEnds} {n : Node α} :
    ends.Unbroken (comment n) ↔ ends.Unbroken n.id ∧ ends.Unbroken n.label := by
  have mark : ends.Unbroken "    # " := Text.LineEnds.unbroken_of_printable (by decide)
  have opening : ends.Unbroken " (" := Text.LineEnds.unbroken_of_printable (by decide)
  have closing : ends.Unbroken ")" := Text.LineEnds.unbroken_of_printable (by decide)
  simp only [comment, Text.LineEnds.unbroken_append, mark, opening, closing, true_and, and_true]

/-! ## Comments before bodies -/

variable {α : Type} {g : Graph α} {catalog : Catalog}

namespace Block

def remark? : Block α → Option String
  | .body n _ => some (Script.comment n)
  | .line _ | .header .. | .comment _ => none

def remarked : Block α → List (Block α)
  | .body n template => [.comment n, .body n template]
  | .line text => [.line text]
  | .header root name template => [.header root name template]
  | .comment n => [.comment n]

theorem flatMap_lines_remarked (ends : Text.LineEnds) (b : Block α) :
    b.remarked.flatMap (fun part => ends.lines part.text) =
      b.remark?.toList.flatMap ends.lines ++ ends.lines b.text := by
  cases b <;> simp [remarked, remark?, text]

theorem isPrefix_of_remark? {b : Block α} {remark : String} (h : b.remark? = some remark) :
    "    #".toList <+: remark.toList := by
  cases b with
  | body n template =>
      cases h
      exact ⟨" ".toList ++ (n.id ++ " (" ++ n.label ++ ")").toList, by simp [Script.comment]⟩
  | line | header | comment => cases h

end Block

namespace Script

theorem flatMap_remarked_headers (root : Node α) (name : String) :
    (headerBlocks catalog root name).flatMap Block.remarked = headerBlocks catalog root name := by
  rw [headerBlocks, List.flatMap_map]
  exact List.map_eq_flatMap.symm

theorem flatMap_remarked_bodies (n : Node α) :
    (bodyBlocks false catalog n).flatMap Block.remarked = bodyBlocks true catalog n := by
  rw [bodyBlocks, bodyBlocks, List.flatMap_assoc]
  rfl

theorem flatMap_remarked_chain (chain : Chain α) (name : String) :
    (chainBlocks false catalog chain name).flatMap Block.remarked = chainBlocks true catalog chain name := by
  simp only [chainBlocks, List.flatMap_append, flatMap_remarked_headers, List.flatMap_assoc, flatMap_remarked_bodies]
  rfl

theorem flatMap_remarked_open (s : Settings) (cs : List (Chain α)) :
    (openBlocks ⟨s, false⟩ catalog cs).flatMap Block.remarked = openBlocks ⟨s, true⟩ catalog cs := by
  have lines (texts : List String) : (texts.map (Block.line : String → Block α)).flatMap Block.remarked =
      texts.map Block.line := by
    rw [List.flatMap_map]
    exact List.map_eq_flatMap.symm
  simp only [openBlocks, List.flatMap_append, lines, List.flatMap_assoc, flatMap_remarked_chain]

theorem assembled_remarked (h : g.Sound catalog) (s : Settings) :
    ∃ blocks plain commented, Assembled ⟨s, false⟩ g catalog blocks plain ∧
      Assembled ⟨s, true⟩ g catalog (blocks.flatMap Block.remarked) commented ∧
      commented.handlers = plain.handlers ∧ commented.diagnostics = plain.diagnostics := by
  obtain ⟨cs, walked⟩ := exists_walked h
  obtain ⟨plain, assembled⟩ := exists_assembled h ⟨s, false⟩ walked
  obtain ⟨commented, assembled'⟩ := exists_assembled h ⟨s, true⟩ walked
  refine ⟨_, plain, commented, assembled, ?_, ?_, ?_⟩
  · rw [List.flatMap_append, flatMap_remarked_open]
    exact assembled'
  · rw [assembled'.handlers_eq, assembled.handlers_eq]
    rfl
  · have analyzed := analyze_of_compile assembled.compiled
    rw [analyze_of_compile assembled'.compiled] at analyzed
    exact Except.ok.inj analyzed

theorem Assembled.ne_nil {o : Options} {parts : List (Block α)} {bot : Bot} (h : Assembled o g catalog parts bot) :
    parts ≠ [] := by
  obtain ⟨cs, -, joined⟩ := Result.bind_eq_ok.1 h.traced
  rw [← Except.ok.inj joined]
  exact List.append_ne_nil_of_right_ne_nil _ (List.cons_ne_nil _ _)

theorem Assembled.lines_source {o : Options} {parts : List (Block α)} {bot : Bot} (h : Assembled o g catalog parts bot)
    (ends : Text.LineEnds) : ends.lines bot.source = parts.flatMap fun b => ends.lines b.text := by
  rw [h.source, ends.lines_intercalate (by simpa using h.ne_nil), List.flatMap_map]

theorem Assembled.lines_remarked {o : Options} {blocks : List (Block α)} {bot : Bot}
    (h : Assembled o g catalog (blocks.flatMap Block.remarked) bot) (ends : Text.LineEnds) :
    ends.lines bot.source = blocks.flatMap fun b => b.remark?.toList.flatMap ends.lines ++ ends.lines b.text := by
  rw [h.lines_source, List.flatMap_assoc]
  exact List.flatMap_congr fun b _ => b.flatMap_lines_remarked ends

end Script

/-! ## Single lines -/

theorem Block.lines_remark_eq_iff (ends : Text.LineEnds) (b : Block α) :
    b.remark?.toList ++ ends.lines b.text = b.remark?.toList.flatMap ends.lines ++ ends.lines b.text ↔
      ∀ n template, b = .body n template → ends.Unbroken n.id ∧ ends.Unbroken n.label := by
  cases b with
  | body n template =>
      simp only [remark?, Option.toList_some, List.flatMap_singleton, List.append_left_inj, Block.body.injEq]
      rw [eq_comm, ends.lines_eq_singleton_iff, Script.unbroken_comment]
      constructor
      · rintro unbroken m template ⟨rfl, -⟩
        exact unbroken
      · intro each
        exact each n template ⟨rfl, rfl⟩
  | line | header | comment => simp [remark?]

theorem Script.lines_remark_iff (ends : Text.LineEnds) (blocks : List (Block α)) :
    (blocks.flatMap fun b => b.remark?.toList.flatMap ends.lines ++ ends.lines b.text) =
        (blocks.flatMap fun b => b.remark?.toList ++ ends.lines b.text) ↔
      ∀ b ∈ blocks, ∀ n template, b = .body n template → ends.Unbroken n.id ∧ ends.Unbroken n.label := by
  constructor
  · intro same b mem
    rw [← Block.lines_remark_eq_iff]
    refine Lists.eq_of_flatMap_eq (fun b => ?_) same.symm b mem
    rw [List.length_append, List.length_append]
    cases b.remark? with
    | none => exact Nat.le_refl _
    | some remark => simpa using ends.length_lines_pos remark
  · intro each
    refine List.flatMap_congr fun b mem => ?_
    exact ((Block.lines_remark_eq_iff ends b).2 (each b mem)).symm

variable [Scalar α]

namespace Session

/-- The comments add lines before the first line of every body, and nothing else. They add one line each exactly if no
id and no label of the nodes with these bodies has a line end in it. -/
theorem comments_after (catalog : Catalog) (shape : NodeShape α) (history : List (Operation α))
    (settings : Script.Settings) (ends : Text.LineEnds) :
    let s := (Session.new catalog shape).after history
    ∃ blocks plain commented,
      Script.Assembled ⟨settings, false⟩ s.graph s.catalog blocks plain ∧
      Script.Assembled ⟨settings, true⟩ s.graph s.catalog (blocks.flatMap Block.remarked) commented ∧
      commented.handlers = plain.handlers ∧ commented.diagnostics = plain.diagnostics ∧
      ends.lines plain.source = (blocks.flatMap fun b => ends.lines b.text) ∧
      ends.lines commented.source =
        (blocks.flatMap fun b => b.remark?.toList.flatMap ends.lines ++ ends.lines b.text) ∧
      (ends.lines commented.source = (blocks.flatMap fun b => b.remark?.toList ++ ends.lines b.text) ↔
        ∀ b ∈ blocks, ∀ n template, b = .body n template → ends.Unbroken n.id ∧ ends.Unbroken n.label) ∧
      ∀ b ∈ blocks, ∀ remark, b.remark? = some remark → "    #".toList <+: remark.toList := by
  intro s
  have sound : s.graph.Sound s.catalog := sound_own catalog shape history
  obtain ⟨blocks, plain, commented, assembled, assembled', handlers, warnings⟩ :=
    Script.assembled_remarked sound settings
  refine ⟨blocks, plain, commented, assembled, assembled', handlers, warnings, assembled.lines_source ends,
    assembled'.lines_remarked ends, ?_, fun b _ remark => Block.isPrefix_of_remark?⟩
  rw [assembled'.lines_remarked]
  exact Script.lines_remark_iff ends blocks

/-- Behind the line end in a label, the rest of the comment is a line of its own that is no comment. -/
theorem comments_broken :
    let s := (Session.new Catalog.builtin (.standard : NodeShape Float)).after
      [.addNode "Command" ⟨0, 0⟩ none, .addNode "Print Console" ⟨0, 0⟩ none, .connect ⟨"node_0", 0, "node_1", 0⟩,
        .renameNode "node_1" "log\nimport os"]
    let ends := Text.LineEnds.lineFeed
    ∃ plain commented, Script.compile {} s.graph s.catalog = .ok plain ∧
      Script.compile { debug := true } s.graph s.catalog = .ok commented ∧
      ∃ line ∈ ends.lines commented.source, line ∉ ends.lines plain.source ∧ ¬ "    #".toList <+: line.toList := by
  intro s ends
  have sound : s.graph.Sound s.catalog := sound_own _ _ _
  obtain ⟨blocks, plain, commented, assembled, assembled', -, -⟩ := Script.assembled_remarked sound {}
  have traced : (Script.trace {} s.graph s.catalog).map (fun parts =>
      (parts.filterMap Block.remark?, decide (∀ b ∈ parts, "import os)" ∉ ends.lines b.text))) =
      .ok (["    # node_1 (log\nimport os)"], true) := by decide +kernel
  rw [assembled.traced] at traced
  obtain ⟨remarks, absent⟩ := Prod.mk.inj (Except.ok.inj traced)
  obtain ⟨b, mem, remark⟩ := List.mem_filterMap.1 (remarks ▸ List.mem_singleton_self "    # node_1 (log\nimport os)")
  refine ⟨plain, commented, assembled.compiled, assembled'.compiled, "import os)", ?_, ?_, by decide⟩
  · rw [assembled'.lines_remarked]
    refine List.mem_flatMap.2 ⟨b, mem, List.mem_append_left _ ?_⟩
    rw [remark]
    decide +kernel
  · rw [assembled.lines_source]
    intro present
    obtain ⟨b, mem, present⟩ := List.mem_flatMap.1 present
    exact of_decide_eq_true absent b mem present

end Session
end FlowScript
