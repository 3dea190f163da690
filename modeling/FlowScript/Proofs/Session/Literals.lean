import FlowScript.Catalog.Builtin
import FlowScript.Proofs.Script.Literal
import FlowScript.Proofs.Session.Sections

namespace FlowScript

variable {α : Type}

namespace Script

/-! ## Values between quotes -/

/-- The text is the opening, the value between two quotes, and the closing. Whatever follows the text, a literal that
begins at the first of its quotes ends before the closing and stands for the value exactly if the value is verbatim. -/
structure Quotes (named : List Char → Option Nat) (opening value closing text : String) : Prop where
  written : text = opening ++ "'" ++ value ++ "'" ++ closing
  first : '\'' ∉ opening.toList
  exact : ∀ tail : String,
    Literal.quoted? named ("'" ++ value ++ "'" ++ closing ++ tail).toList =
        some (value.toList.map Char.toNat, (closing ++ tail).toList) ↔
      Literal.Verbatim value.toList

def quoting (opening key closing : String) : String := opening ++ "'" ++ ("\x7b" ++ key ++ "\x7d" ++ ("'" ++ closing))

theorem quotes_render (named : List Char → Option Nat) {opening key value : String}
    (plain : '\'' ∉ opening.toList ∧ '{' ∉ opening.toList) (isKey : Template.IsKey key.toList)
    {f : String → Option String} (given : f key = some value) {closing rest : String}
    (rendered : Template.render closing f = rest) (ends : rest.toList.head? = some ')') :
    Quotes named opening value rest (Template.render (quoting opening key closing) f) := by
  obtain ⟨first, noBrace⟩ := plain
  have noBrace : '{' ∉ (opening ++ "'").toList := by simpa using noBrace
  constructor
  case written =>
    rw [quoting, Template.render_append noBrace, Template.render_hole isKey, given,
      Template.render_append (by decide), rendered, Option.getD_some]
    simp only [String.append_assoc]
  case first => exact first
  case exact =>
    intro tail
    have closed : (rest ++ tail).toList.head? ≠ some '\'' := by
      rw [String.toList_append, List.head?_append, ends]
      simp
    rw [← Literal.quoted?_eq_iff named closed]
    simp

/-! ## The built-in templates -/

def openings : List String := ["    await ctx.send(", "    await ctx.reply(", "    print("]

def bodyOf (opening : String) : String := quoting opening "text" ")"

def commandHeader : String := quoting "@bot.command(name=" "trigger" ")\nasync def \x7bfunc_name\x7d(ctx):"

theorem openings_plain : ∀ opening ∈ openings, '\'' ∉ opening.toList ∧ '{' ∉ opening.toList := by
  decide

theorem body_of_action : ∀ t ∈ Catalog.builtinTypes, t.isEvent = false →
    ∃ opening ∈ openings, t.body = some (bodyOf opening) := by
  decide

theorem exists_body {n : Node α} (typed : ∃ t ∈ Catalog.builtin.types, t.name = n.typeName)
    (action : isEvent Catalog.builtin n = false) :
    ∃ opening ∈ openings, template? Catalog.builtin NodeType.body n = some (bodyOf opening) := by
  obtain ⟨t, known⟩ := Catalog.find_of_mem typed
  rw [isEvent_of_find known] at action
  rw [template?_of_find known]
  exact body_of_action t (Catalog.find_ok known).1 action

theorem header_of_command {n : Node α} (isCommand : n.typeName = "Command") :
    isEvent Catalog.builtin n = true ∧ template? Catalog.builtin NodeType.header n = some commandHeader := by
  rw [isEvent, template?, isCommand]
  decide

theorem quotes_body (named : List Char → Option Nat) {opening : String} (own : opening ∈ openings) {n : Node α}
    {value : String} (given : n.properties.get? "text" = some value) :
    Quotes named opening value ")" (Block.body n (bodyOf opening)).text :=
  quotes_render named (openings_plain opening own) (Template.isKey_iff.1 rfl) given
    (Template.render_plain (by decide) _) rfl

theorem quotes_header (named : List Char → Option Nat) {n : Node α} (name : String) {value : String}
    (given : n.properties.get? "trigger" = some value) :
    Quotes named "@bot.command(name=" value (")\nasync def " ++ name ++ "(ctx):")
      (Block.header n name commandHeader).text := by
  have plain : '\'' ∉ "@bot.command(name=".toList ∧ '{' ∉ "@bot.command(name=".toList := by decide
  have rest : Template.render (")\nasync def " ++ ("\x7b" ++ "func_name" ++ "\x7d" ++ "(ctx):"))
      (Block.header n name commandHeader).value? = ")\nasync def " ++ name ++ "(ctx):" := by
    rw [Template.render_append (by decide), Template.render_hole (Template.isKey_iff.1 rfl),
      Template.render_plain (by decide), String.append_assoc]
    rfl
  have inHeader : (Block.header n name commandHeader).value? "trigger" = some value := given
  apply quotes_render named plain (Template.isKey_iff.1 rfl) inHeader rest
  simp

end Script

variable [Scalar α]

namespace Session

/-- Whatever has happened to a session over the built-in catalog, the texts of the actions on chains and the triggers of
the commands stand in its script between two quotes, as they are, and are read there as themselves exactly if they are
verbatim. -/
theorem literals_after (shape : NodeShape α) (history : List (Operation α)) (o : Script.Options)
    (named : List Char → Option Nat) :
    let s := (Session.new Catalog.builtin shape).after history
    ∃ blocks bot, Script.Assembled o s.graph s.catalog blocks bot ∧
      (∀ root ∈ s.graph.nodes, Script.isEvent s.catalog root = true → ∀ n ∈ s.graph.nodes,
        (s.graph.visits root.id n.id).Nonempty → Script.isEvent s.catalog n = false →
        ∀ value, n.properties.get? "text" = some value →
          ∃ opening ∈ Script.openings, ∃ b ∈ blocks,
            b = .body n (Script.bodyOf opening) ∧ Script.Quotes named opening value ")" b.text) ∧
      ∀ n ∈ s.graph.nodes, n.typeName = "Command" → ∀ value, n.properties.get? "trigger" = some value →
        ∃ name, ∃ b ∈ blocks, b = .header n name Script.commandHeader ∧
          Script.Quotes named "@bot.command(name=" value (")\nasync def " ++ name ++ "(ctx):") b.text := by
  intro s
  have sound : s.graph.Sound s.catalog := sound_own Catalog.builtin shape history
  have known : s.catalog = Catalog.builtin := (sound_history Catalog.builtin shape history).1
  obtain ⟨sections, bot, assembled, each⟩ := Script.exists_sections sound o
  have section_of : ∀ root ∈ s.graph.nodes, Script.isEvent s.catalog root = true →
      ∃ blocks ∈ sections, Script.IsSectionOf o.debug s.graph s.catalog root blocks := fun root own event =>
    Result.exists_related each.flip (List.mem_filter.2 ⟨own, event⟩)
  refine ⟨_, bot, assembled, ?_, ?_⟩
  · intro root ownRoot event n own visited action value given
    obtain ⟨blocks, among, isSection⟩ := section_of root ownRoot event
    have typed := sound.typed n own
    rw [known] at typed action isSection
    obtain ⟨opening, isOpening, body⟩ := Script.exists_body typed action
    have written := List.mem_flatten_of_mem among (isSection.mem_body own visited body)
    exact ⟨opening, isOpening, _, by simp [written], rfl, Script.quotes_body named isOpening given⟩
  · intro n own isCommand value given
    obtain ⟨event, header⟩ := Script.header_of_command isCommand
    obtain ⟨blocks, among, isSection⟩ := section_of n own (known ▸ event)
    rw [known] at isSection
    obtain ⟨name, written⟩ := isSection.exists_header header
    have written := List.mem_flatten_of_mem among written
    exact ⟨name, _, by simp [written], rfl, Script.quotes_header named name given⟩

/-- A quote in a message ends the literal, and the rest of the message stands behind it. -/
theorem literals_cut :
    let s := (Session.new Catalog.builtin (.standard : NodeShape Float)).after
      [.addNode "Event: On Ready" ⟨0, 0⟩ none, .addNode "Send Message" ⟨0, 0⟩ none, .connect ⟨"node_0", 0, "node_1", 0⟩,
        .setProperty "node_1" "text" "It's"]
    ∃ blocks bot, Script.Assembled {} s.graph s.catalog blocks bot ∧
      (∃ b ∈ blocks, b.isBody = true ∧ b.value? "text" = some "It's" ∧ b.text = "    await ctx.send('It's')") ∧
      ∀ named tail, Script.Literal.quoted? named ("'It's')".toList ++ tail) =
        some ("It".toList.map Char.toNat, "s')".toList ++ tail) := by
  intro s
  have sound : s.graph.Sound s.catalog := sound_own _ _ _
  obtain ⟨sections, bot, assembled, -⟩ := Script.exists_sections sound {}
  refine ⟨_, bot, assembled, ?_, ?_⟩
  · have traced : (Script.trace {} s.graph s.catalog).map (fun parts => parts.any fun b =>
        b.isBody && b.value? "text" = some "It's" && b.text = "    await ctx.send('It's')") = .ok true := by
      decide +kernel
    rw [assembled.traced] at traced
    obtain ⟨b, mem, isBody⟩ := List.any_eq_true.1 (Except.ok.inj traced)
    exact ⟨b, mem, by simpa [and_assoc] using isBody⟩
  · intro named tail
    have it : Script.Literal.Verbatim "It".toList := by decide
    exact it.read? ("s')".toList ++ tail)

end Session
end FlowScript
