import FlowScript.Command.Creation
import FlowScript.Proofs.Yaml.Scan

namespace FlowScript.ProjectFile
open Yaml Yaml.Scanner Yaml.Decode

/-! ## Lines -/

def plainLine (key value space : String) (after : List Char) : List Char :=
  key.toList ++ ':' :: (' ' :: (value.toList ++ (space.toList ++ after)))

def quotedLine (key value : String) (after : List Char) : List Char :=
  key.toList ++ ':' :: (' ' :: '"' :: (value.toList ++ '"' :: '\n' :: after))

def sectionLine (key : String) (after : List Char) : List Char := key.toList ++ ':' :: ('\n' :: ' ' :: ' ' :: after)

def commentLine (comment : String) (after : List Char) : List Char := comment.toList ++ '\n' :: after

def canvasLines : List Char :=
  plainLine "node_width" "140" "\n  " (plainLine "node_height" "60" "\n  " (plainLine "port_gap" "6" "\n" []))

def codegenLines : List Char :=
  plainLine "function_prefix" "cmd_" "\n  " (quotedLine "command_prefix" "!" (' ' :: ' ' ::
    plainLine "token" "YOUR_TOKEN_HERE" "\n\n" (sectionLine "canvas" canvasLines)))

def settingsLines : List Char :=
  quotedLine "version" "0.1.0" (commentLine ""
    (commentLine "# Layout document edited by the canvas and the node commands"
      (plainLine "layout" "layout.json" "\n\n" (commentLine "# Compiled bot script"
        (plainLine "output" "bot.py" "\n\n" (sectionLine "codegen" codegenLines))))))

def opening : String := "# Botwire Project Configuration\n" ++ "name: "

def closing : String :=
  "\n" ++ (("version" ++ (": \"" ++ ("0.1.0" ++ ("\"\n" ++ "\n")))) ++
    (("# Layout document edited by the canvas and the node commands" ++ "\n") ++
    (("layout" ++ (": " ++ ("layout.json" ++ "\n\n"))) ++ (("# Compiled bot script" ++ "\n") ++
    (("output" ++ (": " ++ ("bot.py" ++ "\n\n"))) ++
    (("codegen" ++ ":\n") ++ (("  " ++ ("function_prefix" ++ (": " ++ ("cmd_" ++ "\n")))) ++
      (("  " ++ ("command_prefix" ++ (": \"" ++ ("!" ++ "\"\n")))) ++
      (("  " ++ ("token" ++ (": " ++ ("YOUR_TOKEN_HERE" ++ "\n\n")))) ++
    (("canvas" ++ ":\n") ++ (("  " ++ ("node_width" ++ (": " ++ ("140" ++ "\n")))) ++
      (("  " ++ ("node_height" ++ (": " ++ ("60" ++ "\n")))) ++
      ("  " ++ ("port_gap" ++ (": " ++ ("6" ++ "\n"))))))))))))))))

theorem closing_eq : closing.toList = '\n' :: settingsLines := by
  simp only [closing, String.toList_append, List.append_assoc, settingsLines, codegenLines, canvasLines, plainLine,
    quotedLine, sectionLine, commentLine]
  rfl

theorem initialText_eq (name : String) : initialText name = opening ++ (name ++ closing) := by
  unfold initialText
  -- the rest is the same line by line, each put together from its parts
  simp only [String.append_assoc, -String.reduceAppend]
  rfl

theorem toList_initialText (name : String) :
    (initialText name).toList = opening.toList ++ (name.toList ++ '\n' :: settingsLines) := by
  rw [initialText_eq, String.toList_append, String.toList_append, closing_eq]

/-! ## Tokens -/

variable {outerIndents : List Int} {indent : Int} {column : Nat} {tokens : List Token}

theorem gets_comment (comment : String) {keyAllowed : Bool} {after : List Char}
    (inline : comment.toList.all (!isBreak ·)) (hash : comment.toList.head?.all (· = '#')) :
    Gets column (between indent outerIndents tokens keyAllowed (commentLine comment after)) 0
      (between indent outerIndents tokens true after) :=
  gets_line comment.toList (by simpa using inline) hash after

theorem gets_plainLine (key value space : String) {after : List Char} (word : isKeyWord key.toList)
    (plain : isPlainLine value.toList) (broken : isBreakWithMargin space.toList) (solid : after.head?.all (!isSpace ·))
    (outdented : marginOf space.toList ≤ column) :
    Gets column (between column outerIndents tokens true (plainLine key value space after)) (marginOf space.toList)
      (between column outerIndents (.scalar ⟨value, true⟩ :: .value :: .scalar ⟨key, true⟩ :: .key :: tokens) true
        after) :=
  (gets_key word rfl).trans
    (gets_plain plain broken solid (Int.ofNat_le.2 (Nat.le_add_right _ _)) (Int.ofNat_le.2 outdented))

theorem gets_firstLine (key value space : String) {after : List Char} (word : isKeyWord key.toList)
    (plain : isPlainLine value.toList) (broken : isBreakWithMargin space.toList) (solid : after.head?.all (!isSpace ·))
    (outdented : marginOf space.toList ≤ column) (deeper : indent < column) :
    Gets column (between indent outerIndents tokens true (plainLine key value space after)) (marginOf space.toList)
      (between column (indent :: outerIndents)
        (.scalar ⟨value, true⟩ :: .value :: .scalar ⟨key, true⟩ :: .key :: .blockMappingStart :: tokens) true after) :=
  (gets_firstKey word rfl deeper).trans
    (gets_plain plain broken solid (Int.ofNat_le.2 (Nat.le_add_right _ _)) (Int.ofNat_le.2 outdented))

theorem gets_quotedLine (key value : String) {after : List Char} (word : isKeyWord key.toList)
    (verbatim : value.toList.all isVerbatim) :
    Gets column (between column outerIndents tokens true (quotedLine key value after)) 0
      (between column outerIndents (.scalar ⟨value, false⟩ :: .value :: .scalar ⟨key, true⟩ :: .key :: tokens) true
        after) :=
  (gets_key word rfl).trans (gets_quoted (List.all_eq_true.1 verbatim) (Int.ofNat_le.2 (Nat.le_add_right _ _)))

theorem gets_sectionLine (key : String) {after : List Char} (word : isKeyWord key.toList) :
    Gets column (between column outerIndents tokens true (sectionLine key after)) 2
      (between column outerIndents (.value :: .scalar ⟨key, true⟩ :: .key :: tokens) true after) :=
  (gets_key word rfl).trans
    ((gets_line [] (by simp) rfl (' ' :: ' ' :: after)).trans ((gets_space (' ' :: after)).trans (gets_space after)))

def fieldTokens (key value : String) (isPlain : Bool) : List Token :=
  [.key, .scalar ⟨key, true⟩, .value, .scalar ⟨value, isPlain⟩]

def sectionTokens (key : String) : List Token := [.key, .scalar ⟨key, true⟩, .value, .blockMappingStart]

def canvasTokens : List Token :=
  sectionTokens "canvas" ++ fieldTokens "node_width" "140" true ++ fieldTokens "node_height" "60" true ++
    fieldTokens "port_gap" "6" true

def codegenTokens : List Token :=
  sectionTokens "codegen" ++ fieldTokens "function_prefix" "cmd_" true ++ fieldTokens "command_prefix" "!" false ++
    fieldTokens "token" "YOUR_TOKEN_HERE" true

def settingsTokens : List Token :=
  fieldTokens "version" "0.1.0" false ++ fieldTokens "layout" "layout.json" true ++ fieldTokens "output" "bot.py" true ++
    codegenTokens ++ .blockEnd :: canvasTokens

theorem gets_canvas : Gets 0 (between 2 [0, -1] tokens true (sectionLine "canvas" canvasLines)) 0
    (between 2 [0, -1] (canvasTokens.reverse ++ .blockEnd :: tokens) true []) := by
  have outer : Gets 0 (between 2 [0, -1] tokens true (sectionLine "canvas" canvasLines)) 0
      (between 0 [-1] (.blockEnd :: tokens) true (sectionLine "canvas" canvasLines)) :=
    gets_blockEnd (c := 'c') rfl (by decide) (by decide)
  refine outer.trans ((gets_sectionLine "canvas" ?_).trans
    ((gets_firstLine "node_width" "140" "\n  " ?_ ?_ ?_ rfl ?_ ?_).trans
      ((gets_plainLine "node_height" "60" "\n  " ?_ ?_ ?_ rfl ?_).trans
        (gets_plainLine "port_gap" "6" "\n" ?_ ?_ ?_ rfl ?_))))
  all_goals decide

theorem gets_codegen : Gets 0 (between 0 [-1] tokens true (sectionLine "codegen" codegenLines)) 0
    (between 2 [0, -1] (canvasTokens.reverse ++ .blockEnd :: (codegenTokens.reverse ++ tokens)) true []) := by
  refine (gets_sectionLine "codegen" ?_).trans
    ((gets_firstLine "function_prefix" "cmd_" "\n  " ?_ ?_ ?_ rfl ?_ ?_).trans
      ((gets_quotedLine "command_prefix" "!" ?_ ?_).trans ((gets_space _).trans ((gets_space _).trans
        ((gets_plainLine "token" "YOUR_TOKEN_HERE" "\n\n" ?_ ?_ ?_ rfl ?_).trans gets_canvas)))))
  all_goals decide

theorem gets_settings : Gets 0 (between 0 [-1] tokens true settingsLines) 0
    (between 2 [0, -1] (settingsTokens.reverse ++ tokens) true []) := by
  refine (gets_quotedLine "version" "0.1.0" ?_ ?_).trans ((gets_comment "" ?_ rfl).trans ((gets_comment _ ?_ rfl).trans
    ((gets_plainLine "layout" "layout.json" "\n\n" ?_ ?_ ?_ rfl ?_).trans ((gets_comment _ ?_ rfl).trans
      ((gets_plainLine "output" "bot.py" "\n\n" ?_ ?_ ?_ rfl ?_).trans gets_codegen)))))
  all_goals decide

def nameTokens : List Token := [.blockMappingStart, .key, .scalar ⟨"name", true⟩, .value]

theorem gets_opening (after : List Char) :
    Gets 0 (between (-1) [] [] true (opening.toList ++ after)) 5
      (between 0 [-1] nameTokens.reverse false (' ' :: after)) := by
  have lines : opening.toList ++ after =
      commentLine "# Botwire Project Configuration" ("name".toList ++ ':' :: (' ' :: after)) := by
    have title : "# Botwire Project Configuration\n" = "# Botwire Project Configuration" ++ "\n" := rfl
    unfold opening
    rw [String.toList_append, title, String.toList_append, List.append_assoc, List.append_assoc]
    rfl
  rw [lines]
  exact (gets_comment _ (by decide) rfl).trans (gets_firstKey (by decide) rfl (by decide))

theorem gets_plainName {name : String} (plain : isPlainLine name.toList) :
    Gets 0 (between (-1) [] [] true (initialText name).toList) 0
      (between 2 [0, -1] (settingsTokens.reverse ++ .scalar ⟨name, true⟩ :: nameTokens.reverse) true []) := by
  have line : Gets 5 (between 0 [-1] nameTokens.reverse false (' ' :: (name.toList ++ '\n' :: settingsLines))) 0
      (between 0 [-1] (.scalar ⟨name, true⟩ :: nameTokens.reverse) true settingsLines) :=
    @gets_plain 0 [-1] nameTokens.reverse 5 name "\n" settingsLines plain (by decide) rfl (by decide) (by decide)
  rw [toList_initialText]
  exact (gets_opening _).trans (line.trans gets_settings)

theorem gets_noName :
    Gets 0 (between (-1) [] [] true (initialText "").toList) 0
      (between 2 [0, -1] (settingsTokens.reverse ++ nameTokens.reverse) true []) := by
  rw [toList_initialText]
  exact (gets_opening _).trans ((gets_space _).trans ((gets_line [] (by simp) rfl settingsLines).trans gets_settings))

theorem tokens?_of_gets {chars : List Char}
    (gets : Gets 0 (between (-1) [] [] true chars) 0 (between 2 [0, -1] tokens true [])) :
    (Scanner.start chars).tokens? (chars.length + 1) = some (tokens.reverse ++ [.blockEnd, .blockEnd]) := by
  obtain ⟨pos, there, n, few, steps⟩ := gets .start rfl
  obtain ⟨fuel, enough⟩ : ∃ fuel, chars.length + 1 = fuel + 1 + n := by
    change n + 0 ≤ chars.length at few
    exact ⟨chars.length - n, by omega⟩
  have closed : (between 2 [0, -1] tokens true [] pos).closeBlocks pos.column =
      between 0 [-1] (.blockEnd :: tokens) true [] pos := by
    rw [there]
    rfl
  change (between (-1) [] [] true chars .start).tokens? (chars.length + 1) = _
  rw [enough, steps, tokens?]
  change (between 2 [0, -1] tokens true [] pos).dropStaleKeys?.bind _ = _
  rw [dropStaleKeys?_between, Option.bind_some,
    show (between 2 [0, -1] tokens true [] pos).column = pos.column from rfl, closed]
  simp [between, finish?, closeBlocks, closeBlocksTo, inFlow, dropKey?, giveUp?]

def initialTokens (name : List Token) : List Token :=
  nameTokens ++ (name ++ (settingsTokens ++ [.blockEnd, .blockEnd]))

/-! ## Line ends -/

theorem tokenize?_initialText (name : String) :
    tokenize? (initialText name) =
      if name.toList.all isAllowed then
        (Scanner.start (opening.toList ++ uniformBreaks (name.toList ++ '\n' :: settingsLines))).tokens?
          ((opening.toList ++ uniformBreaks (name.toList ++ '\n' :: settingsLines)).length + 1)
      else none := by
  have uniform : opening.toList.all isUniform := by decide
  have first : (initialText name).toList =
      '#' :: (opening.toList.tail ++ (name.toList ++ '\n' :: settingsLines)) := toList_initialText name
  have allowed : (initialText name).toList.all isAllowed = name.toList.all isAllowed := by
    have start : opening.toList.all isAllowed := by decide
    have later : ('\n' :: settingsLines).all isAllowed := by decide +kernel
    rw [toList_initialText, List.all_append, List.all_append, start, later, Bool.true_and, Bool.and_true]
  rw [tokenize?_unmarked first (by decide) (by decide), allowed, toList_initialText,
    uniformBreaks_append (List.all_eq_true.1 uniform)]

theorem uniform_settingsLines : ∀ c ∈ settingsLines, isUniform c :=
  List.all_eq_true.1 (by decide +kernel)

theorem tokenize?_of_gets {name : String} {tokens : List Token} (own : ∀ c ∈ name.toList, isAllowed c ∧ isUniform c)
    (gets : Gets 0 (between (-1) [] [] true (initialText name).toList) 0 (between 2 [0, -1] tokens true [])) :
    tokenize? (initialText name) = some (tokens.reverse ++ [.blockEnd, .blockEnd]) := by
  have uniform : ∀ c ∈ name.toList ++ '\n' :: settingsLines, isUniform c :=
    List.forall_mem_append.2 ⟨fun c mem => (own c mem).2,
      List.forall_mem_cons.2 ⟨by decide, uniform_settingsLines⟩⟩
  rw [tokenize?_initialText, if_pos (List.all_eq_true.2 fun c mem => (own c mem).1), uniformBreaks_eq_self uniform,
    ← toList_initialText]
  exact tokens?_of_gets gets

/-! ## Nodes -/

def plainNode (text : String) : Yaml.Node := .scalar ⟨text, true, none⟩

def quotedNode (text : String) : Yaml.Node := .scalar ⟨text, false, none⟩

def codegenEntries : List (Yaml.Node × Yaml.Node) :=
  [(plainNode "function_prefix", plainNode "cmd_"), (plainNode "command_prefix", quotedNode "!"),
    (plainNode "token", plainNode "YOUR_TOKEN_HERE")]

def canvasEntries : List (Yaml.Node × Yaml.Node) :=
  [(plainNode "node_width", plainNode "140"), (plainNode "node_height", plainNode "60"),
    (plainNode "port_gap", plainNode "6")]

def settingsEntries : List (Yaml.Node × Yaml.Node) :=
  [(plainNode "version", quotedNode "0.1.0"), (plainNode "layout", plainNode "layout.json"),
    (plainNode "output", plainNode "bot.py"), (plainNode "codegen", .mapping codegenEntries),
    (plainNode "canvas", .mapping canvasEntries)]

def initialRoot (name : String) : Yaml.Node := .mapping ((plainNode "name", plainNode name) :: settingsEntries)

def parseRoot (tokens : List Token) : Option (Yaml.Node × Parser) :=
  (Parse.root (4 * tokens.length + 4)).run ⟨tokens, Parse.standardHandles, [], [], 0, 0⟩

set_option maxRecDepth 10000 in
theorem parseRoot_plainName (name : String) :
    parseRoot (initialTokens [.scalar ⟨name, true⟩]) =
      some (initialRoot name, ⟨[], Parse.standardHandles, [], [], 0, 28⟩) := by
  rfl

set_option maxRecDepth 10000 in
theorem parseRoot_noName :
    parseRoot (initialTokens []) = some (initialRoot "", ⟨[], Parse.standardHandles, [], [], 0, 28⟩) := by
  rfl

/-! ## Settings -/

def initial (name : String) : ProjectFile := ⟨name, "0.1.0", "layout.json", "bot.py", none, {}, .standard⟩

theorem decodeSettings_codegen : decodeSettings (.mapping codegenEntries) = pure {} := by rfl

theorem float_plain {text : String} {x : Float} (number : floatOf? text = some x) :
    float (plainNode text) = pure x := by
  simp [float, plainNode, follow, number]

theorem decodeShape_canvas : decodeShape (.mapping canvasEntries) = pure .standard := by
  have known : fields ["node_width", "node_height", "port_gap"] (.mapping canvasEntries) =
      pure [("node_width", plainNode "140"), ("node_height", plainNode "60"), ("port_gap", plainNode "6")] := by
    rfl
  have width : floatOf? "140" = some (Scalar.ofNat 140) := by decide +kernel
  have height : floatOf? "60" = some (Scalar.ofNat 60) := by decide +kernel
  have gap : floatOf? "6" = some (Scalar.ofNat 6) := by decide +kernel
  simp [decodeShape, known, fieldOr, List.lookup_cons, float_plain width, float_plain height, float_plain gap,
    NodeShape.standard]

theorem decode_initialRoot (name : String) : decode (initialRoot name) = pure (initial name) := by
  have known : fields ["name", "version", "layout", "output", "catalog", "codegen", "canvas"] (initialRoot name) =
      pure [("name", plainNode name), ("version", quotedNode "0.1.0"), ("layout", plainNode "layout.json"),
        ("output", plainNode "bot.py"), ("codegen", .mapping codegenEntries), ("canvas", .mapping canvasEntries)] := by
    rfl
  have text (s : Yaml.Scalar) : string (.scalar s) = pure s.value := rfl
  simp only [decode, known, pure_bind, fieldOr, field, List.lookup_cons, String.reduceBEq, decodeSettings_codegen,
    decodeShape_canvas, plainNode, quotedNode, text]
  rfl

theorem check_initial (name : String) : (initial name).check = .ok () := by
  have size : 0 < (initial name).shape.width ∧ 0 < (initial name).shape.height := by
    change 0 < (initial "").shape.width ∧ 0 < (initial "").shape.height
    decide +kernel
  have gap : (initial name).shape.portGap.isFinite := by
    change (initial "").shape.portGap.isFinite
    decide +kernel
  have stem : (initial name).settings.functionStem.isEmpty = false := by rfl
  simp only [check, size, gap, stem]
  rfl

/-! ## Reading a new project file -/

theorem parse_of_tokens {name : String} {tokens : List Token}
    (own : tokenize? (initialText name) = some (initialTokens tokens))
    (root : parseRoot (initialTokens tokens) = some (initialRoot name, ⟨[], Parse.standardHandles, [], [], 0, 28⟩)) :
    parse (initialText name) = .ok (initial name) := by
  have document : Document.parse? (initialText name) = some (some ⟨initialRoot name, [], 28⟩) := by
    have nonempty : initialTokens tokens ≠ [] := List.cons_ne_nil _ _
    unfold parseRoot at root
    simp [Document.parse?, own, root, nonempty, latest]
  have decoded : decode? (initialText name) none decode = some (initial name) := by
    unfold decode?
    rw [document]
    simp [decode_initialRoot]
  simp [parse, decoded, check_initial]

theorem parse_plainName {name : String} (plain : isPlainLine name.toList) :
    parse (initialText name) = .ok (initial name) := by
  refine @parse_of_tokens name [.scalar ⟨name, true⟩] ?_ (parseRoot_plainName name)
  have own : ∀ c ∈ name.toList, isAllowed c ∧ isUniform c := by
    intro c mem
    obtain ⟨allowed, -, uniform⟩ := of_staysOnLine (staysOnLine_of_mem plain mem)
    exact ⟨allowed, uniform⟩
  rw [tokenize?_of_gets own (gets_plainName plain)]
  simp [initialTokens]

theorem parse_noName : parse (initialText "") = .ok (initial "") := by
  refine @parse_of_tokens "" [] ?_ parseRoot_noName
  rw [tokenize?_of_gets (by simp) gets_noName]
  simp [initialTokens]

end FlowScript.ProjectFile
