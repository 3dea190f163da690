import FlowScript.Proofs.Yaml.Plain

namespace FlowScript.Yaml.Scanner
variable {s s' s'' : Scanner}

/-! ## Steps -/

def Reads (s s' : Scanner) : Prop :=
  ∃ n, n + s'.rest.chars.length ≤ s.rest.chars.length ∧ ∀ fuel, s.tokens? (fuel + n) = s'.tokens? fuel

theorem Reads.trans (h : Reads s s') (h' : Reads s' s'') : Reads s s'' := by
  obtain ⟨m, taken, steps⟩ := h
  obtain ⟨n, taken', steps'⟩ := h'
  refine ⟨m + n, by omega, fun fuel => ?_⟩
  rw [Nat.add_comm m n, ← Nat.add_assoc, steps, steps']

theorem reads_of_skip (shorter : s'.rest.chars.length ≤ s.rest.chars.length)
    (same : s.toNextToken (s.rest.chars.length + 1) = s'.toNextToken (s'.rest.chars.length + 1)) : Reads s s' := by
  refine ⟨0, by omega, fun fuel => ?_⟩
  cases fuel with
  | zero => rfl
  | succ fuel => rw [Nat.add_zero, tokens?, tokens?, same]

@[simp] theorem closeBlocks_rest (s : Scanner) (column : Int) : (s.closeBlocks column).rest = s.rest := by
  unfold closeBlocks
  split <;> rfl

theorem reads_token {s₁ s₂ : Scanner} {c : Char} {rest : List Char}
    (skipped : s.toNextToken (s.rest.chars.length + 1) = s₁) (fresh : s₁.dropStaleKeys? = some s₂)
    (chars : s₂.rest.chars = c :: rest) (token : (s₂.closeBlocks s₂.column).tokenAt? c rest = some s')
    (shorter : s'.rest.chars.length < s.rest.chars.length) : Reads s s' := by
  refine ⟨1, by omega, fun fuel => ?_⟩
  rw [tokens?, skipped, fresh]
  simp only [Option.bind_eq_bind, Option.bind_some, closeBlocks_rest, chars]
  rw [token]
  rfl

/-! ## White space and comments -/

theorem dropWhile_here {r : Rest} {c : Char} {rest : List Char} (chars : r.chars = c :: rest) {p : Char → Bool}
    (stays : p c = false) : r.dropWhile p = r := by
  rw [Rest.dropWhile, chars, List.takeWhile_cons_of_neg (by simp [stays])]
  rfl

theorem dropWhile_span {taken rest : List Char} {pos : Position} {p : Char → Bool} (all : ∀ c ∈ taken, p c)
    (stop : rest.head?.all (!p ·)) :
    Rest.dropWhile ⟨taken ++ rest, pos⟩ p = ⟨rest, pos.advance taken.length⟩ := by
  have whole : (taken ++ rest).takeWhile p = taken := by
    rw [List.takeWhile_append_of_pos all]
    cases rest with
    | nil => simp
    | cons c rest =>
        have stays : p c = false := by simpa using stop
        simp [stays]
  rw [Rest.dropWhile, whole, Rest.drop, List.drop_left]

theorem length_dropWhile_le (r : Rest) (p : Char → Bool) : (r.dropWhile p).chars.length ≤ r.chars.length := by
  simp [Rest.dropWhile, Rest.drop]

def skipLine (s : Scanner) : Rest :=
  let r := s.rest.dropWhile (isFiller (s.inFlow || !s.keyAllowed))
  if r.chars.head? = some '#' then r.dropLine else r

theorem toNextToken_succ (fuel : Nat) (s : Scanner) : s.toNextToken (fuel + 1) =
    match s.skipLine.chars with
    | c :: rest =>
        if isBreak c then
          toNextToken fuel
            { s with rest := ⟨rest, s.skipLine.pos.next c⟩, keyAllowed := s.keyAllowed || !s.inFlow }
        else { s with rest := s.skipLine }
    | [] => { s with rest := s.skipLine } := rfl

theorem length_skipLine_le (s : Scanner) : s.skipLine.chars.length ≤ s.rest.chars.length := by
  have first := length_dropWhile_le s.rest (isFiller (s.inFlow || !s.keyAllowed))
  unfold skipLine
  dsimp only
  split
  · exact Nat.le_trans (length_dropWhile_le _ (!isBreak ·)) first
  · exact first

theorem toNextToken_here {c : Char} {rest : List Char} (chars : s.rest.chars = c :: rest) (solid : isSpace c = false)
    (unhashed : c ≠ '#') (fuel : Nat) : s.toNextToken (fuel + 1) = s := by
  rw [isSpace, isBlank, Bool.or_eq_false_iff, Bool.or_eq_false_iff] at solid
  have unfilled : isFiller (s.inFlow || !s.keyAllowed) c = false := by
    have := of_decide_eq_false solid.1.1
    have := of_decide_eq_false solid.1.2
    simp [isFiller, *]
  have stays : s.skipLine = s.rest := by
    unfold skipLine
    rw [dropWhile_here chars unfilled, if_neg (by simpa [chars] using unhashed)]
  rw [toNextToken_succ, stays, chars]
  simp [solid.2]

theorem toNextToken_fuel {m n : Nat} (enough : s.rest.chars.length < m) (enough' : s.rest.chars.length < n) :
    s.toNextToken m = s.toNextToken n := by
  induction m generalizing n s with
  | zero => omega
  | succ m ih =>
      cases n with
      | zero => omega
      | succ n =>
          have shorter := s.length_skipLine_le
          rw [toNextToken_succ, toNextToken_succ]
          cases chars : s.skipLine.chars with
          | nil => rfl
          | cons c rest =>
              rw [chars, List.length_cons] at shorter
              dsimp only
              split
              · exact ih (by dsimp only; omega) (by dsimp only; omega)
              · rfl

def between (indent : Int) (outerIndents : List Int) (tokens : List Token) (keyAllowed : Bool) (chars : List Char)
    (pos : Position) : Scanner :=
  ⟨⟨chars, pos⟩, tokens, indent, outerIndents, none, [], keyAllowed⟩

variable {indent : Int} {outerIndents : List Int} {tokens : List Token} {keyAllowed : Bool} {pos : Position}

theorem reads_space (after : List Char) :
    Reads (between indent outerIndents tokens keyAllowed (' ' :: after) pos)
      (between indent outerIndents tokens keyAllowed after (pos.advance 1)) := by
  have same : (between indent outerIndents tokens keyAllowed (' ' :: after) pos).skipLine =
      (between indent outerIndents tokens keyAllowed after (pos.advance 1)).skipLine := by
    have dropped (p : Char → Bool) (space : p ' ') :
        Rest.dropWhile ⟨' ' :: after, pos⟩ p = Rest.dropWhile ⟨after, pos.advance 1⟩ p := by
      simp only [Rest.dropWhile, Rest.drop, List.takeWhile_cons_of_pos space, List.length_cons, List.drop_succ_cons,
        advance_advance, Nat.add_comm 1]
    unfold skipLine
    rw [show (between indent outerIndents tokens keyAllowed (' ' :: after) pos).rest = ⟨' ' :: after, pos⟩ from rfl,
      dropped _ (by simp [isFiller])]
    rfl
  apply reads_of_skip (Nat.le_succ _)
  change toNextToken (after.length + 1 + 1) _ = toNextToken (after.length + 1) _
  have more : toNextToken (after.length + 1) (between indent outerIndents tokens keyAllowed after (pos.advance 1)) =
      toNextToken (after.length + 1 + 1) (between indent outerIndents tokens keyAllowed after (pos.advance 1)) :=
    toNextToken_fuel (Nat.lt_succ_self _) (Nat.lt_succ_of_lt (Nat.lt_succ_self _))
  rw [more, toNextToken_succ, toNextToken_succ, same]
  rfl

theorem reads_line (line : List Char) (inline : ∀ c ∈ line, isBreak c = false)
    (comment : line.head?.all (· = '#')) (after : List Char) :
    Reads (between indent outerIndents tokens keyAllowed (line ++ '\n' :: after) pos)
      (between indent outerIndents tokens true after ((pos.advance line.length).next '\n')) := by
  have skipped : (between indent outerIndents tokens keyAllowed (line ++ '\n' :: after) pos).skipLine =
      ⟨'\n' :: after, pos.advance line.length⟩ := by
    unfold skipLine
    cases line with
    | nil =>
        rw [dropWhile_here (c := '\n') rfl (by simp [isFiller])]
        rfl
    | cons c rest =>
        have hash : c = '#' := by simpa using comment
        subst hash
        rw [dropWhile_here (c := '#') rfl (by simp [isFiller])]
        exact dropWhile_span (by simpa using inline) rfl
  apply reads_of_skip
  · simp only [between, List.length_append, List.length_cons]
    omega
  change toNextToken ((line ++ '\n' :: after).length + 1) _ = toNextToken (after.length + 1) _
  rw [toNextToken_succ, skipped]
  simp only [between, inFlow, List.isEmpty_nil, Bool.not_true, Bool.not_false, Bool.or_true]
  rw [if_pos (by decide)]
  refine toNextToken_fuel ?_ (Nat.lt_succ_self _)
  rw [List.length_append, List.length_cons]
  exact Nat.lt_add_left _ (Nat.lt_succ_self _)

/-! ## Keys -/

theorem tokenAt?_plain {c : Char} {rest : List Char} (block : s.inFlow = false) (begins : beginsPlain c rest)
    (unmarked : s.column = 0 → atDocumentBoundary (c :: rest) = false) : s.tokenAt? c rest = s.plain? := by
  have dashes : (s.column = 0 && atDocumentMark '-' (c :: rest)) = false := by
    by_cases first : s.column = 0
    · have := unmarked first
      rw [atDocumentBoundary, Bool.or_eq_false_iff] at this
      simp [this.1]
    · simp [first]
  have dots : (s.column = 0 && atDocumentMark '.' (c :: rest)) = false := by
    by_cases first : s.column = 0
    · have := unmarked first
      rw [atDocumentBoundary, Bool.or_eq_false_iff] at this
      simp [this.2]
    · simp [first]
  simp only [beginsPlain, Bool.and_eq_true, Bool.or_eq_true, Bool.not_eq_true', decide_eq_true_eq] at begins
  obtain ⟨solid, plain | ⟨mark, followed⟩⟩ := begins
  · simp only [isIndicator, List.contains_cons, List.contains_nil, Bool.or_false, Bool.or_eq_false_iff,
      beq_eq_false_iff_ne] at plain
    simp [tokenAt?, startsPlain, isIndicator, solid, dashes, dots, plain]
  · have open_ : rest.head?.any isBlank = false := by
      cases rest with
      | nil => rfl
      | cons d more =>
          simp only [atSpace, isSpace, Bool.or_eq_false_iff] at followed
          simpa using followed.1
    rcases mark with (rfl | rfl) | rfl <;>
      simp [tokenAt?, startsPlain, isIndicator, dashes, dots, followed, block, open_]

def isKeyWord (key : List Char) : Bool :=
  key.all isWord && key.head?.any (· ≠ '-') && key.length ≤ longestKey

theorem plainFrom_colon {after : List Char} (ends : atSpace after) (indent : Int) (text : List Char)
    (pos : Position) :
    plainFrom false indent .none text pos (':' :: after) = some ⟨text.reverse, ⟨':' :: after, pos⟩, false⟩ := by
  rw [plainFrom, if_neg (by decide), if_neg (by simp), if_neg (by simp), if_pos (by simpa [endsPlain] using ends)]
  rfl

def behindWord (indent : Int) (outerIndents : List Int) (tokens : List Token) (key after : List Char) (pos : Position) :
    Scanner :=
  ⟨⟨':' :: after, pos.advance key.length⟩, .scalar ⟨String.ofList key, true⟩ :: tokens, indent, outerIndents,
    some ⟨tokens.length, pos, indent = pos.column⟩, [], false⟩

theorem plain?_key {key after : List Char} (word : ∀ c ∈ key, isWord c) (ends : atSpace after) :
    (between indent outerIndents tokens true (key ++ ':' :: after) pos).plain? =
      some (behindWord indent outerIndents tokens key after pos) := by
  have read : Yaml.plain? false (indent + 1) ⟨key ++ ':' :: after, pos⟩ =
      some ⟨key, ⟨':' :: after, pos.advance key.length⟩, false⟩ := by
    rw [Yaml.plain?, plainFrom_word word, plainFrom_colon ends]
    simp
  simp [plain?, saveKey?, dropKey?, giveUp?, between, inFlow, column, read, push, allowKey, behindWord]
  rfl

theorem closeBlocks_inside {column : Int} (inside : s.indent ≤ column) : s.closeBlocks column = s := by
  unfold closeBlocks
  split
  · rfl
  · have stays : closeBlocksTo column s.indent s.tokens s.outerIndents = (s.indent, s.outerIndents, s.tokens) := by
      cases s.outerIndents with
      | nil => rfl
      | cons outer more => rw [closeBlocksTo, if_neg (by omega)]
    rw [stays]

def behindKey (indent : Int) (outerIndents : List Int) (tokens : List Token) (key after : List Char) (pos : Position) :
    Scanner :=
  if indent < pos.column then
    between pos.column (indent :: outerIndents)
      (.value :: .scalar ⟨String.ofList key, true⟩ :: .key :: .blockMappingStart :: tokens) false after
      (pos.advance (key.length + 1))
  else
    between indent outerIndents (.value :: .scalar ⟨String.ofList key, true⟩ :: .key :: tokens) false after
      (pos.advance (key.length + 1))

theorem value?_behindWord (key after : List Char) :
    (behindWord indent outerIndents tokens key after pos).value? =
      some (behindKey indent outerIndents tokens key after pos) := by
  have two : tokens.length + 1 + 1 - tokens.length = 2 := by omega
  by_cases deeper : indent < pos.column
  · simp [behindWord, value?, insertAt, openBlock, inFlow, between, behindKey, deeper, Int.not_le.2 deeper, allowKey,
      skip, push, Rest.drop, advance_advance, two]
  · simp [behindWord, value?, insertAt, openBlock, inFlow, between, behindKey, deeper, Int.not_lt.1 deeper, allowKey,
      skip, push, Rest.drop, advance_advance]

theorem unmarked {c mark : Char} (differs : c ≠ mark) (rest : List Char) : atDocumentMark mark (c :: rest) = false := by
  rcases rest with _ | ⟨d, _ | ⟨e, rest⟩⟩
  · rfl
  · rfl
  · simp [atDocumentMark, differs]

theorem begins_word {c : Char} (word : isWord c) (undashed : c ≠ '-') (rest : List Char) :
    beginsPlain c rest ∧ atDocumentBoundary (c :: rest) = false ∧ c ≠ '#' := by
  have marks : ∀ d, isIndicator d → isWord d → d = '-' := by
    intro d mark word
    have : (['-', '?', ':', ',', '[', ']', '{', '}', '#', '&', '*', '!', '|', '>', '\'', '"', '%', '@', '\x60'].all
      fun d => !isWord d || d = '-') := by decide
    simp only [isIndicator, List.contains_iff_mem] at mark
    simpa [word] using List.all_eq_true.1 this d mark
  have plain : isIndicator c = false := by
    by_cases mark : isIndicator c
    · exact absurd (marks c mark word) undashed
    · simpa using mark
  have differs {d : Char} (other : isWord d = false) : c ≠ d := by
    rintro rfl
    rw [word] at other
    cases other
  refine ⟨by simp [beginsPlain, (word_solid word).1, plain], ?_, differs (by decide)⟩
  rw [atDocumentBoundary, unmarked undashed, unmarked (differs (by decide))]
  rfl

theorem dropStaleKeys?_between {chars : List Char} :
    (between indent outerIndents tokens keyAllowed chars pos).dropStaleKeys? =
      some (between indent outerIndents tokens keyAllowed chars pos) := rfl

theorem reads_key {key after : List Char} (word : isKeyWord key) (ends : atSpace after)
    (inside : indent ≤ pos.column) :
    Reads (between indent outerIndents tokens true (key ++ ':' :: after) pos)
      (behindKey indent outerIndents tokens key after pos) := by
  simp only [isKeyWord, Bool.and_eq_true, List.all_eq_true, decide_eq_true_eq] at word
  obtain ⟨⟨word, first⟩, short⟩ := word
  have name : Reads (between indent outerIndents tokens true (key ++ ':' :: after) pos)
      (behindWord indent outerIndents tokens key after pos) := by
    cases key with
    | nil => cases first
    | cons c rest =>
        obtain ⟨begins, unmarked, unhashed⟩ :=
          begins_word (word c List.mem_cons_self) (by simpa using first) (rest ++ ':' :: after)
        have solid := (word_solid (word c List.mem_cons_self)).1
        refine reads_token (toNextToken_here rfl solid unhashed _) dropStaleKeys?_between rfl ?_ ?_
        · rw [closeBlocks_inside inside]
          exact (tokenAt?_plain rfl begins fun _ => unmarked).trans (plain?_key word ends)
        · simp only [behindWord, between, List.length_cons, List.length_append]
          omega
  have colon : Reads (behindWord indent outerIndents tokens key after pos)
      (behindKey indent outerIndents tokens key after pos) := by
    have fresh : (behindWord indent outerIndents tokens key after pos).dropStaleKeys? =
        some (behindWord indent outerIndents tokens key after pos) := by
      simp [dropStaleKeys?, dropStale?, isStale, behindWord, Position.advance, Nat.not_lt.2 short]
    refine reads_token (toNextToken_here rfl (by decide) (by decide) _) fresh rfl ?_ ?_
    · rw [closeBlocks_inside (by simp [behindWord, column, Position.advance]; omega), ← value?_behindWord]
      simp [tokenAt?, ends, unmarked]
    · unfold behindKey
      split <;> exact Nat.lt_succ_self _
  exact name.trans colon

/-! ## Plain values -/

def isBreakWithMargin (space : List Char) : Bool :=
  space.head? = some '\n' && space.all fun c => c = ' ' || c = '\n'

theorem broken_pushes {g : Gap} (broken : g.broken) (space : List Char) : (space.foldl Gap.push g).broken := by
  induction space generalizing g with
  | nil => exact broken
  | cons c rest ih => exact ih (Gap.broken_push broken c)

theorem plainFrom_space {space : List Char} (spaces : ∀ c ∈ space, c = ' ' ∨ c = '\n') (indent : Int) (gap : Gap)
    (text : List Char) (pos : Position) (after : List Char) :
    plainFrom false indent gap text pos (space ++ after) =
      plainFrom false indent (space.foldl Gap.push gap) text (space.foldl Position.next pos) after := by
  induction space generalizing gap pos with
  | nil => rfl
  | cons c rest ih =>
      obtain ⟨space, spaces⟩ := List.forall_mem_cons.1 spaces
      rw [List.cons_append, plainFrom, List.foldl_cons, List.foldl_cons, ← ih spaces]
      rcases space with rfl | rfl <;> rfl

theorem plainFrom_outdented {gap : Gap} (broken : gap.broken) {indent : Int} {pos : Position}
    (outdented : pos.column < indent) {after : List Char} (solid : after.head?.all (!isSpace ·)) (text : List Char) :
    plainFrom false indent gap text pos after = some ⟨text.reverse, ⟨after, pos⟩, true⟩ := by
  cases after with
  | nil => rw [plainFrom, broken]
  | cons c rest =>
      have solid : isSpace c = false := by simpa using solid
      rw [plainFrom, if_neg (by simp [solid]), if_pos (by simp [Gap.isNone, broken, endsAtGap, outdented]), broken]

theorem plain?_line {value space after : List Char} (plain : isPlainLine value) (broken : isBreakWithMargin space)
    (solid : after.head?.all (!isSpace ·)) {indent : Int} {pos : Position} (inside : indent ≤ pos.column)
    (later : 0 < pos.column)
    (outdented : (space.foldl Position.next (pos.advance value.length)).column < indent) :
    Yaml.plain? false indent ⟨value ++ (space ++ after), pos⟩ =
      some ⟨value, ⟨after, space.foldl Position.next (pos.advance value.length)⟩, true⟩ := by
  have continues : continuesPlain false value := by
    cases value with
    | nil => cases plain
    | cons c rest =>
        rw [isPlainLine, Bool.and_eq_true] at plain
        exact plain.2
  rw [isBreakWithMargin, Bool.and_eq_true, decide_eq_true_eq, List.all_eq_true] at broken
  obtain ⟨first, spaces⟩ := broken
  have spaces : ∀ c ∈ space, c = ' ' ∨ c = '\n' := by simpa using spaces
  have gap : (space.foldl Gap.push .none).broken := by
    cases space with
    | nil => cases first
    | cons c rest =>
        have same : c = '\n' := by simpa using first
        subst same
        exact broken_pushes (g := Gap.none.push '\n') rfl rest
  have inline : ∀ c ∈ value, isBreak c = false := fun c mem => (of_staysOnLine (staysOnLine_of_mem plain mem)).2.1
  have line := @plainFrom_line value inline [] continues _ _ inside later [] (space ++ after)
  rw [Yaml.plain?, ← Gap.ofBlanks_nil, line, plainFrom_space spaces, plainFrom_outdented gap outdented solid]
  simp

theorem begins_line {c : Char} {rest : List Char} (plain : isPlainLine (c :: rest)) (after : List Char) :
    beginsPlain c (rest ++ after) ∧ isSpace c = false ∧ c ≠ '#' := by
  rw [isPlainLine, Bool.and_eq_true, Bool.and_eq_true] at plain
  have begins := plain.1.2
  simp only [beginsPlain, Bool.and_eq_true, Bool.or_eq_true, Bool.not_eq_true', decide_eq_true_eq] at begins ⊢
  obtain ⟨solid, kind⟩ := begins
  refine ⟨⟨solid, ?_⟩, solid, ?_⟩
  · rcases kind with plain | ⟨mark, followed⟩
    · exact .inl plain
    · cases rest with
      | nil => cases followed
      | cons d more => exact .inr ⟨mark, followed⟩
  · rintro rfl
    rcases kind with mark | ⟨(mark | mark) | mark, -⟩ <;> exact absurd mark (by decide)

theorem plain?_value {chars text after : List Char} {pos' : Position} {broken : Bool}
    (read : Yaml.plain? false (indent + 1) ⟨chars, pos⟩ = some ⟨text, ⟨after, pos'⟩, broken⟩) :
    (between indent outerIndents tokens false chars pos).plain? =
      some (between indent outerIndents (.scalar ⟨String.ofList text, true⟩ :: tokens) broken after pos') := by
  simp [Scanner.plain?, saveKey?, between, inFlow, read, allowKey, push]

theorem reads_plain {value space after : List Char} (plain : isPlainLine value) (broken : isBreakWithMargin space)
    (solid : after.head?.all (!isSpace ·)) (inside : indent < pos.column) (later : 0 < pos.column)
    (outdented : (space.foldl Position.next (pos.advance value.length)).column ≤ indent) :
    Reads (between indent outerIndents tokens false (value ++ (space ++ after)) pos)
      (between indent outerIndents (.scalar ⟨String.ofList value, true⟩ :: tokens) true after
        (space.foldl Position.next (pos.advance value.length))) := by
  have read := plain?_line plain broken solid (Int.add_one_le_of_lt inside) later (Int.lt_add_one_of_le outdented)
  cases value with
  | nil => cases plain
  | cons c rest =>
      obtain ⟨begins, solidC, unhashed⟩ := begins_line plain (space ++ after)
      refine reads_token (toNextToken_here rfl solidC unhashed _) dropStaleKeys?_between rfl ?_ ?_
      · rw [closeBlocks_inside (Int.le_of_lt inside)]
        have behind : (between indent outerIndents tokens false (c :: rest ++ (space ++ after)) pos).column ≠ 0 :=
          Nat.ne_of_gt later
        exact (tokenAt?_plain rfl begins fun first => absurd first behind).trans (plain?_value read)
      · simp only [between, List.length_cons, List.length_append]
        omega

/-! ## Quoted values -/

def isVerbatim (c : Char) : Bool := !isSpace c && c ≠ '"' && c ≠ '\\'

theorem doubleFrom_verbatim {value : List Char} (verbatim : ∀ c ∈ value, isVerbatim c) (text : List Char) {pos : Position}
    (later : 0 < pos.column) (after : List Char) :
    doubleFrom .none text pos (value ++ '"' :: after) =
      some (text.reverse ++ value, ⟨after, pos.advance (value.length + 1)⟩) := by
  have behind : ¬ pos.column = 0 := Nat.ne_of_gt later
  induction value generalizing text pos with
  | nil =>
      rw [List.nil_append, doubleFrom, if_neg (by decide), if_neg (by simp [behind]), if_pos rfl,
        next_eq_advance (by decide)]
      simp
  | cons c rest ih =>
      obtain ⟨own, verbatim⟩ := List.forall_mem_cons.1 verbatim
      simp only [isVerbatim, Bool.and_eq_true, Bool.not_eq_true', decide_eq_true_eq] at own
      obtain ⟨⟨solid, unquoted⟩, unescaped⟩ := own
      have inline : isBreak c = false := by
        rw [isSpace, Bool.or_eq_false_iff] at solid
        exact solid.2
      rw [List.cons_append, doubleFrom, if_neg (by simp [solid]), if_neg (by simp [behind]), if_neg unquoted,
        if_neg unescaped, next_eq_advance inline, ih verbatim _ (Nat.succ_pos _) (Nat.succ_ne_zero _)]
      simp [advance_advance, Nat.add_comm]

theorem reads_quoted {value : List Char} (verbatim : ∀ c ∈ value, isVerbatim c) (after : List Char)
    (inside : indent ≤ pos.column) :
    Reads (between indent outerIndents tokens false ('"' :: (value ++ '"' :: after)) pos)
      (between indent outerIndents (.scalar ⟨String.ofList value, false⟩ :: tokens) false after
        (pos.advance (value.length + 2))) := by
  have read : Yaml.quoted? ⟨'"' :: (value ++ '"' :: after), pos⟩ =
      some (value, ⟨after, pos.advance (value.length + 2)⟩) := by
    have inner := @doubleFrom_verbatim value verbatim [] (pos.advance 1) (Nat.succ_pos _) after
    rw [advance_advance, Nat.add_comm 1] at inner
    exact inner
  refine reads_token (toNextToken_here rfl (by decide) (by decide) _) dropStaleKeys?_between rfl ?_ ?_
  · rw [closeBlocks_inside inside]
    simp [tokenAt?, unmarked, quoted?, inline?, saveKey?, between, read, allowKey, push]
  · simp only [between, List.length_cons, List.length_append]
    omega

/-! ## Fields -/

/-- Wherever in a text a column is, scanning goes on from there to a place in another column. -/
def Gets (column : Nat) (f : Position → Scanner) (column' : Nat) (g : Position → Scanner) : Prop :=
  ∀ pos, pos.column = column → ∃ pos', pos'.column = column' ∧ Reads (f pos) (g pos')

theorem Gets.trans {f g h : Position → Scanner} {a b c : Nat} (first : Gets a f b g) (later : Gets b g c h) :
    Gets a f c h := by
  intro pos there
  obtain ⟨pos', there', reads⟩ := first pos there
  obtain ⟨pos'', there'', reads'⟩ := later pos' there'
  exact ⟨pos'', there'', reads.trans reads'⟩

def marginOf (space : List Char) : Nat := (space.foldl Position.next .start).column

theorem column_nexts {pos pos' : Position} (same : pos.column = pos'.column) (space : List Char) :
    (space.foldl Position.next pos).column = (space.foldl Position.next pos').column := by
  induction space generalizing pos pos' with
  | nil => exact same
  | cons c rest ih =>
      apply ih
      unfold Position.next
      split
      · rfl
      · exact congrArg (· + 1) same

theorem column_margin {space : List Char} (broken : isBreakWithMargin space) (pos : Position) :
    (space.foldl Position.next pos).column = marginOf space := by
  cases space with
  | nil => cases broken
  | cons c rest =>
      have first : c = '\n' := by
        rw [isBreakWithMargin, Bool.and_eq_true] at broken
        simpa using broken.1
      subst first
      exact @column_nexts (pos.next '\n') (Position.start.next '\n') rfl rest

theorem gets_line {column : Nat} (line : List Char) (inline : ∀ c ∈ line, isBreak c = false)
    (comment : line.head?.all (· = '#')) (after : List Char) :
    Gets column (between indent outerIndents tokens keyAllowed (line ++ '\n' :: after)) 0
      (between indent outerIndents tokens true after) :=
  fun _ _ => ⟨_, rfl, reads_line line inline comment after⟩

theorem gets_space {column : Nat} (after : List Char) :
    Gets column (between indent outerIndents tokens keyAllowed (' ' :: after)) (column + 1)
      (between indent outerIndents tokens keyAllowed after) :=
  fun pos there => ⟨pos.advance 1, congrArg (· + 1) there, reads_space after⟩

theorem gets_blockEnd {column : Nat} {outer : Int} {c : Char} {rest : List Char} (solid : isSpace c = false)
    (unhashed : c ≠ '#') (outdented : column < indent) :
    Gets column (between indent (outer :: outerIndents) tokens keyAllowed (c :: rest)) column
      (between outer outerIndents (.blockEnd :: tokens) keyAllowed (c :: rest)) := by
  rintro pos rfl
  refine ⟨pos, rfl, 0, Nat.le_of_eq (Nat.zero_add _), fun fuel => ?_⟩
  cases fuel with
  | zero => rfl
  | succ fuel =>
      have closed : (between indent (outer :: outerIndents) tokens keyAllowed (c :: rest) pos).closeBlocks pos.column =
          (between outer outerIndents (.blockEnd :: tokens) keyAllowed (c :: rest) pos).closeBlocks pos.column := by
        simp [closeBlocks, between, inFlow, closeBlocksTo, outdented]
      rw [Nat.add_zero, tokens?, tokens?, toNextToken_here rfl solid unhashed, toNextToken_here rfl solid unhashed,
        dropStaleKeys?_between, dropStaleKeys?_between]
      simp only [Option.bind_eq_bind, Option.bind_some]
      rw [show (between indent (outer :: outerIndents) tokens keyAllowed (c :: rest) pos).column = pos.column from rfl,
        show (between outer outerIndents (.blockEnd :: tokens) keyAllowed (c :: rest) pos).column = pos.column from rfl,
        closed]

variable {column : Nat} {key value space : String} {after : List Char}

theorem gets_key (word : isKeyWord key.toList) (ends : atSpace after) :
    Gets column (between column outerIndents tokens true (key.toList ++ ':' :: after))
      (column + (key.toList.length + 1))
      (between column outerIndents (.value :: .scalar ⟨key, true⟩ :: .key :: tokens) false after) := by
  rintro pos rfl
  have reads : Reads (between pos.column outerIndents tokens true (key.toList ++ ':' :: after) pos) _ :=
    reads_key word ends (Int.le_refl _)
  rw [behindKey, if_neg (Int.lt_irrefl _), String.ofList_toList] at reads
  exact ⟨_, rfl, reads⟩

theorem gets_firstKey (word : isKeyWord key.toList) (ends : atSpace after) (deeper : indent < column) :
    Gets column (between indent outerIndents tokens true (key.toList ++ ':' :: after))
      (column + (key.toList.length + 1))
      (between column (indent :: outerIndents)
        (.value :: .scalar ⟨key, true⟩ :: .key :: .blockMappingStart :: tokens) false after) := by
  rintro pos rfl
  have reads : Reads (between indent outerIndents tokens true (key.toList ++ ':' :: after) pos) _ :=
    reads_key word ends (Int.le_of_lt deeper)
  rw [behindKey, if_pos deeper, String.ofList_toList] at reads
  exact ⟨_, rfl, reads⟩

theorem gets_plain (plain : isPlainLine value.toList) (broken : isBreakWithMargin space.toList)
    (solid : after.head?.all (!isSpace ·)) (inside : indent ≤ column) (outdented : marginOf space.toList ≤ indent) :
    Gets column (between indent outerIndents tokens false (' ' :: (value.toList ++ (space.toList ++ after))))
      (marginOf space.toList) (between indent outerIndents (.scalar ⟨value, true⟩ :: tokens) true after) := by
  rintro pos rfl
  have margin := column_margin broken ((pos.advance 1).advance value.toList.length)
  have reads : Reads (between indent outerIndents tokens false _ (pos.advance 1)) _ :=
    reads_plain plain broken solid (Int.lt_add_one_of_le inside) (Nat.succ_pos _) (margin ▸ outdented)
  rw [String.ofList_toList] at reads
  exact ⟨_, margin, (reads_space _).trans reads⟩

theorem gets_quoted (verbatim : ∀ c ∈ value.toList, isVerbatim c) (inside : indent ≤ column) :
    Gets column
      (between indent outerIndents tokens false (' ' :: '"' :: (value.toList ++ '"' :: '\n' :: after))) 0
      (between indent outerIndents (.scalar ⟨value, false⟩ :: tokens) true after) := by
  rintro pos rfl
  have reads : Reads (between indent outerIndents tokens false _ (pos.advance 1)) _ :=
    reads_quoted verbatim ('\n' :: after) (Int.le_trans inside (Int.le_add_one (Int.le_refl _)))
  rw [String.ofList_toList] at reads
  refine ⟨_, ?_, (reads_space _).trans (reads.trans (reads_line [] (by simp) rfl after))⟩
  rfl

/-! ## The whole text -/

theorem tokenize?_unmarked {text : String} {c : Char} {rest : List Char} (chars : text.toList = c :: rest)
    (uniform : isUniform c) (unmarked : c ≠ byteOrderMark) :
    tokenize? text =
      if text.toList.all isAllowed then
        (Scanner.start (uniformBreaks text.toList)).tokens? ((uniformBreaks text.toList).length + 1)
      else none := by
  unfold tokenize?
  simp only [chars, if_neg unmarked, uniformBreaks_cons uniform]

end FlowScript.Yaml.Scanner
