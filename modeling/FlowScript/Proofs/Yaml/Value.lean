import FlowScript.Proofs.Yaml.Leading
import FlowScript.Proofs.Yaml.Marks

namespace FlowScript.Yaml.Scanner
variable {s s' : Scanner} {line after : List Char}

/-! ## White space -/

theorem dropWhile_line {pos : Position} {p : Char → Bool} (stops : p '\n' = false) :
    ∃ line', (Rest.dropWhile ⟨line ++ '\n' :: after, pos⟩ p).chars = line' ++ '\n' :: after ∧ line' <:+ line := by
  have within : ((line ++ '\n' :: after).takeWhile p).length ≤ line.length := by
    rw [List.takeWhile_append]
    split
    · simp [stops]
    · exact (List.takeWhile_sublist p).length_le
  refine ⟨line.drop ((line ++ '\n' :: after).takeWhile p).length, ?_, List.drop_suffix _ _⟩
  rw [Rest.dropWhile, Rest.drop, List.drop_append_of_le_length within]

theorem skipLine_line (chars : s.rest.chars = line ++ '\n' :: after) :
    ∃ line', s.skipLine.chars = line' ++ '\n' :: after ∧ line' <:+ line ∧ s.skipLine.pos.line = s.rest.pos.line := by
  have whole : s.rest = ⟨line ++ '\n' :: after, s.rest.pos⟩ := by rw [← chars]
  obtain ⟨line₁, chars₁, part⟩ :=
    @dropWhile_line line after s.rest.pos (isFiller (s.inFlow || !s.keyAllowed)) (by simp [isFiller])
  rw [← whole] at chars₁
  unfold skipLine
  dsimp only
  split
  · obtain ⟨line₂, chars₂, part'⟩ := @dropWhile_line line₁ after
      (s.rest.dropWhile (isFiller (s.inFlow || !s.keyAllowed))).pos (!isBreak ·) (by decide)
    rw [← chars₁] at chars₂
    exact ⟨line₂, chars₂, part'.trans part, rfl⟩
  · exact ⟨line₁, chars₁, part, rfl⟩

def startsToken (cs : List Char) : Bool := cs.head?.any fun c => !isSpace c && c ≠ '#'

theorem toNextToken_starts (starts : startsToken s.rest.chars) {fuel : Nat} (enough : s.rest.chars.length ≤ fuel) :
    s.toNextToken fuel = s := by
  cases chars : s.rest.chars with
  | nil =>
      rw [chars] at starts
      cases starts
  | cons c rest =>
      rw [chars] at starts enough
      simp only [startsToken, List.head?_cons, Option.any_some, Bool.and_eq_true, Bool.not_eq_true',
        decide_eq_true_eq] at starts
      cases fuel with
      | zero => cases enough
      | succ fuel => exact toNextToken_here chars starts.1 starts.2 fuel

theorem toNextToken_line (starts : startsToken after) (block : s.inFlow = false) {fuel : Nat}
    (enough : s.rest.chars.length < fuel) (chars : s.rest.chars = line ++ '\n' :: after) :
    (∃ c rest pos keyAllowed, c :: rest <:+ line ∧ s.rest.pos.line ≤ pos.line ∧
      s.toNextToken fuel = { s with rest := ⟨c :: (rest ++ '\n' :: after), pos⟩, keyAllowed := keyAllowed }) ∨
    ∃ pos, pos.column = 0 ∧ s.rest.pos.line < pos.line ∧
      s.toNextToken fuel = { s with rest := ⟨after, pos⟩, keyAllowed := true } := by
  induction fuel generalizing s line with
  | zero => omega
  | succ fuel ih =>
      obtain ⟨line', skipped, part, sameLine⟩ := skipLine_line chars
      have shorter : s.skipLine.chars.length ≤ s.rest.chars.length := s.length_skipLine_le
      have here : s.skipLine = ⟨line' ++ '\n' :: after, s.skipLine.pos⟩ := by rw [← skipped]
      rw [skipped, List.length_append, List.length_cons] at shorter
      rw [toNextToken_succ, skipped]
      cases line' with
      | nil =>
          have lineEnd : isBreak '\n' := by decide
          refine .inr ⟨s.skipLine.pos.next '\n', rfl, ?_, ?_⟩
          · rw [← sameLine]
            exact Nat.lt_succ_self _
          · simp only [List.nil_append, lineEnd, if_true, block, Bool.not_false, Bool.or_true]
            exact toNextToken_starts starts (by simp only [List.length_nil] at shorter ⊢; omega)
      | cons c rest =>
          rw [List.cons_append] at here ⊢
          dsimp only
          -- The text in front of the line end may have line ends of its own; behind one, less of it is left.
          by_cases lineEnd : isBreak c
          · rw [if_pos lineEnd]
            have within : rest <:+ line := (List.suffix_cons c rest).trans part
            rw [List.length_cons] at shorter
            have next : s.rest.pos.line < (s.skipLine.pos.next c).line := by
              rw [Position.next, if_pos lineEnd, ← sameLine]
              exact Nat.lt_succ_self _
            have behind := @ih { s with
              rest := ⟨rest ++ '\n' :: after, s.skipLine.pos.next c⟩
              keyAllowed := s.keyAllowed || !s.inFlow } rest block
              (by simp only [List.length_append, List.length_cons]; omega) rfl
            rcases behind with ⟨d, rest', pos, keyAllowed, part', later, same⟩ | ⟨pos, first, later, same⟩
            · exact .inl ⟨d, rest', pos, keyAllowed, part'.trans within,
                Nat.le_of_lt (Nat.lt_of_lt_of_le next later), same⟩
            · exact .inr ⟨pos, first, Nat.lt_trans next later, same⟩
          · rw [if_neg lineEnd, here]
            exact .inl ⟨c, rest, _, _, part, Nat.le_of_eq sameLine.symm, rfl⟩

/-! ## Where a scalar starts -/

/-- The scalar starts on the line, and is read from there, in a block that is not indented. -/
inductive ScalarFrom (line after : List Char) : ScalarText → Prop
  | quoted {c : Char} {rest text : List Char} {pos : Position} {r : Rest} (part : c :: rest <:+ line)
      (read : Yaml.quoted? ⟨c :: (rest ++ '\n' :: after), pos⟩ = some (text, r)) :
      ScalarFrom line after ⟨String.ofList text, false⟩
  | block {c : Char} {rest text : List Char} {pos : Position} {r : Rest} (part : c :: rest <:+ line)
      (mark : c = '|' ∨ c = '>') (read : Yaml.block? 0 ⟨c :: (rest ++ '\n' :: after), pos⟩ = some (text, r)) :
      ScalarFrom line after ⟨String.ofList text, false⟩
  | plain {c : Char} {rest : List Char} {pos : Position} {p : PlainEnd} (part : c :: rest <:+ line)
      (begins : startsPlain false c (rest ++ '\n' :: after))
      (unentered : ¬ (c = '-' ∧ atSpace (rest ++ '\n' :: after)))
      (read : Yaml.plain? false 1 ⟨c :: (rest ++ '\n' :: after), pos⟩ = some p) :
      ScalarFrom line after ⟨String.ofList p.text, true⟩

variable {line' : List Char} {t : ScalarText}

theorem ScalarFrom.within (h : ScalarFrom line' after t) (part : line' <:+ line) : ScalarFrom line after t := by
  cases h with
  | quoted part' read => exact .quoted (part'.trans part) read
  | block part' mark read => exact .block (part'.trans part) mark read
  | plain part' begins unentered read => exact .plain (part'.trans part) begins unentered read

theorem line_of_taken {taken rest : List Char} (inline : '\n' ∉ taken) (whole : line ++ '\n' :: after = taken ++ rest) :
    ∃ line', rest = line' ++ '\n' :: after ∧ line' <:+ line := by
  rcases List.append_eq_append_iff.1 whole with ⟨more, same, split⟩ | ⟨line', same, split⟩
  · cases more with
    | nil => exact ⟨[], split.symm, List.nil_suffix⟩
    | cons c more =>
        have lineEnd : '\n' = c := (List.cons.inj split).1
        exact absurd (same ▸ lineEnd ▸ by simp) inline
  · exact ⟨line', split, taken, same.symm⟩

/-! ## Steps -/

theorem tokens?_more {fuel : Nat} {tokens : List Token} (read : s.tokens? fuel = some tokens) (more : Nat) :
    s.tokens? (fuel + more) = some tokens := by
  induction fuel generalizing s with
  | zero => cases read
  | succ fuel ih =>
      rw [tokens?] at read
      rw [Nat.add_right_comm, tokens?]
      obtain ⟨s₁, fresh, read⟩ := Option.bind_eq_some_iff.1 read
      refine Option.bind_eq_some_iff.2 ⟨s₁, fresh, ?_⟩
      dsimp only at read ⊢
      split at read
      · exact read
      · obtain ⟨s', token, read⟩ := Option.bind_eq_some_iff.1 read
        exact Option.bind_eq_some_iff.2 ⟨s', token, ih read⟩

theorem Reads.tokens? (reads : Reads s s') {fuel : Nat} {tokens : List Token} (read : s.tokens? fuel = some tokens) :
    s'.tokens? fuel = some tokens := by
  obtain ⟨n, -, steps⟩ := reads
  rw [← steps]
  exact tokens?_more read n

theorem dropStaleKeys?_block (block : s.outerCandidates = []) (dropped : s.dropStaleKeys? = some s') :
    s' = { s with candidate := s'.candidate } ∧ dropStale? s.rest.pos s.candidate = some s'.candidate := by
  obtain ⟨candidate, first, dropped⟩ := Option.bind_eq_some_iff.1 dropped
  rw [block] at dropped
  cases dropped
  exact ⟨by rw [block]; rfl, first⟩

theorem dropStale?_stale {now : Position} {k k' : Option KeyCandidate} (stale : ∀ c ∈ k, c.place.line < now.line)
    (dropped : dropStale? now k = some k') : k' = none := by
  cases k with
  | none =>
      cases dropped
      rfl
  | some c =>
      have own := stale c rfl
      simp only [dropStale?, isStale, own, decide_true, Bool.true_or, if_true, giveUp?] at dropped
      split at dropped
      · cases dropped
      · exact (Option.some.inj dropped).symm

variable {head later : List Token}

theorem Behind.unique {later' : List Token} (behind : Behind head s later) (behind' : Behind head s' later')
    (same : s'.tokens = s.tokens) : later' = later :=
  List.append_cancel_left (behind'.tokens.symm.trans (same ▸ behind.tokens))

theorem grows_scalar {fuel : Nat} {later' : List Token} (read : s.tokens? fuel = some (head ++ later'))
    (behind : Behind head s later) (own : startOf later' = .scalar t) : (startOf later).Grows (.scalar t) := by
  obtain ⟨later'', same, grows⟩ := extends_tokens? read behind
  obtain rfl := List.append_cancel_left same
  rwa [own] at grows

theorem start_of_push {fuel : Nat} {later' : List Token} {s₁ : Scanner} {token : Token} (keeps : Keeps head s s₁)
    (behind : Behind head s later) (open_ : startOf later = .open) (tells : token.start ≠ .open)
    (read : (s₁.push token).tokens? fuel = some (head ++ later')) (own : startOf later' = .scalar t) :
    token.start = .scalar t := by
  obtain ⟨later₁, behind₁, start₁⟩ := keeps later behind
  have behind₂ : Behind head (s₁.push token) (later₁ ++ [token]) :=
    ⟨by rw [push, List.reverse_cons, behind₁.tokens, List.append_assoc], behind₁.candidate, behind₁.outerCandidates⟩
  have grows := grows_scalar read behind₂ own
  rw [startOf_append] at grows
  rcases start₁ with start₁ | start₁
  · rw [start₁, if_pos open_, startOf, if_neg tells] at grows
    cases told : token.start with
    | «open» => exact absurd told tells
    | scalar w =>
        rw [told] at grows
        exact congrArg _ grows
    | other =>
        rw [told] at grows
        cases grows
  · rw [start₁] at grows
    cases grows

def CandidateBy (s : Scanner) (n : Nat) : Prop := ∀ k ∈ s.candidate, k.place.line ≤ n

structure InValue (head : List Token) (line after : List Char) (s : Scanner) (later : List Token) : Prop where
  chars : s.rest.chars = line ++ '\n' :: after
  indent : s.indent = 0
  block : s.outerCandidates = []
  candidate : s.CandidateBy s.rest.pos.line
  behind : Behind head s later
  untold : startOf later = .open

theorem place_of_saveKey? (saved : s.saveKey? = some s') {n : Nat} (behind : s.rest.pos.line ≤ n)
    (candidate : s.CandidateBy n) : s'.CandidateBy n := by
  unfold saveKey? at saved
  split at saved
  · obtain ⟨s₁, dropped, same⟩ := Option.bind_eq_some_iff.1 saved
    cases same
    intro k own
    cases own
    rw [rest_of_dropKey? dropped]
    exact behind
  · cases saved
    exact candidate

theorem InValue.token {fuel : Nat} {later' : List Token} {c : Char} {rest : List Char}
    (inValue : InValue head (c :: rest) after s later) (reading : Reading s c (rest ++ '\n' :: after) s')
    (read : s'.tokens? fuel = some (head ++ later')) (own : startOf later' = .scalar t) :
    ScalarFrom (c :: rest) after t ∨
      ∃ line' later'', line' <:+ c :: rest ∧ InValue head line' after s' later'' := by
  obtain ⟨chars, unindented, block, candidate, behind, untold⟩ := inValue
  have here : s.rest = ⟨c :: (rest ++ '\n' :: after), s.rest.pos⟩ := by
    rw [← List.cons_append, ← chars]
  cases reading with
  -- A token that tells anything else, or a scalar other than this one, contradicts what is read in the end.
  | mark keeps other =>
      have := start_of_push (keeps head) behind untold (by simp [other]) read own
      rw [other] at this
      cases this
  | quoted keeps there =>
      cases start_of_push (keeps head) behind untold (by simp [Token.start]) read own
      rw [here] at there
      exact .inl (.quoted (List.suffix_refl _) there)
  | block keeps mark there =>
      cases start_of_push (keeps head) behind untold (by simp [Token.start]) read own
      rw [here, unindented] at there
      exact .inl (.block (List.suffix_refl _) mark there)
  | plain keeps begins there =>
      cases start_of_push (keeps head) behind untold (by simp [Token.start]) read own
      have flat : s.inFlow = false := by simp [inFlow, block]
      obtain ⟨starts, unentered⟩ := begins flat
      rw [here, flat, unindented] at there
      exact .inl (.plain (List.suffix_refl _) starts unentered there)
  -- A property tells nothing. It leaves its candidate on this line, since no line end is part of it.
  | @property s₁ r token saved passes openToken =>
      obtain ⟨sameLine, taken, solid, split⟩ := passes
      have inline : '\n' ∉ taken := fun mem => absurd (solid _ mem) (by decide)
      rw [chars] at split
      obtain ⟨line', chars', part⟩ := line_of_taken inline split
      obtain ⟨later₁, behind₁, -⟩ := keeps_saveKey? saved later behind
      have kept := rest_of_saveKey? saved
      obtain rfl : later₁ = later := behind.unique behind₁ (by rw [kept])
      have by_ := place_of_saveKey? saved (Nat.le_refl _) candidate
      refine .inr ⟨line', later₁ ++ [token], part, chars', ?_, ?_, ?_, ?_, ?_⟩
      · rw [kept]
        exact unindented
      · rw [kept]
        exact block
      · exact fun k own => Nat.le_trans (by_ k own) (Nat.le_of_eq sameLine.symm)
      · exact ⟨by rw [push, List.reverse_cons, allowKey, behind₁.tokens, List.append_assoc], behind₁.candidate,
          behind₁.outerCandidates⟩
      · rw [startOf_append, if_pos untold, startOf, if_pos openToken]
        rfl

theorem InValue.skipped {n : Nat} {c : Char} {rest : List Char} {pos : Position} {keyAllowed : Bool} {s₁ : Scanner}
    (inValue : InValue head line after s later) (sameOrLater : s.rest.pos.line ≤ pos.line)
    (skipped : s.toNextToken n = { s with rest := ⟨c :: (rest ++ '\n' :: after), pos⟩, keyAllowed := keyAllowed })
    (fresh : (s.toNextToken n).dropStaleKeys? = some s₁) :
    s₁.closeBlocks s₁.column = s₁ ∧ InValue head (c :: rest) after s₁ later := by
  obtain ⟨chars, unindented, block, candidate, behind, untold⟩ := inValue
  rw [skipped] at fresh
  obtain ⟨kept, dropped⟩ := dropStaleKeys?_block (by exact block) fresh
  have part : ∀ k ∈ s₁.candidate, k ∈ s.candidate := mem_of_dropStale? dropped
  refine ⟨closeBlocks_inside (by rw [kept]; simp [unindented]), ?_⟩
  refine ⟨by rw [kept]; rfl, by rw [kept]; exact unindented, by rw [kept]; exact block, fun k own => ?_, ?_, untold⟩
  · rw [kept]
    exact Nat.le_trans (candidate k (part k own)) sameOrLater
  · refine ⟨by rw [kept]; exact behind.tokens, fun k own => behind.candidate k (part k own), ?_⟩
    rw [kept]
    exact behind.outerCandidates

theorem InValue.nextLine {n : Nat} {pos : Position} {s₁ : Scanner} (inValue : InValue head line after s later)
    (further : s.rest.pos.line < pos.line)
    (skipped : s.toNextToken n = { s with rest := ⟨after, pos⟩, keyAllowed := true })
    (fresh : (s.toNextToken n).dropStaleKeys? = some s₁) : s₁ = between 0 s.outerIndents s.tokens true after pos := by
  obtain ⟨chars, unindented, block, candidate, behind, untold⟩ := inValue
  rw [skipped] at fresh
  obtain ⟨kept, dropped⟩ := dropStaleKeys?_block (by exact block) fresh
  have none : s₁.candidate = .none :=
    dropStale?_stale (fun k own => Nat.lt_of_le_of_lt (candidate k own) further) dropped
  rw [kept, none, between, unindented, block]

theorem startsToken_key {key next : List Char} (word : isKeyWord key) : startsToken (key ++ ':' :: next) := by
  simp only [isKeyWord, Bool.and_eq_true, List.all_eq_true, decide_eq_true_eq] at word
  obtain ⟨⟨word, first⟩, -⟩ := word
  cases key with
  | nil => cases first
  | cons c rest =>
      have own := word c List.mem_cons_self
      obtain ⟨-, -, unhashed⟩ := begins_word own (by simpa using first) (rest ++ ':' :: next)
      simp [startsToken, (word_solid own).1, unhashed]

theorem not_scalar_of_key {key next : List Char} (word : isKeyWord key) (ends : atSpace next) {fuel : Nat}
    {outerIndents : List Int} {tokens later' : List Token} {pos : Position} (first : pos.column = 0)
    (all : tokens.reverse = head ++ later) (untold : startOf later = .open)
    (read : (between 0 outerIndents tokens true (key ++ ':' :: next) pos).tokens? fuel = some (head ++ later')) :
    startOf later' ≠ .scalar t := by
  intro own
  have read := (reads_key word ends (by simp [first])).tokens? read
  rw [behindKey, if_neg (by simp [first])] at read
  have behind : Behind head (between 0 outerIndents (.value :: .scalar ⟨String.ofList key, true⟩ :: .key :: tokens) false
      next (pos.advance (key.length + 1))) (later ++ [.key, .scalar ⟨String.ofList key, true⟩, .value]) :=
    ⟨by simp [between, all], by simp [between], by simp [between]⟩
  have grows := grows_scalar read behind own
  rw [startOf_append, if_pos untold] at grows
  cases grows

theorem scalarFrom_of_tokens? {key next : List Char} (word : isKeyWord key) (ends : atSpace next) {fuel : Nat}
    {later' : List Token} (inValue : InValue head line (key ++ ':' :: next) s later)
    (read : s.tokens? fuel = some (head ++ later')) (own : startOf later' = .scalar t) :
    ScalarFrom line (key ++ ':' :: next) t := by
  induction fuel generalizing s line later with
  | zero => cases read
  | succ fuel ih =>
      have flat : s.inFlow = false := by simp [inFlow, inValue.block]
      obtain ⟨s₁, fresh, further⟩ := tokens?_eq_some read
      rcases toNextToken_line (startsToken_key word) flat (Nat.lt_succ_self _) inValue.chars with
        ⟨c, rest, pos, keyAllowed, part, sameOrLater, skipped⟩ | ⟨pos, first, nextLine, skipped⟩
      · obtain ⟨inside, inValue⟩ := inValue.skipped sameOrLater skipped fresh
        rcases further with ⟨empty, -⟩ | ⟨d, rest', s', there, token, read⟩
        · rw [inValue.chars] at empty
          cases empty
        · rw [inside] at token
          rw [inValue.chars] at there
          cases there
          rcases inValue.token (reading_of_tokenAt? inValue.chars token) read own with
            scalar | ⟨line', later'', part', inValue⟩
          · exact scalar.within part
          · exact (ih inValue read).within (part'.trans part)
      · have atKey : (between 0 s.outerIndents s.tokens true (key ++ ':' :: next) pos).tokens? (fuel + 1) =
            some (head ++ later') := by
          rw [tokens?, fresh, inValue.nextLine nextLine skipped fresh] at read
          rw [tokens?, toNextToken_starts (startsToken_key word) (Nat.le_succ _), dropStaleKeys?_between]
          exact read
        exact absurd own (not_scalar_of_key word ends first inValue.behind.tokens inValue.untold atKey)

/-! ## A scalar that is no shorter than its line -/

theorem beginsPlain_of_startsPlain {c : Char} {rest : List Char} (starts : startsPlain false c (rest ++ '\n' :: after))
    (unentered : ¬ (c = '-' ∧ atSpace (rest ++ '\n' :: after))) : beginsPlain c rest := by
  have ends : atSpace (rest ++ '\n' :: after) = atSpace rest := by
    cases rest <;> rfl
  rw [ends] at unentered
  simp only [startsPlain, ends, Bool.or_eq_true, Bool.and_eq_true, Bool.not_eq_true', decide_eq_true_eq] at starts
  simp only [beginsPlain, Bool.or_eq_true, Bool.and_eq_true, Bool.not_eq_true', decide_eq_true_eq]
  rcases starts with (⟨solid, plain⟩ | ⟨rfl, -⟩) | ⟨⟨-, mark⟩, followed⟩
  · exact ⟨solid, .inl plain⟩
  · exact ⟨by decide, .inr ⟨.inl (.inl rfl), by simpa using unentered⟩⟩
  · rcases mark with rfl | rfl
    · exact ⟨by decide, .inr ⟨.inl (.inr rfl), followed⟩⟩
    · exact ⟨by decide, .inr ⟨.inr rfl, followed⟩⟩

def scalarMarks : List Char := ['\'', '\\', '|', '>']

theorem count_behind {rest : List Char} {mark : Char} (own : mark ∈ scalarMarks)
    (unmarked : ∀ mark ∈ scalarMarks, after.count mark = 0) :
    (rest ++ '\n' :: after).count mark = rest.count mark := by
  have inline : '\n' ≠ mark := by
    rintro rfl
    exact absurd own (by decide)
  rw [List.count_append, List.count_cons_of_ne inline, unmarked mark own, Nat.add_zero]

theorem isPlain_of_scalarFrom (scalar : ScalarFrom line after t)
    (unmarked : ∀ mark ∈ scalarMarks, after.count mark = 0)
    (fewer : ∀ mark ≠ '\n', line.count mark ≤ t.value.toList.count mark) : t.isPlain := by
  cases scalar with
  | @quoted c rest text pos r part read =>
      simp only [String.toList_ofList] at fewer
      have within (mark : Char) (other : mark ≠ '\n') : (c :: rest).count mark ≤ text.count mark :=
        Nat.le_trans (part.sublist.count_le mark) (fewer mark other)
      rcases count_of_quoted? read with ⟨rfl, few⟩ | ⟨rfl, few⟩
      · have quotes := within '\'' (by decide)
        rw [count_behind (by decide) unmarked] at few
        rw [List.count_cons_self] at quotes
        omega
      · have quotes := within '"' (by decide)
        have slashes := within '\\' (by decide)
        rw [count_behind (by decide) unmarked, countMarks] at few
        rw [List.count_cons_self] at quotes
        rw [List.count_cons_of_ne (by decide)] at slashes
        omega
  | @block c rest text pos r part mark read =>
      simp only [String.toList_ofList] at fewer
      have solid : isSpace c = false ∧ c ∈ scalarMarks ∧ c ≠ '\n' := by rcases mark with rfl | rfl <;> decide
      have few := count_of_block? solid.1 read
      have within := Nat.le_trans (part.sublist.count_le c) (fewer c solid.2.2)
      rw [count_behind solid.2.1 unmarked] at few
      rw [List.count_cons_self] at within
      omega
  | plain => rfl

theorem line_of_scalarFrom (scalar : ScalarFrom line after t) (plain : t.isPlain)
    (solid : after.head?.all (!isSpace ·)) (long : line.length ≤ t.value.toList.length) :
    t.value.toList = line ∧ (∀ c ∈ line, isBreak c = false) ∧
      ∃ c rest, line = c :: rest ∧ beginsPlain c rest ∧ continuesPlain false line := by
  cases scalar with
  | quoted | block => cases plain
  | @plain c rest pos p part begins unentered read =>
      simp only [String.toList_ofList] at long ⊢
      have read : plainFrom false 1 (.ofBlanks []) [] pos (c :: rest ++ '\n' :: after) = some p := read
      have short := (plainFrom_bounds (by decide) solid (c :: rest)).1 read
      obtain rfl : c :: rest = line :=
        part.eq_of_length_le (by simp only [List.length_nil] at short; omega)
      obtain ⟨inline, continues, same⟩ := line_of_plainFrom (by decide) solid read (by simpa using long)
      exact ⟨by simpa using same, inline, c, rest, rfl, beginsPlain_of_startsPlain begins unentered, continues⟩

end FlowScript.Yaml.Scanner
