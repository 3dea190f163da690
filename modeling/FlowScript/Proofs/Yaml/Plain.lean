import FlowScript.Proofs.Yaml.Text
import FlowScript.Yaml.Token

/-!
# Plain scalars on one line

A text that can be written plainly behind a key is read up to the end of the line, and read as itself
(`plainFrom_line`). No other text in front of a line end is (`line_of_plainFrom`): a plain scalar that ends with a line
is shorter than the line unless it is the line.
-/

namespace FlowScript.Yaml

def continuesPlain (afterBlank : Bool) : List Char → Bool
  | [] => !afterBlank
  | c :: rest =>
      if isBlank c then continuesPlain true rest
      else !(afterBlank && c = '#') && !(c = ':' && atSpace rest) && continuesPlain false rest

def beginsPlain (c : Char) (rest : List Char) : Bool :=
  !isSpace c && (!Scanner.isIndicator c || ((c = '-' || c = '?' || c = ':') && !atSpace rest))

def staysOnLine (c : Char) : Bool := isAllowed c && !isBreak c && isUniform c

/-- A text that is its own plain scalar, on one line. -/
def isPlainLine : List Char → Bool
  | [] => false
  | c :: rest => (c :: rest).all staysOnLine && beginsPlain c rest && continuesPlain false (c :: rest)

theorem of_staysOnLine {c : Char} (own : staysOnLine c) : isAllowed c ∧ isBreak c = false ∧ isUniform c := by
  simp only [staysOnLine, Bool.and_eq_true, Bool.not_eq_true'] at own
  exact ⟨own.1.1, own.1.2, own.2⟩

theorem staysOnLine_of_mem {value : List Char} (plain : isPlainLine value) {c : Char} (mem : c ∈ value) :
    staysOnLine c := by
  cases value with
  | nil => cases mem
  | cons d rest =>
      rw [isPlainLine, Bool.and_eq_true, Bool.and_eq_true, List.all_eq_true] at plain
      exact plain.1.1 c mem

def Gap.ofBlanks (blanks : List Char) : Gap := ⟨blanks, false, .none, []⟩

@[simp] theorem Gap.ofBlanks_nil : Gap.ofBlanks [] = .none := rfl

@[simp] theorem Gap.text_ofBlanks (blanks : List Char) : (Gap.ofBlanks blanks).text = blanks := rfl

@[simp] theorem Gap.text_none : Gap.none.text = [] := rfl

@[simp] theorem Gap.isNone_none : Gap.none.isNone = true := rfl

theorem next_eq_advance {c : Char} (inline : isBreak c = false) (pos : Position) : pos.next c = pos.advance 1 := by
  simp [Position.next, inline, Position.advance]

theorem advance_advance (pos : Position) (m n : Nat) : (pos.advance m).advance n = pos.advance (m + n) := by
  simp [Position.advance, Nat.add_assoc]

theorem word_solid {c : Char} (word : isWord c) : isSpace c = false ∧ c ≠ ':' := by
  constructor
  · by_cases space : isSpace c
    · simp only [isSpace, isBlank, isBreak, Bool.or_eq_true, decide_eq_true_eq] at space
      rcases space with (rfl | rfl) | (rfl | rfl) | rfl <;> exact absurd word (by decide)
    · simpa using space
  · rintro rfl
    exact absurd word (by decide)

theorem plainFrom_word {cs : List Char} (word : ∀ c ∈ cs, isWord c) (indent : Int) (text : List Char) (pos : Position)
    (after : List Char) :
    plainFrom false indent .none text pos (cs ++ after) =
      plainFrom false indent .none (cs.reverse ++ text) (pos.advance cs.length) after := by
  induction cs generalizing text pos with
  | nil => rfl
  | cons c rest ih =>
      obtain ⟨wordC, wordRest⟩ := List.forall_mem_cons.1 word
      obtain ⟨solid, uncoloned⟩ := word_solid wordC
      have inline : isBreak c = false := by
        rw [isSpace, Bool.or_eq_false_iff] at solid
        exact solid.2
      have unended : endsPlain false c (rest ++ after) = false := by simp [endsPlain, uncoloned]
      rw [List.cons_append, plainFrom, if_neg (by simp [solid]), if_neg (by simp),
        if_neg (by simp), unended, if_neg (by simp), next_eq_advance inline, ih wordRest]
      simp [advance_advance, Nat.add_comm]

theorem plainFrom_line {cs : List Char} (inline : ∀ c ∈ cs, isBreak c = false) {blanks : List Char}
    (plain : continuesPlain (!blanks.isEmpty) cs) {indent : Int} {pos : Position} (inside : indent ≤ pos.column)
    (later : 0 < pos.column) (text after : List Char) :
    plainFrom false indent (.ofBlanks blanks) text pos (cs ++ after) =
      plainFrom false indent .none (cs.reverse ++ blanks ++ text) (pos.advance cs.length) after := by
  -- Blanks are held back until a character follows that is none, so those before the text are general here.
  induction cs generalizing blanks text pos with
  | nil =>
      have none : blanks = [] := by simpa [continuesPlain] using plain
      subst none
      rfl
  | cons c rest ih =>
      obtain ⟨inlineC, inlineRest⟩ := List.forall_mem_cons.1 inline
      have inside' : indent ≤ (pos.advance 1).column := by
        simp only [Position.advance]
        omega
      have later' : 0 < (pos.advance 1).column := Nat.succ_pos _
      rw [continuesPlain] at plain
      rw [List.cons_append, plainFrom, next_eq_advance inlineC]
      by_cases blank : isBlank c
      · rw [if_pos blank] at plain
        have pushed : (Gap.ofBlanks blanks).push c = .ofBlanks (c :: blanks) := by
          simp [Gap.push, Gap.ofBlanks, inlineC]
        rw [if_pos (by simp [isSpace, blank]), if_neg (by simp [Gap.ofBlanks]), pushed,
          ih inlineRest (by simpa using plain) inside' later']
        simp [advance_advance, Nat.add_comm]
      · rw [if_neg blank, Bool.and_eq_true, Bool.and_eq_true, Bool.not_eq_true', Bool.not_eq_true'] at plain
        obtain ⟨⟨unhashed, uncoloned⟩, plain⟩ := plain
        have solid : isSpace c = false := by simpa [isSpace, inlineC] using blank
        have goesOn : (!(Gap.ofBlanks blanks).isNone && endsAtGap false indent pos (c :: (rest ++ after))) = false := by
          cases blanks with
          | nil => rfl
          | cons b more =>
              have started : pos.column ≠ 0 := by omega
              have hash : c ≠ '#' := by simpa using unhashed
              simp [endsAtGap, started, hash, inside]
        have unended : endsPlain false c (rest ++ after) = false := by
          by_cases colon : c = ':'
          · cases rest with
            | nil => simp [colon, atSpace] at uncoloned
            | cons d more => simpa [endsPlain, colon, atSpace] using uncoloned
          · simp [endsPlain, colon]
        rw [if_neg (by simp [solid]), goesOn, if_neg (by simp), if_neg (by simp), unended, if_neg (by simp),
          ← Gap.ofBlanks_nil, @ih inlineRest [] plain _ inside' later']
        simp [advance_advance, Nat.add_comm]

/-! ## What a plain scalar was read from -/

theorem Gap.push_blank {c : Char} (blank : isBreak c = false) (blanks : List Char) :
    (Gap.ofBlanks blanks).push c = .ofBlanks (c :: blanks) := by
  simp [push, ofBlanks, blank]

theorem Gap.push_break {c : Char} (line : isBreak c) (blanks : List Char) :
    (Gap.ofBlanks blanks).push c = ⟨[], true, some c, []⟩ := by
  simp [push, ofBlanks, line]

theorem Gap.broken_push {g : Gap} (broken : g.broken) (c : Char) : (g.push c).broken := by
  by_cases line : isBreak c <;> simp [push, line, broken]

theorem Gap.length_text_push {g : Gap} (broken : g.broken) (c : Char) :
    (g.push c).text.length ≤ g.text.length + if isBreak c then 1 else 0 := by
  obtain ⟨blanks, b, first, more⟩ := g
  cases broken
  by_cases line : isBreak c
  · simp only [push, line, if_true, text]
    cases more <;> cases first <;> grind
  · simp [push, line]

theorem Gap.length_text_break (c : Char) : (⟨[], true, some c, []⟩ : Gap).text.length ≤ 1 := by
  simp only [text]
  grind

variable {indent : Int} {gap : Gap} {text : List Char} {pos : Position} {c : Char} {rest after : List Char}
  {p : PlainEnd}

theorem plainFrom_cons (read : plainFrom false indent gap text pos (c :: rest) = some p) :
    (isSpace c = true ∧ plainFrom false indent (gap.push c) text (pos.next c) rest = some p) ∨
      (isSpace c = false ∧ p.text = text.reverse) ∨
      (isSpace c = false ∧ (gap.isNone = true ∨ endsAtGap false indent pos (c :: rest) = false) ∧
        endsPlain false c rest = false ∧
        plainFrom false indent .none (c :: gap.text ++ text) (pos.next c) rest = some p) := by
  rw [plainFrom] at read
  split at read
  · rename_i space
    split at read
    · cases read
    · exact .inl ⟨space, read⟩
  · rename_i solid
    rw [Bool.not_eq_true] at solid
    split at read
    · cases read
      exact .inr (.inl ⟨solid, rfl⟩)
    · rename_i goesOn
      rw [if_neg (by simp)] at read
      split at read
      · cases read
        exact .inr (.inl ⟨solid, rfl⟩)
      · rename_i unended
        refine .inr (.inr ⟨solid, ?_, by simpa using unended, read⟩)
        cases started : gap.isNone with
        | true => exact .inl rfl
        | false => exact .inr (by simpa [started] using goesOn)

theorem text_of_plainFrom_outdented (indented : 0 < indent) (solid : after.head?.all (!isSpace ·))
    (read : plainFrom false indent gap text pos ('\n' :: after) = some p) : p.text = text.reverse := by
  rcases plainFrom_cons read with ⟨-, read⟩ | ⟨-, same⟩ | ⟨solid, -⟩
  · have broken : (gap.push '\n').broken := by
      have line : isBreak '\n' := by decide
      by_cases already : gap.broken <;> simp [Gap.push, line, already]
    cases after with
    | nil =>
        cases read
        rfl
    | cons c rest =>
        rcases plainFrom_cons read with ⟨space, -⟩ | ⟨-, same⟩ | ⟨-, started | inside, -⟩
        · simp [space] at solid
        · exact same
        · simp [Gap.isNone, broken] at started
        · have outside : ((pos.next '\n').column : Int) < indent := indented
          simp [endsAtGap, outside] at inside
  · exact same
  · cases solid

theorem plainFrom_bounds (indented : 0 < indent) (solid : after.head?.all (!isSpace ·)) (line : List Char) :
    (∀ {blanks text pos p}, plainFrom false indent (.ofBlanks blanks) text pos (line ++ '\n' :: after) = some p →
      p.text.length ≤ text.length + blanks.length + line.length) ∧
    ∀ {gap text pos p taken}, gap.broken = true → 0 < taken → gap.text.length + pos.column ≤ taken →
      plainFrom false indent gap text pos (line ++ '\n' :: after) = some p →
      p.text.length < text.length + taken + line.length := by
  -- Both bounds at once: a line end takes a scalar from the first to the second, the next character back again.
  induction line with
  | nil =>
      constructor
      · intro blanks text pos p read
        rw [text_of_plainFrom_outdented indented solid read, List.length_reverse]
        omega
      · intro gap text pos p taken broken more fits read
        rw [text_of_plainFrom_outdented indented solid read, List.length_reverse, List.length_nil]
        omega
  | cons c rest ih =>
      obtain ⟨single, folded⟩ := ih
      rw [List.cons_append, List.length_cons]
      constructor
      · intro blanks text pos p read
        rcases plainFrom_cons read with ⟨space, read⟩ | ⟨-, same⟩ | ⟨-, -, -, read⟩
        · cases line : isBreak c with
          | true =>
              have first : (pos.next c).column = 0 := by simp [Position.next, line]
              have short := Gap.length_text_break c
              rw [Gap.push_break line] at read
              have := @folded _ _ _ _ (blanks.length + 1) rfl (Nat.succ_pos _) (by omega) read
              omega
          | false =>
              rw [Gap.push_blank line] at read
              have := single read
              rw [List.length_cons] at this
              omega
        · rw [same, List.length_reverse]
          omega
        · have := @single [] _ _ _ read
          simp only [Gap.text_ofBlanks, List.length_cons, List.length_append, List.length_nil] at this
          omega
      · intro gap text pos p taken broken more fits read
        rcases plainFrom_cons read with ⟨space, read⟩ | ⟨-, same⟩ | ⟨-, started | inside, -, read⟩
        · have longer := Gap.length_text_push broken c
          have fits' : (gap.push c).text.length + (pos.next c).column ≤ taken + 1 := by
            cases line : isBreak c <;> simp only [line, Position.next] at longer ⊢ <;> simp at longer ⊢ <;> omega
          have := folded (Gap.broken_push broken c) (Nat.succ_pos _) fits' read
          omega
        · rw [same, List.length_reverse]
          omega
        · simp [Gap.isNone, broken] at started
        · have later : 0 < pos.column := by
            simp only [endsAtGap, Bool.not_false, Bool.true_and, Bool.or_eq_false_iff, decide_eq_false_iff_not] at inside
            omega
          have := @single [] _ _ _ read
          simp only [List.length_cons, List.length_append, List.length_nil] at this
          omega

theorem line_of_plainFrom (indented : 0 < indent) (solid : after.head?.all (!isSpace ·)) {line blanks : List Char}
    (read : plainFrom false indent (.ofBlanks blanks) text pos (line ++ '\n' :: after) = some p)
    (long : text.length + blanks.length + line.length ≤ p.text.length) :
    (∀ c ∈ line, isBreak c = false) ∧ continuesPlain (!blanks.isEmpty) line ∧
      p.text = text.reverse ++ blanks.reverse ++ line := by
  induction line generalizing blanks text pos with
  | nil =>
      have same := text_of_plainFrom_outdented indented solid read
      rw [same, List.length_reverse, List.length_nil] at long
      obtain rfl : blanks = [] := List.eq_nil_of_length_eq_zero (by omega)
      exact ⟨by simp, rfl, by simp [same]⟩
  | cons c rest ih =>
      rw [List.length_cons] at long
      rw [List.cons_append] at read
      rcases plainFrom_cons read with ⟨space, read⟩ | ⟨-, same⟩ | ⟨solidC, goesOn, unended, read⟩
      · cases line : isBreak c with
        -- A scalar that goes on behind a line end is too short.
        | true =>
            have first : (pos.next c).column = 0 := by simp [Position.next, line]
            have short := Gap.length_text_break c
            rw [Gap.push_break line] at read
            have := @(plainFrom_bounds indented solid rest).2 _ _ _ _ (blanks.length + 1) rfl (Nat.succ_pos _)
              (by omega) read
            omega
        | false =>
            rw [Gap.push_blank line] at read
            obtain ⟨inline, plain, same⟩ := ih read (by rw [List.length_cons]; omega)
            refine ⟨List.forall_mem_cons.2 ⟨line, inline⟩, ?_, by simp [same]⟩
            have blank : isBlank c := by simpa [isSpace, line] using space
            simpa [continuesPlain, blank] using plain
      · rw [same, List.length_reverse] at long
        omega
      · rw [isSpace, Bool.or_eq_false_iff] at solidC
        have read : plainFrom false indent (.ofBlanks []) (c :: blanks ++ text) (pos.next c) (rest ++ '\n' :: after) =
          some p := read
        obtain ⟨inline, plain, same⟩ := ih read
          (by simp only [List.length_append, List.length_cons, List.length_nil]; omega)
        refine ⟨List.forall_mem_cons.2 ⟨solidC.2, inline⟩, ?_, by simp [same]⟩
        have unhashed : (!blanks.isEmpty && decide (c = '#')) = false := by
          rcases goesOn with started | inside
          · have : blanks.isEmpty := by simpa [Gap.isNone, Gap.ofBlanks] using started
            simp [this]
          · have : c ≠ '#' := by
              simp only [endsAtGap, Bool.or_eq_false_iff] at inside
              simpa using inside.2
            simp [this]
        have uncoloned : (decide (c = ':') && atSpace rest) = false := by
          cases rest with
          | nil =>
              have ends : isSpace '\n' := by decide
              simpa [endsPlain, atSpace, ends] using unended
          | cons d more => simpa [endsPlain, atSpace] using unended
        rw [continuesPlain, if_neg (by simp [solidC.1]), unhashed, uncoloned]
        simpa using plain

end FlowScript.Yaml
