import FlowScript.Json.Text

namespace FlowScript.Json

theorem unit?_control {n : Nat} (small : n < 32) :
    unit? '0' '0' (hexDigit (n / 16)) (hexDigit (n % 16)) = some n := by
  have all : ∀ k < 32, unit? '0' '0' (hexDigit (k / 16)) (hexDigit (k % 16)) = some k := by decide
  exact all n small

theorem escapeChar_cases (c : Char) :
    (∃ e, escapeChar c = ['\\', e] ∧ e ≠ 'u' ∧ letterEscape? e = some c) ∨
      (c.toNat < 32 ∧
        escapeChar c = ['\\', 'u', '0', '0', hexDigit (c.toNat / 16), hexDigit (c.toNat % 16)]) ∨
      (escapeChar c = [c] ∧ c ≠ '"' ∧ c ≠ '\\' ∧ ¬ c.toNat < 32) := by
  unfold escapeChar
  iterate 7
    split
    · subst c
      exact .inl ⟨_, rfl, by decide, rfl⟩
  split
  · rename_i control
    exact .inr (.inl ⟨control, rfl⟩)
  · rename_i notQuote notBackslash _ _ _ _ _ visible
    exact .inr (.inr ⟨rfl, notQuote, notBackslash, visible⟩)

theorem unescape_letter {e c : Char} (notUnit : e ≠ 'u') (letter : letterEscape? e = some c)
    (text : List Char) :
    unescape ('\\' :: e :: text) = (unescape text).map fun (s, rest) => (c :: s, rest) := by
  rw [unescape]
  · simp only [letter, Option.bind_eq_bind, Option.bind_some]
    cases unescape text <;> rfl
  · intro _ _ _ _ _ same
    exact absurd same notUnit

theorem unescape_control {c : Char} (control : c.toNat < 32) (text : List Char) :
    unescape ('\\' :: 'u' :: '0' :: '0' :: hexDigit (c.toNat / 16) :: hexDigit (c.toNat % 16) :: text) =
      (unescape text).map fun (s, rest) => (c :: s, rest) := by
  have notLow : isLowSurrogate c.toNat = false := by simp [isLowSurrogate]; omega
  have notHigh : isHighSurrogate c.toNat = false := by simp [isHighSurrogate]; omega
  rw [unescape]
  simp only [unit?_control control, notLow, notHigh, Option.bind_eq_bind, Option.bind_some,
    Bool.false_eq_true, if_false, Char.ofNat_toNat]
  cases unescape text <;> rfl

theorem unescape_plain {c : Char} (notQuote : c ≠ '"') (notBackslash : c ≠ '\\')
    (visible : ¬ c.toNat < 32) (text : List Char) :
    unescape (c :: text) = (unescape text).map fun (s, rest) => (c :: s, rest) := by
  rw [unescape]
  · simp only [notBackslash, visible, decide_false, Bool.or_self, Bool.false_eq_true, if_false]
    cases unescape text <;> rfl
  all_goals simp_all

theorem unescape_escapeChar (c : Char) (text : List Char) :
    unescape (escapeChar c ++ text) = (unescape text).map fun (s, rest) => (c :: s, rest) := by
  rcases escapeChar_cases c with ⟨e, written, notUnit, letter⟩ | ⟨control, written⟩ |
    ⟨written, notQuote, notBackslash, visible⟩
  · rw [written]
    exact unescape_letter notUnit letter text
  · rw [written]
    exact unescape_control control text
  · rw [written]
    exact unescape_plain notQuote notBackslash visible text

theorem unescape_escape (s rest : List Char) : unescape (escape s ++ '"' :: rest) = some (s, rest) := by
  induction s with
  | nil => rfl
  | cons c s ih =>
      have split_eq : escape (c :: s) ++ '"' :: rest = escapeChar c ++ (escape s ++ '"' :: rest) := by
        simp [escape]
      rw [split_eq, unescape_escapeChar, ih]
      rfl

end FlowScript.Json
