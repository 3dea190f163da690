import FlowScript.Json.Number
import FlowScript.Proofs.Text.Decimal

namespace FlowScript.Json

def Boundary (rest : List Char) : Prop := ∀ c ∈ rest.head?, c = ',' ∨ c = '\n'

theorem boundary_nil : Boundary [] := by simp [Boundary]

theorem boundary_comma (rest : List Char) : Boundary (',' :: rest) := by simp [Boundary]

theorem boundary_newline (rest : List Char) : Boundary ('\n' :: rest) := by simp [Boundary]

theorem Boundary.not_head {rest : List Char} (b : Boundary rest) {p : Char → Bool}
    (comma : p ',' = false) (newline : p '\n' = false) : ∀ c ∈ rest.head?, p c = false := by
  intro c mem
  rcases b c mem with rfl | rfl
  · exact comma
  · exact newline

/-! ## Texts of numbers -/

def fractionText : Option (List Char) → List Char
  | none => []
  | some ds => '.' :: ds

def powerText : Option (Bool × List Char) → List Char
  | none => []
  | some (negative, ds) => 'e' :: (if negative then '-' else '+') :: ds

def NumberText.text (t : NumberText) : List Char :=
  (if t.negative then ['-'] else []) ++ (t.whole ++ (fractionText t.fraction ++ powerText t.power))

structure Digital (ds : List Char) : Prop where
  filled : ds ≠ []
  digits : ∀ c ∈ ds, c.isDigit = true

structure NumberText.Regular (t : NumberText) : Prop where
  whole : Digital t.whole
  leading : t.whole.head? = some '0' → t.whole = ['0']
  fraction : ∀ ds ∈ t.fraction, Digital ds
  power : ∀ p ∈ t.power, Digital p.2

section
variable {ds rest : List Char}

theorem digits?_append (digital : Digital ds) (ends : ∀ c ∈ rest.head?, c.isDigit = false) :
    digits? (ds ++ rest) = some (ds, rest) := by
  have taken : rest.takeWhile Char.isDigit = [] ∧ rest.dropWhile Char.isDigit = rest := by
    cases rest with
    | nil => exact ⟨rfl, rfl⟩
    | cons c rest => simp [ends c rfl]
  rw [digits?, List.takeWhile_append_of_pos digital.digits, List.dropWhile_append_of_pos digital.digits, taken.1, taken.2,
    List.append_nil]
  cases ds with
  | nil => exact absurd rfl digital.filled
  | cons d ds => rfl

theorem whole?_append (digital : Digital ds) (leading : ds.head? = some '0' → ds = ['0'])
    (ends : ∀ c ∈ rest.head?, c.isDigit = false) : whole? (ds ++ rest) = some (ds, rest) := by
  by_cases zero : ds.head? = some '0'
  · rw [leading zero]
    cases rest with
    | nil => rfl
    | cons c rest => simp [whole?, ends c rfl]
  · rw [whole?]
    · exact digits?_append digital ends
    · intro more same
      cases ds with
      | nil => exact digital.filled rfl
      | cons d ds =>
          cases same
          exact zero rfl

theorem fraction?_append {fraction : Option (List Char)} (digital : ∀ ds ∈ fraction, Digital ds)
    (ends : ∀ c ∈ rest.head?, c.isDigit = false) (noPoint : rest.head? ≠ some '.') :
    fraction? (fractionText fraction ++ rest) = some (fraction, rest) := by
  cases fraction with
  | none =>
      rw [fractionText, List.nil_append, fraction?]
      rintro more rfl
      exact noPoint rfl
  | some ds =>
      rw [fractionText, List.cons_append, fraction?, digits?_append (digital ds rfl) ends]
      rfl

theorem power?_append {power : Option (Bool × List Char)} (digital : ∀ p ∈ power, Digital p.2)
    (boundary : Boundary rest) : power? (powerText power ++ rest) = some (power, rest) := by
  cases power with
  | none =>
      cases rest with
      | nil => rfl
      | cons c rest =>
          have noPower : (c = 'e' || c = 'E') = false :=
            boundary.not_head (p := fun c => c = 'e' || c = 'E') (by decide) (by decide) c rfl
          rw [powerText, List.nil_append, power?, noPower]
          rfl
  | some p =>
      obtain ⟨negative, ds⟩ := p
      have read := digits?_append (digital _ rfl) (boundary.not_head (by decide) (by decide))
      cases negative with
      | false => simp [powerText, power?, exponent?, read]
      | true => simp [powerText, power?, exponent?, read]

end

theorem scanNumber?_text {t : NumberText} (regular : t.Regular) {rest : List Char} (boundary : Boundary rest) :
    scanNumber? (t.text ++ rest) = some (t, rest) := by
  obtain ⟨negative, whole, fraction, power⟩ := t
  have undigital : ∀ c ∈ (powerText power ++ rest).head?, c.isDigit = false := by
    cases power with
    | none => exact boundary.not_head (by decide) (by decide)
    | some p => simp [powerText]
  have noPoint : (powerText power ++ rest).head? ≠ some '.' := by
    cases power with
    | none =>
        intro point
        rcases boundary '.' point with same | same <;> cases same
    | some p => simp [powerText]
  have ends : ∀ c ∈ (fractionText fraction ++ (powerText power ++ rest)).head?, c.isDigit = false := by
    cases fraction with
    | none => exact undigital
    | some ds => simp [fractionText]
  have readWhole := whole?_append regular.whole regular.leading ends
  have readFraction := fraction?_append regular.fraction undigital noPoint
  have readPower := power?_append regular.power boundary
  dsimp only at readWhole readFraction readPower
  cases negative with
  | true => simp [NumberText.text, scanNumber?, readWhole, readFraction, readPower]
  | false =>
      cases whole with
      | nil => exact absurd rfl regular.whole.filled
      | cons d ds =>
          have noMinus : d ≠ '-' := by
            rintro rfl
            cases regular.whole.digits '-' List.mem_cons_self
          rw [List.cons_append] at readWhole
          simp [NumberText.text, scanNumber?, noMinus, readWhole, readFraction, readPower]

theorem readNumber_eq_some {α : Type} {f : NumberText → Option α} {a : α} {cs rest : List Char} :
    (scanNumber? cs >>= fun scanned => f scanned.1 >>= fun value => some (value, scanned.2)) =
        some (a, rest) ↔
      ∃ t, scanNumber? cs = some (t, rest) ∧ f t = some a := by
  constructor
  · intro read
    obtain ⟨⟨t, rest⟩, scanned, later⟩ := Option.bind_eq_some_iff.1 read
    obtain ⟨value, taken, same⟩ := Option.bind_eq_some_iff.1 later
    cases same
    exact ⟨t, scanned, taken⟩
  · rintro ⟨t, scanned, taken⟩
    rw [scanned, Option.bind_eq_bind, Option.bind_some, taken]
    rfl

/-! ## Natural numbers -/

theorem digital_ofNat (n : Nat) : Digital (Digits.ofNat n) where
  filled := Digits.ofNat_ne_nil n
  digits _ := Digits.isDigit_of_mem_ofNat

theorem regular_ofNat (n : Nat) : NumberText.Regular ⟨false, Digits.ofNat n, none, none⟩ where
  whole := digital_ofNat n
  leading zero := by
    rcases Nat.eq_zero_or_pos n with rfl | pos
    · rfl
    · exact absurd zero (Digits.head?_ofNat pos)
  fraction := by simp
  power := by simp

theorem toWord?_ofNat {n : Nat} (bound : n < UInt64.size) :
    NumberText.toWord? ⟨false, Digits.ofNat n, none, none⟩ = some n := by
  simp [NumberText.toWord?, Digits.toNat_ofNat, bound]

end FlowScript.Json
