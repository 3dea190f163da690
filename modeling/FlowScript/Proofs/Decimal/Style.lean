import FlowScript.Decimal.Style
import FlowScript.Proofs.Json.Number

namespace FlowScript

/-! ## Shortest decimals -/

namespace Decimal
open Binary64

theorem digits_dropZeros {digits : Nat} (filled : digits ≠ 0) (exponent : Int) :
    (dropZeros digits exponent).digits ≠ 0 := by
  induction digits, exponent using dropZeros.induct with
  | case1 digits exponent ends ih =>
      rw [dropZeros, dif_pos ends]
      exact ih (by omega)
  | case2 digits exponent ends =>
      rw [dropZeros, dif_neg ends]
      exact filled

theorem compareTo_of_zero {d : Decimal} (zero : d.digits = 0) {x : Magnitude} (positive : 0 < x.significand) :
    d.compareTo x = .lt := by
  rw [compareTo, zero, Nat.zero_mul, Nat.zero_shiftLeft, Nat.shiftLeft_eq]
  refine Nat.compare_eq_lt.2 (Nat.mul_pos (Nat.mul_pos positive ?_) (Nat.two_pow_pos _))
  exact Nat.pow_pos (by decide)

theorem digits_of_readsBack {x : Magnitude} (positive : 0 < x.significand) {d : Decimal}
    (back : readsBack x d = true) : d.digits ≠ 0 := by
  -- Zero is below the lower of the midpoints.
  intro zero
  rw [readsBack, compareTo_of_zero zero] at back
  · simp at back
  · dsimp only
    split <;> omega

theorem digits_of_onGrid? {tie : Tie} {x : Magnitude} (positive : 0 < x.significand) {exponent : Int} {d : Decimal}
    (found : onGrid? tie x exponent = some d) : d.digits ≠ 0 := by
  have above (n : Nat) : (⟨n + 1, exponent⟩ : Decimal).digits ≠ 0 := Nat.succ_ne_zero n
  unfold onGrid? at found
  dsimp only at found
  split at found
  · cases found
  · rename_i back _
    cases found
    exact digits_of_readsBack positive back
  · cases found
    exact above _
  · rename_i back _
    have below := digits_of_readsBack positive back
    split at found
    · cases found
      exact below
    · cases found
      exact above _
    · split at found
      · cases found
        exact above _
      · split at found <;> cases found
        · exact below
        · exact above _

theorem digits_shortest (tie : Tie) (x : Magnitude) :
    shortest tie x = ⟨0, 0⟩ ∨ (shortest tie x).digits ≠ 0 := by
  unfold shortest
  split
  · exact .inl rfl
  · rename_i nonzero
    have positive : 0 < x.significand := Nat.pos_of_ne_zero nonzero
    refine .inr (digits_dropZeros ?_ _)
    cases found : (List.range 17).findSome? fun (n : Nat) => onGrid? tie x (places x - 1 - n) with
    | none =>
        refine Nat.mul_ne_zero ?_ (Nat.ne_of_gt (Nat.pow_pos (by decide)))
        rw [Nat.shiftLeft_eq]
        exact Nat.mul_ne_zero nonzero (Nat.ne_of_gt (Nat.two_pow_pos _))
    | some d =>
        obtain ⟨n, -, own⟩ := List.exists_of_findSome?_eq_some found
        exact digits_of_onGrid? positive own

end Decimal

/-! ## Their texts -/

namespace DecimalStyle
open Json

theorem isDigit_of_mem_zeros {n : Nat} {c : Char} (mem : c ∈ zeros n) : c.isDigit = true := by
  rw [(List.mem_replicate.1 mem).2]
  rfl

theorem digital_zero : Digital ['0'] := ⟨by simp, by simp⟩

theorem exists_positional {ds : List Char} (digital : Digital ds) (leading : ds.head? ≠ some '0') (lead : Int) :
    ∃ t : NumberText, t.Regular ∧ t.negative = false ∧ t.text = layout.writePositional ds lead := by
  unfold writePositional
  by_cases small : lead < 0
  · refine ⟨⟨false, ['0'], some (zeros (-lead - 1).toNat ++ ds), none⟩, ⟨digital_zero, fun _ => rfl, ?_, by simp⟩, rfl, ?_⟩
    · rintro _ ⟨⟩
      refine ⟨by simp [digital.filled], fun c mem => ?_⟩
      rcases List.mem_append.1 mem with mem | mem
      · exact isDigit_of_mem_zeros mem
      · exact digital.digits c mem
    · simp [small, NumberText.text, fractionText, powerText]
  · rw [if_neg small]
    dsimp only
    by_cases short : ds.length ≤ lead.toNat + 1
    · refine ⟨⟨false, ds ++ zeros (lead.toNat + 1 - ds.length), some ['0'], none⟩, ⟨?_, ?_, ?_, by simp⟩, rfl, ?_⟩
      · refine ⟨by simp [digital.filled], fun c mem => ?_⟩
        rcases List.mem_append.1 mem with mem | mem
        · exact digital.digits c mem
        · exact isDigit_of_mem_zeros mem
      · intro zero
        obtain ⟨d, more, rfl⟩ := List.exists_cons_of_ne_nil digital.filled
        exact absurd zero leading
      · rintro _ ⟨⟩
        exact digital_zero
      · simp [short, NumberText.text, fractionText, powerText, layout]
    · refine ⟨⟨false, ds.take (lead.toNat + 1), some (ds.drop (lead.toNat + 1)), none⟩, ⟨?_, ?_, ?_, by simp⟩, rfl, ?_⟩
      · exact ⟨by simp [digital.filled], fun c mem => digital.digits c (List.mem_of_mem_take mem)⟩
      · intro zero
        rw [List.head?_take, if_neg (Nat.succ_ne_zero _)] at zero
        exact absurd zero leading
      · rintro _ ⟨⟩
        refine ⟨?_, fun c mem => digital.digits c (List.mem_of_mem_drop mem)⟩
        rw [Ne, List.drop_eq_nil_iff]
        exact short
      · simp [short, NumberText.text, fractionText, powerText]

theorem exists_scientific {ds : List Char} (digital : Digital ds) (lead : Int) :
    ∃ t : NumberText, t.Regular ∧ t.negative = false ∧ t.text = writeScientific ds lead := by
  obtain ⟨d, more, rfl⟩ := List.exists_cons_of_ne_nil digital.filled
  refine ⟨⟨false, [d], if more.isEmpty then none else some more, some (decide (lead < 0), Digits.ofNat lead.natAbs)⟩,
    ⟨?_, ?_, ?_, ?_⟩, rfl, ?_⟩
  · exact ⟨by simp, fun c mem => digital.digits c (List.mem_cons.2 (.inl (List.mem_singleton.1 mem)))⟩
  · intro zero
    cases zero
    rfl
  · cases more with
    | nil => simp
    | cons c more =>
        rintro _ ⟨⟩
        exact ⟨by simp, fun c mem => digital.digits c (List.mem_cons_of_mem _ mem)⟩
  · rintro _ ⟨⟩
    exact digital_ofNat _
  · cases more <;> simp [NumberText.text, fractionText, powerText, writeScientific, Digits.ofNat_eq]

theorem exists_decimal {d : Decimal} (leading : d = ⟨0, 0⟩ ∨ d.digits ≠ 0) :
    ∃ t : NumberText, t.Regular ∧ t.negative = false ∧ t.text = layout.writeDecimal d := by
  rcases leading with rfl | positive
  · refine ⟨⟨false, ['0'], some ['0'], none⟩, ⟨digital_zero, fun _ => rfl, ?_, by simp⟩, rfl, by decide⟩
    rintro _ ⟨⟩
    exact digital_zero
  · unfold writeDecimal
    dsimp only
    split
    · exact exists_positional (digital_ofNat _) (Digits.head?_ofNat (Nat.pos_of_ne_zero positive)) _
    · exact exists_scientific (digital_ofNat _) _

theorem exists_text (x : Float) : ∃ t : NumberText, t.Regular ∧ t.text = (layout.writeFinite x).toList := by
  obtain ⟨t, regular, unsigned, text⟩ :=
    exists_decimal (Decimal.digits_shortest layout.tie (Binary64.Magnitude.ofFloat x))
  refine ⟨{ t with negative := Binary64.isNegative x }, { regular with }, ?_⟩
  rw [writeFinite, String.toList_ofList, ← text]
  cases Binary64.isNegative x <;> simp [NumberText.text, unsigned]

end DecimalStyle
end FlowScript
