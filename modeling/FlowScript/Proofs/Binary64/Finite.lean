import FlowScript.Json.Number
import FlowScript.Proofs.Binary64.Bound

namespace FlowScript

open Float.Model Binary64

namespace Binary64

/-! ## Finite doubles -/

theorem isFinite_of_not {x : Float} (notInf : x.isInf = false) (notNaN : x.isNaN = false) :
    x.isFinite = true := by
  change x.toModel.unpack.isInf = false at notInf
  change x.toModel.unpack.isNaN = false at notNaN
  change x.toModel.unpack.isFinite = true
  cases taken : x.toModel.unpack with
  | zero | finite => rfl
  | infinity =>
      rw [taken] at notInf
      cases notInf
  | notANumber =>
      rw [taken] at notNaN
      cases notNaN

theorem isFinite_roundWithAccuracy (s : UnpackedFloat.Sign) (m : Nat) (e : Int)
    (accuracy : UnpackedFloat.Accuracy) :
    (UnpackedFloat.roundWithAccuracy Format.binary64 s m e accuracy).isFinite = true :=
  (below_roundWithAccuracy s accuracy (Int.le_max_left _ (-1074)) (Int.le_max_right _ _)).isFinite

theorem isFinite_mul {u v : UnpackedFloat} (hu : u.isFinite = true) (hv : v.isFinite = true) :
    (UnpackedFloat.mul Format.binary64 u v).isFinite = true := by
  cases u with
  | zero => cases v with
    | zero | finite => rfl
    | _ => cases hv
  | finite => cases v with
    | zero => rfl
    | finite => exact isFinite_roundWithAccuracy _ _ _ _
    | _ => cases hv
  | _ => cases hu

theorem notNaN_of_isFinite {u : UnpackedFloat} (h : u.isFinite = true) : u.isNaN = false := by
  cases u with
  | notANumber => cases h
  | _ => rfl

theorem isNaN_unpack_pack {u : UnpackedFloat} (h : u.isFinite = true) :
    (UnpackedFloat.unpack Format.binary64 (UnpackedFloat.pack Format.binary64 u)).isNaN = false := by
  cases u with
  | zero s =>
      have zero : Below 0 (.zero s) := .zero
      exact notNaN_of_isFinite (below_unpack_pack zero (by decide) (by decide)).isFinite
  | finite s m e pos =>
      by_cases high : e ≤ 971
      · exact notNaN_of_isFinite (below_unpack_pack_finite s pos high).isFinite
      · have bias : Format.binary64.exponentBias = 1023 := rfl
        unfold UnpackedFloat.pack
        simp only [bias]
        split
        · cases s <;> rfl
        · rename_i fits
          simp at fits
          omega
  | _ => cases h

/-! ## Operations -/

theorem isFinite_product {x y : Float} (hx : x.isFinite = true) (hy : y.isFinite = true)
    (notInf : (x * y).isInf = false) : (x * y).isFinite = true :=
  isFinite_of_not notInf (isNaN_unpack_pack (isFinite_mul hx hy))

theorem exponent_unpack_le {b : BitVec Format.binary64.numBits} {s : UnpackedFloat.Sign} {m : Nat}
    {e : Int} {pos : 0 < m} (taken : UnpackedFloat.unpack Format.binary64 b = .finite s m e pos) :
    e ≤ 971 := by
  have bias : Format.binary64.exponentBias = 1023 := rfl
  unfold UnpackedFloat.unpack at taken
  dsimp only at taken
  by_cases last : UnpackedFloat.unpackExponent b = -1#11
  · rw [if_pos last] at taken
    by_cases none : UnpackedFloat.unpackMantissa b = 0#52
    · rw [if_pos none] at taken
      cases taken
    · rw [if_neg none] at taken
      cases taken
  rw [if_neg last] at taken
  by_cases subnormal : UnpackedFloat.unpackExponent b = 0#11
  · rw [if_pos subnormal] at taken
    by_cases none : UnpackedFloat.unpackMantissa b = 0#52
    · rw [dif_pos none] at taken
      cases taken
    · rw [dif_neg none] at taken
      cases taken
      rw [subnormal]
      decide
  · rw [if_neg subnormal] at taken
    have lt : (UnpackedFloat.unpackExponent b).toNat < 2048 := (UnpackedFloat.unpackExponent b).isLt
    have notLast : (UnpackedFloat.unpackExponent b).toNat ≠ 2047 := fun same =>
      last (BitVec.eq_of_toNat_eq same)
    cases taken
    omega

theorem isFinite_neg {x : Float} (h : x.isFinite = true) : (-x).isFinite = true := by
  change x.toModel.unpack.isFinite = true at h
  change (UnpackedFloat.unpack Format.binary64
    (UnpackedFloat.pack Format.binary64 x.toModel.unpack.neg)).isFinite = true
  cases taken : x.toModel.unpack with
  | zero s =>
      have zero : Below 0 (.zero (-s)) := .zero
      exact (below_unpack_pack zero (by decide) (by decide)).isFinite
  | finite s m e pos => exact (below_unpack_pack_finite (-s) pos (exponent_unpack_le taken)).isFinite
  | _ =>
      rw [taken] at h
      cases h

/-! ## Powers of ten -/

theorem ofScientific_power {k : Nat} (small : k ≤ 308) :
    UnpackedFloat.ofScientific Format.binary64 1 k =
      UnpackedFloat.roundWithAccuracy Format.binary64 .positive ((1 <<< 53) * 10 ^ k) (-53 + 0) .exact := by
  have range : (2 : Int) ^ Format.binary64.exponentBits = 2048 := rfl
  unfold UnpackedFloat.ofScientific
  rw [dif_neg Nat.one_ne_zero, if_neg (by omega), if_neg (by omega), if_pos (by omega)]
  rfl

theorem atLeastEight_ofScientific {k : Nat} (large : 22 < k) (small : k ≤ 307) :
    AtLeastEight (Float.ofScientific 1 false k).toModel.unpack = true := by
  have pos : 0 < 10 ^ k := Nat.pow_pos (by decide)
  have least : 4 ≤ (10 ^ k).log2 := by
    refine (Nat.le_log2 (Nat.ne_of_gt pos)).2 (Nat.le_trans (show 2 ^ 4 ≤ 10 ^ 2 by decide) ?_)
    exact Nat.pow_le_pow_right (by decide) (by omega)
  have most : (10 ^ k).log2 < 1020 :=
    (Nat.log2_lt (Nat.ne_of_gt pos)).2
      (Nat.lt_of_le_of_lt (Nat.pow_le_pow_right (by decide) small) (by decide +kernel))
  have places : ((1 <<< 53) * 10 ^ k).log2 = (10 ^ k).log2 + 53 := by
    rw [Nat.shiftLeft_eq, Nat.one_mul, Nat.mul_comm, ← Nat.shiftLeft_eq, log2_shiftLeft pos]
  obtain ⟨m, e, pos', rounded, full, lower, upper⟩ := round_spare (m := (1 <<< 53) * 10 ^ k) (e := -53 + 0)
    .positive .exact (by omega) (by rw [totalExponent]; omega)
  rw [totalExponent] at lower upper
  have same : (Float.ofScientific 1 false k).toModel.unpack = .finite .positive m e pos' := by
    rw [← unpack_pack_full .positive pos' full (by omega) (by omega), ← rounded, ← ofScientific_power (by omega)]
    unfold Float.ofScientific
    rw [dif_neg (by omega)]
    rfl
  rw [same]
  refine decide_eq_true ?_
  rw [totalExponent]
  omega

theorem atLeastEight_power {k : Nat} (pos : 0 < k) (small : k ≤ 308) :
    AtLeastEight (Float.ofScientific 1 false k).toModel.unpack = true := by
  by_cases middle : 22 < k ∧ k ≤ 307
  · exact atLeastEight_ofScientific middle.1 middle.2
  · -- The first powers are read off a table, and the last is so close to the largest number that it is rounded here.
    have table : ∀ k ≤ 22, 0 < k → AtLeastEight (Float.ofScientific 1 false k).toModel.unpack = true := by
      decide +kernel
    have last : AtLeastEight (Float.ofScientific 1 false 308).toModel.unpack = true := by decide +kernel
    by_cases first : k ≤ 22
    · exact table k first pos
    · obtain rfl : k = 308 := by omega
      exact last

theorem isFinite_power {k : Nat} (small : k ≤ 308) : (Float.ofScientific 1 false k).isFinite = true := by
  by_cases zero : k = 0
  · subst zero
    decide +kernel
  · have large := atLeastEight_power (Nat.pos_of_ne_zero zero) small
    change (Float.ofScientific 1 false k).toModel.unpack.isFinite = true
    cases taken : (Float.ofScientific 1 false k).toModel.unpack with
    | finite => rfl
    | _ =>
        rw [taken] at large
        cases large

theorem below_quotient {bound : Int} {x : Float} (h : Below bound x.toModel.unpack)
    (low : -1000 ≤ bound) (high : bound ≤ 971) {k : Nat} (pos : 0 < k) (small : k ≤ 308) :
    Below bound (x / Float.ofScientific 1 false k).toModel.unpack :=
  below_unpack_pack (below_div h (atLeastEight_power pos small) low) (by omega) high

/-! ## Whole numbers -/

theorem below_toFloat {n : Nat} (bound : n < UInt64.size) : Below 67 n.toFloat.toModel.unpack := by
  have places : n.log2 ≤ 63 := by
    by_cases zero : n = 0
    · simp [zero]
    · exact Nat.lt_succ_iff.1 ((Nat.log2_lt zero).2 bound)
  change Below 67 (Float.ofScientific n false 0).toModel.unpack
  unfold Float.ofScientific
  split
  · have word : n.toUInt64.toNat = n := by
      simp [Nat.mod_eq_of_lt bound]
    have whole : Below 65 n.toUInt64.toFloat.toModel.unpack := by
      refine below_unpack_pack ((below_ofNat _).mono ?_) (by decide) (by decide)
      rw [word]
      omega
    have one : Below 1 (Float.ofBits 0x3FF0000000000000).toModel.unpack := by decide +kernel
    exact below_unpack_pack (below_mul whole one (by decide)) (by decide) (by decide)
  · have product : Below 66 (UnpackedFloat.ofScientific Format.binary64 n 0) := by
      unfold UnpackedFloat.ofScientific
      refine Below.dite (fun _ => .zero) fun nonzero => ?_
      have notTiny : ¬ (0 : Int) < -(((2 : Int) ^ Format.binary64.exponentBits) + n.log2) := by
        have large : (0 : Int) ≤ (2 : Int) ^ Format.binary64.exponentBits := by decide
        omega
      rw [if_neg (by decide), if_neg notTiny, if_pos (by decide)]
      refine below_mul (a := 64) (b := 1) (.finite ?_) (.finite (by decide)) (by decide)
      rw [totalExponent, log2_shiftLeft (Nat.pos_of_ne_zero nonzero)]
      omega
    exact (below_unpack_pack product (by decide) (by decide)).mono (by decide)

end Binary64

namespace Json

/-! ## Numbers of a text -/

theorem absorb_lt {n : Nat} (cs : List Char) (h : n < UInt64.size) : (absorb n cs).1 < UInt64.size := by
  induction cs generalizing n with
  | nil => exact h
  | cons c cs ih =>
      rw [absorb]
      split
      · rename_i fits
        exact ih fits
      · exact h

theorem isFinite_scaleByTen {x y : Float} {power : Int} (h : Below 67 x.toModel.unpack)
    (scaled : scaleByTen x power = some y) : y.isFinite = true := by
  fun_induction scaleByTen x power with
  | case1 x power nonneg small z infinite => cases scaled
  | case2 x power nonneg small z finite =>
      rw [← Option.some.inj scaled]
      exact isFinite_product h.isFinite (isFinite_power (by omega)) (by simpa using finite)
  | case3 x power nonneg large zero =>
      cases scaled
      exact h.isFinite
  | case4 => cases scaled
  | case5 x power negative far zero =>
      cases scaled
      exact h.isFinite
  | case6 x power negative far nonzero ih =>
      exact ih (below_quotient h (by decide) (by decide) (by decide) (by decide)) scaled
  | case7 x power negative near =>
      cases scaled
      exact (below_quotient h (by decide) (by decide) (by omega) (by omega)).isFinite

theorem isFinite_toFloat? {t : NumberText} {x : Float} (h : t.toFloat? = some x) : x.isFinite = true := by
  unfold NumberText.toFloat? at h
  obtain ⟨y, scaled, rfl⟩ := Option.map_eq_some_iff.1 h
  have significand := absorb_lt (t.fraction.getD []) (absorb_lt t.whole (show 0 < UInt64.size by decide))
  have finite := isFinite_scaleByTen (below_toFloat significand) scaled
  split
  · exact isFinite_neg finite
  · exact finite

end Json
end FlowScript
