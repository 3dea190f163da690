import Mathlib.Algebra.Order.Ring.Nat
import Mathlib.Data.Int.Order.Basic
import FlowScript.Binary64

namespace FlowScript.Binary64

open Float.Model Float.Model.UnpackedFloat

/-- Finite, with the leading bit below the place `bound`. -/
inductive Below (bound : Int) : UnpackedFloat → Prop
  | zero {s : Sign} : Below bound (.zero s)
  | finite {s : Sign} {m : Nat} {e : Int} {pos : 0 < m} (small : totalExponent m e ≤ bound) :
      Below bound (.finite s m e pos)

instance (bound : Int) : (u : UnpackedFloat) → Decidable (Below bound u)
  | .zero _ => isTrue .zero
  | .finite _ m e _ =>
      decidable_of_iff (totalExponent m e ≤ bound) ⟨.finite, fun (.finite small) => small⟩
  | .infinity _ => isFalse nofun
  | .notANumber => isFalse nofun

theorem Below.isFinite {bound : Int} {u : UnpackedFloat} (h : Below bound u) : u.isFinite = true := by
  cases h <;> rfl

theorem Below.dite {bound : Int} {c : Prop} [Decidable c] {u : c → UnpackedFloat} {v : ¬ c → UnpackedFloat}
    (hu : ∀ h, Below bound (u h)) (hv : ∀ h, Below bound (v h)) : Below bound (if h : c then u h else v h) := by
  by_cases h : c
  · rw [dif_pos h]
    exact hu h
  · rw [dif_neg h]
    exact hv h

theorem Below.mono {a b : Int} {u : UnpackedFloat} (h : Below a u) (le : a ≤ b) : Below b u := by
  cases h with
  | zero => exact .zero
  | finite small => exact .finite (Int.le_trans small le)

/-! ## Rounding -/

theorem mantissa_shiftRight (em : ExtendedMantissa) (k : Nat) :
    (em >>> k).mantissa = em.mantissa >>> k := by
  change (k.repeat ExtendedMantissa.shiftRightOne em).mantissa = em.mantissa >>> k
  induction k with
  | zero => rfl
  | succ k ih =>
      rw [Nat.repeat, ExtendedMantissa.shiftRightOne, ih, Nat.shiftRight_succ]

theorem roundedMantissa_le (em : ExtendedMantissa) : em.roundedMantissa ≤ em.mantissa + 1 := by
  obtain ⟨m, roundBit, stickyBit⟩ := em
  cases roundBit <;> cases stickyBit <;>
    simp only [ExtendedMantissa.roundedMantissa, ExtendedMantissa.accuracy,
      Accuracy.roundToNearestEven] <;>
    omega

theorem le_roundedMantissa (em : ExtendedMantissa) : em.mantissa ≤ em.roundedMantissa := by
  obtain ⟨m, roundBit, stickyBit⟩ := em
  cases roundBit <;> cases stickyBit <;>
    simp only [ExtendedMantissa.roundedMantissa, ExtendedMantissa.accuracy,
      Accuracy.roundToNearestEven] <;>
    omega

theorem log2_shiftRight (m k : Nat) : (m >>> k).log2 = m.log2 - k := by
  induction k with
  | zero => rfl
  | succ k ih =>
      have halved (n : Nat) : (n / 2).log2 = n.log2 - 1 := by
        by_cases large : 2 ≤ n
        · rw [Nat.log2_def n, if_pos large]
          rfl
        · have none : n / 2 = 0 := by omega
          rw [none, Nat.log2_def n, if_neg large, Nat.log2_zero]
      rw [Nat.shiftRight_succ, halved, ih]
      omega

theorem le_log2_of_shiftRight {m k : Nat} (rest : m >>> k ≠ 0) : k ≤ m.log2 := by
  rw [Nat.shiftRight_eq_div_pow] at rest
  have le : 2 ^ k ≤ m := Nat.le_of_not_lt fun lt => rest (Nat.div_eq_of_lt lt)
  exact (Nat.le_log2 (by rintro rfl; simp at rest)).2 le

theorem log2_le_succ {r q : Nat} (le : r ≤ q + 1) : r.log2 ≤ q.log2 + 1 := by
  by_cases zero : r = 0
  · simp [zero]
  · have below := Nat.lt_log2_self (n := q)
    refine Nat.lt_succ_iff.1 ((Nat.log2_lt zero).2 ?_)
    rw [Nat.pow_succ]
    omega

theorem targetExponent_eq (t : Int) :
    Format.binary64.targetExponent t = max (t - 53) (-1074) := rfl

theorem mantissa_ofMantissaAndAccuracy (m : Nat) (accuracy : Accuracy) :
    (ExtendedMantissa.ofMantissaAndAccuracy m accuracy).mantissa = m := by
  cases accuracy with
  | exact => rfl
  | inexact relative => cases relative <;> rfl

theorem totalExponent_rounded {m r k l : Nat} {e bound : Int} (h : totalExponent m e ≤ bound)
    (dropped : k = 0 ∨ e + k ≤ bound) (rounded : r ≤ (m >>> k) + 1) (rest : r >>> l ≠ 0) :
    totalExponent (r >>> l) (e + k + l) ≤ bound + 1 := by
  have enough := le_log2_of_shiftRight rest
  have carry := log2_le_succ rounded
  unfold totalExponent at h ⊢
  rw [log2_shiftRight] at carry ⊢
  by_cases none : m >>> k = 0
  · have one : r.log2 = 0 := by
      have small : r ≤ 1 := by rwa [none] at rounded
      rw [Nat.log2_def, if_neg (by omega)]
    omega
  · have left := le_log2_of_shiftRight none
    omega

theorem below_roundWithAccuracy {bound e : Int} {m : Nat} (s : Sign) (accuracy : Accuracy)
    (h : totalExponent m e ≤ bound) (low : -1074 ≤ bound) :
    Below (bound + 1) (roundWithAccuracy Format.binary64 s m e accuracy) := by
  unfold roundWithAccuracy
  dsimp only
  refine Below.dite (fun _ => .zero) fun rest => .finite ?_
  simp only [shiftToTargetExponent, shiftToExponent, targetExponent_eq, mantissa_shiftRight,
    mantissa_ofMantissaAndAccuracy] at rest ⊢
  refine totalExponent_rounded h ?_ ?_ rest
  · omega
  · have le := roundedMantissa_le (ExtendedMantissa.ofMantissaAndAccuracy m accuracy >>>
      (max (totalExponent m e - 53) (-1074) - e).toNat)
    rwa [mantissa_shiftRight, mantissa_ofMantissaAndAccuracy] at le

theorem shift_spare {m : Nat} {e : Int} (accuracy : Accuracy) (spare : 52 ≤ m.log2)
    (low : -1021 ≤ totalExponent m e) :
    (shiftToTargetExponent Format.binary64 m e accuracy).1.mantissa = m >>> (m.log2 - 52) ∧
      (shiftToTargetExponent Format.binary64 m e accuracy).2 + 53 = totalExponent m e := by
  simp only [shiftToTargetExponent, shiftToExponent, targetExponent_eq, mantissa_shiftRight,
    mantissa_ofMantissaAndAccuracy]
  rw [totalExponent] at low ⊢
  constructor
  · congr 1
    omega
  · omega

theorem round_spare {m : Nat} {e : Int} (s : Sign) (accuracy : Accuracy) (spare : 52 ≤ m.log2)
    (low : -1021 ≤ totalExponent m e) :
    ∃ m' e' pos, roundWithAccuracy Format.binary64 s m e accuracy = .finite s m' e' pos ∧ m'.log2 = 52 ∧
      totalExponent m e ≤ e' + 53 ∧ e' + 53 ≤ totalExponent m e + 1 := by
  obtain ⟨mantissa, exponent⟩ := shift_spare accuracy spare low
  have kept : (shiftToTargetExponent Format.binary64 m e accuracy).1.mantissa.log2 = 52 := by
    rw [mantissa, log2_shiftRight]
    omega
  have least := le_roundedMantissa (shiftToTargetExponent Format.binary64 m e accuracy).1
  have carry := log2_le_succ (roundedMantissa_le (shiftToTargetExponent Format.binary64 m e accuracy).1)
  unfold roundWithAccuracy
  dsimp only
  generalize shiftToTargetExponent Format.binary64 m e accuracy = shifted at *
  have full : 2 ^ 52 ≤ shifted.1.roundedMantissa := by
    refine Nat.le_trans ?_ least
    rw [← kept]
    exact Nat.log2_self_le (fun none => by rw [none] at kept; cases kept)
  have places : 52 ≤ shifted.1.roundedMantissa.log2 := (Nat.le_log2 (by omega)).2 full
  have total : totalExponent shifted.1.roundedMantissa shifted.2 =
    shifted.1.roundedMantissa.log2 + 1 + shifted.2 := rfl
  -- A carry leaves 54 places, so the rounded mantissa is shifted once more.
  obtain ⟨mantissa', exponent'⟩ := shift_spare (e := shifted.2) .exact places (by omega)
  have places' := congrArg Nat.log2 mantissa'
  rw [log2_shiftRight] at places'
  generalize shiftToTargetExponent Format.binary64 shifted.1.roundedMantissa shifted.2 .exact = shifted' at *
  have some : shifted'.1.mantissa ≠ 0 := fun none => by
    rw [none, Nat.log2_zero] at places'
    omega
  rw [dif_neg some]
  exact ⟨_, _, Nat.pos_of_ne_zero some, rfl, by omega, by omega, by omega⟩

/-! ## Putting together and taking apart -/

theorem below_unpack {b : BitVec Format.binary64.numBits} (regular : ¬ unpackExponent b = -1#_) :
    Below (max ((unpackExponent b).toNat - 1022) (-1022)) (UnpackedFloat.unpack Format.binary64 b) := by
  have bias : Format.binary64.exponentBias = 1023 := rfl
  unfold UnpackedFloat.unpack
  dsimp only
  rw [if_neg regular]
  refine iteInduction (fun subnormal => ?_) fun _ => ?_
  · refine Below.dite (fun _ => .zero) fun nonzero => .finite ?_
    have pos : (unpackMantissa b).toNat ≠ 0 := fun zero => nonzero (BitVec.eq_of_toNat_eq zero)
    have small : (unpackMantissa b).toNat.log2 < 52 := (Nat.log2_lt pos).2 (unpackMantissa b).isLt
    simp only [totalExponent, subnormal, bias]
    omega
  · have lt : (1#1 ++ unpackMantissa b).toNat < _ := (1#1 ++ unpackMantissa b).isLt
    have pos : (1#1 ++ unpackMantissa b).toNat ≠ 0 := by
      have leading : 1 <<< 52 ≤ 1 <<< 52 ||| (unpackMantissa b).toNat := Nat.left_le_or
      rw [BitVec.toNat_append]
      change 1 <<< 52 ||| (unpackMantissa b).toNat ≠ 0
      omega
    have small : (1#1 ++ unpackMantissa b).toNat.log2 < 53 := (Nat.log2_lt pos).2 lt
    refine .finite ?_
    simp only [totalExponent, bias]
    omega

theorem below_unpack_packComponents {s : Sign} {exponent : BitVec 11} (mantissa : BitVec 52)
    (regular : exponent ≠ -1#11) :
    Below (max (exponent.toNat - 1022) (-1022)) (UnpackedFloat.unpack Format.binary64
      (packComponents Format.binary64 s exponent mantissa)) := by
  have same : unpackExponent (packComponents Format.binary64 s exponent mantissa) = exponent :=
    unpackExponent_packComponents
  have below := below_unpack (b := packComponents Format.binary64 s exponent mantissa)
    (same.symm ▸ regular)
  rwa [same] at below

theorem below_unpack_pack_finite (s : Sign) {m : Nat} {e : Int} (pos : 0 < m) (high : e ≤ 971) :
    Below (max (totalExponent m e) (-1022)) (UnpackedFloat.unpack Format.binary64
      (UnpackedFloat.pack Format.binary64 (.finite s m e pos))) := by
  have bias : Format.binary64.exponentBias = 1023 := rfl
  unfold UnpackedFloat.pack
  simp only [bias]
  split
  · rename_i overflow
    simp at overflow
    omega
  rename_i fits
  simp at fits
  split
  · rename_i normal
    have places : m.log2 = 52 := by
      have bits : Format.binary64.mantissaBits = 53 := rfl
      omega
    have regular : BitVec.ofNat 11 (e + 1023 + 52).toNat ≠ -1#11 := fun same => by
      have value := congrArg BitVec.toNat same
      simp at value
      omega
    refine (below_unpack_packComponents _ regular).mono ?_
    simp only [BitVec.toNat_ofNat, totalExponent]
    omega
  · refine (below_unpack_packComponents _ (by decide)).mono ?_
    exact Int.max_le.2 ⟨Int.le_max_right _ _, Int.le_max_right _ _⟩

theorem below_unpack_pack {bound : Int} {u : UnpackedFloat} (h : Below bound u) (low : -1022 ≤ bound)
    (high : bound ≤ 971) :
    Below bound (UnpackedFloat.unpack Format.binary64 (UnpackedFloat.pack Format.binary64 u)) := by
  cases h with
  | zero => exact (below_unpack_packComponents 0 (by decide)).mono (by simpa using low)
  | @finite s m e pos small =>
      have high' : e ≤ 971 := by
        simp only [totalExponent] at small
        omega
      exact (below_unpack_pack_finite s pos high').mono (Int.max_le.2 ⟨small, low⟩)

theorem sign_packComponents (s : Sign) (exponent : BitVec 11) (mantissa : BitVec 52) :
    Sign.ofBitVec (unpackSign (packComponents Format.binary64 s exponent mantissa)) = s := by
  -- The sign stands before the exponent, and that before the mantissa.
  change Sign.ofBitVec (BitVec.extractLsb' 63 1 (s.toBitVec ++ exponent ++ mantissa)) = s
  rw [BitVec.extractLsb'_append_eq_of_le (by decide), BitVec.extractLsb'_append_eq_of_le (by decide)]
  cases s <;> rfl

theorem unpack_pack_full (s : Sign) {m : Nat} {e : Int} (pos : 0 < m) (full : m.log2 = 52) (low : -1074 ≤ e)
    (high : e ≤ 971) :
    UnpackedFloat.unpack Format.binary64 (UnpackedFloat.pack Format.binary64 (.finite s m e pos)) =
      .finite s m e pos := by
  obtain ⟨biased, rfl⟩ : ∃ biased : Nat, e = biased - 1075 := ⟨(e + 1075).toNat, by omega⟩
  have mantissa : (1#1 ++ BitVec.ofNat 52 m).toNat = m := by
    have least : 2 ^ 52 ≤ m := full ▸ Nat.log2_self_le (Nat.ne_of_gt pos)
    have most : m < 2 ^ 53 := by simpa [full] using Nat.lt_log2_self (n := m)
    rw [BitVec.toNat_append, BitVec.toNat_ofNat]
    change 1 <<< 52 ||| m % 2 ^ 52 = m
    rw [← Nat.shiftLeft_add_eq_or_of_lt (Nat.mod_lt _ (Nat.two_pow_pos 52))]
    omega
  have exponent : (BitVec.ofNat 11 biased).toNat = biased := by
    simp only [BitVec.toNat_ofNat]
    omega
  have regular (end' : BitVec 11) (apart : end'.toNat ≠ biased) : BitVec.ofNat 11 biased ≠ end' :=
    fun same => apart (same ▸ exponent)
  have bias : Format.binary64.exponentBias = 1023 := rfl
  have shifted : ((biased : Int) - 1075 + (1023 : Nat) + (52 : Nat)).toNat = biased := by omega
  have packed : UnpackedFloat.pack Format.binary64 (.finite s m (biased - 1075) pos) =
      packComponents Format.binary64 s (BitVec.ofNat 11 biased) (BitVec.ofNat 52 m) := by
    unfold UnpackedFloat.pack
    simp only [bias, shifted]
    rw [if_neg, if_pos]
    · change m.log2 + 1 = 53
      omega
    · change ¬ 2048 ≤ biased + 1
      omega
  have finite {s' : Sign} {m' : Nat} {e' : Int} {pos' : 0 < m'} (sign : s' = s) (places : m' = m)
      (power : e' = biased - 1075) : UnpackedFloat.finite s' m' e' pos' = .finite s m (biased - 1075) pos := by
    subst sign places power
    rfl
  rw [packed]
  unfold UnpackedFloat.unpack
  dsimp only
  rw [if_neg, if_neg]
  · refine finite (sign_packComponents s _ _) ?_ ?_
    · rw [unpackMantissa_packComponents, mantissa]
    · rw [unpackExponent_packComponents, exponent, bias]
      omega
  · rw [unpackExponent_packComponents]
    exact regular 0#11 (by change 0 ≠ biased; omega)
  · rw [unpackExponent_packComponents]
    exact regular (-1#11) (by change 2047 ≠ biased; omega)

/-! ## Products, quotients and whole numbers -/

theorem log2_mul_le (m n : Nat) : (m * n).log2 ≤ m.log2 + n.log2 + 1 := by
  by_cases zero : m * n = 0
  · simp [zero]
  · have m_lt := Nat.lt_log2_self (n := m)
    have n_lt := Nat.lt_log2_self (n := n)
    refine Nat.lt_succ_iff.1 ((Nat.log2_lt zero).2 ?_)
    have product : m * n < 2 ^ (m.log2 + 1) * 2 ^ (n.log2 + 1) :=
      Nat.mul_lt_mul'' m_lt n_lt
    rwa [← Nat.pow_add, show m.log2 + 1 + (n.log2 + 1) = (m.log2 + n.log2 + 1).succ by omega]
      at product

theorem below_mul {a b : Int} {u v : UnpackedFloat} (hu : Below a u) (hv : Below b v)
    (low : -1074 ≤ a + b) : Below (a + b + 1) (UnpackedFloat.mul Format.binary64 u v) := by
  cases hu with
  | zero => cases hv <;> exact .zero
  | @finite s m e _ hm => cases hv with
    | zero => exact .zero
    | @finite t n f _ hn =>
        refine below_roundWithAccuracy _ _ ?_ low
        have places := log2_mul_le m n
        simp only [totalExponent] at hm hn ⊢
        omega

def AtLeastEight : UnpackedFloat → Bool
  | .finite _ m e _ => 4 ≤ totalExponent m e
  | _ => false

theorem log2_shiftLeft {m : Nat} (pos : 0 < m) (k : Nat) : (m <<< k).log2 = m.log2 + k := by
  induction k with
  | zero => rfl
  | succ k ih =>
      have nonzero : m <<< k ≠ 0 := by
        rw [Nat.shiftLeft_eq]
        exact Nat.ne_of_gt (Nat.mul_pos pos (Nat.two_pow_pos k))
      rw [Nat.shiftLeft_succ, Nat.log2_two_mul nonzero, ih]
      omega

theorem log2_div_le {m n : Nat} (some : m / n ≠ 0) : (m / n).log2 + n.log2 ≤ m.log2 := by
  have pos : n ≠ 0 := by
    rintro rfl
    exact some (Nat.div_zero m)
  have product : 2 ^ ((m / n).log2 + n.log2) ≤ m := by
    rw [Nat.pow_add]
    exact Nat.le_trans (Nat.mul_le_mul (Nat.log2_self_le some) (Nat.log2_self_le pos))
      (Nat.div_mul_le_self m n)
  refine (Nat.le_log2 ?_).2 product
  rintro rfl
  exact some (Nat.zero_div n)

theorem totalExponent_quotient {m n k : Nat} {e f target a : Int} (hm : totalExponent m e ≤ a)
    (hn : 4 ≤ totalExponent n f) (pos : 0 < m) (shift : e - f - target = k)
    (small : target ≤ a - 2) : totalExponent ((m <<< k) / n) target ≤ a - 1 := by
  by_cases none : (m <<< k) / n = 0
  · rw [none]
    simp only [totalExponent, Nat.log2_zero]
    omega
  · have places := log2_div_le none
    rw [log2_shiftLeft pos] at places
    simp only [totalExponent] at hm hn ⊢
    omega

theorem below_div {a : Int} {u v : UnpackedFloat} (hu : Below a u) (hv : AtLeastEight v = true)
    (low : -1000 ≤ a) : Below a (UnpackedFloat.div Format.binary64 u v) := by
  cases v with
  | finite t n f pos =>
      cases hu with
      | zero => exact .zero
      | @finite s m e mPos hm =>
          -- Eight has three places to spare, and rounding costs one of them.
          have eight : 4 ≤ totalExponent n f := of_decide_eq_true hv
          have quotient : totalExponent (divCore Format.binary64 m e n f).1
              (divCore Format.binary64 m e n f).2.1 ≤ a - 1 := by
            refine totalExponent_quotient hm eight mPos ?_ ?_
            · simp only [divCore, targetExponent_eq]
              omega
            · simp only [divCore, targetExponent_eq]
              omega
          exact (below_roundWithAccuracy (s / t) (divCore Format.binary64 m e n f).2.2 quotient
            (by omega)).mono (by omega)
  | _ => cases hv

theorem below_round (s : Sign) {n : Nat} (pos : 0 < n) :
    Below (n.log2 + 2) (UnpackedFloat.round Format.binary64 s n 0) := by
  have places (k : Nat) : totalExponent (n <<< k) (0 - k) ≤ n.log2 + 1 := by
    rw [totalExponent, log2_shiftLeft pos]
    omega
  have rounded (k : Nat) := below_roundWithAccuracy s .exact (places k) (by omega)
  exact (rounded _).mono (by omega)

theorem below_ofNat (n : Nat) : Below (n.log2 + 2) (UnpackedFloat.ofNat Format.binary64 n) := by
  unfold UnpackedFloat.ofNat UnpackedFloat.ofInt UnpackedFloat.normalize
  split
  · rename_i negative
    rw [Int.compare_eq_lt] at negative
    omega
  · exact .zero
  · rename_i positive
    rw [Int.compare_eq_gt] at positive
    exact below_round .positive (by omega)

end FlowScript.Binary64
