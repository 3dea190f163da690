import Mathlib.Algebra.Field.Rat
import Mathlib.Algebra.Order.Field.Basic
import Mathlib.Algebra.Order.Ring.Rat
import Mathlib.Data.Rat.Sqrt
import FlowScript.Geometry
import FlowScript.Proofs.Scalar

namespace FlowScript

/-- Lengths of vectors, rounded in any way that makes none of them zero but that of the zero vector. -/
class Length (K : Type) [Field K] [LinearOrder K] where
  length : K → K → K
  nonneg (x y : K) : 0 ≤ length x y
  eq_zero_iff {x y : K} : length x y = 0 ↔ x = 0 ∧ y = 0

theorem rat_sqrt_eq_zero {q : ℚ} (h : 0 ≤ q) : Rat.sqrt q = 0 ↔ q = 0 := by
  have den : q.den.sqrt ≠ 0 := by simp [Nat.sqrt_eq_zero, q.den_nz]
  have num : 0 ≤ q.num := Rat.num_nonneg.2 h
  rw [Rat.sqrt, Rat.mkRat_eq_zero den, Int.sqrt, Int.natCast_eq_zero, Nat.sqrt_eq_zero, Int.toNat_eq_zero,
    ← Rat.num_eq_zero]
  omega

instance : Length ℚ where
  length x y := Rat.sqrt (x * x + y * y)
  nonneg x y := Rat.sqrt_nonneg _
  eq_zero_iff {x y} := by
    rw [rat_sqrt_eq_zero (add_nonneg (mul_self_nonneg x) (mul_self_nonneg y)), mul_self_add_mul_self_eq_zero]

variable {K : Type} [Field K] [LinearOrder K] [Length K]

instance (priority := low) exactScalar : Scalar K where
  ofNat n := n
  lt x y := decide (x < y)
  le x y := decide (x ≤ y)
  abs x := |x|
  hypot := Length.length
  isFinite _ := true

namespace Scalar

@[simp] theorem lt_eq_decide (x y : K) : Scalar.lt x y = decide (x < y) := rfl

@[simp] theorem le_eq_decide (x y : K) : Scalar.le x y = decide (x ≤ y) := rfl

theorem isNumber (x : K) : IsNumber x := by simp [IsNumber]

instance : Ordered K where
  le_trans first second := by
    simp only [le_eq_decide, decide_eq_true_eq] at *
    exact first.trans second
  le_total {x y} _ _ := by simpa using le_total x y
  lt_eq {x y} _ _ := by simp [← not_le]

theorem clamp_mem {low high : K} (h : low ≤ high) (x : K) : low ≤ clamp low high x ∧ clamp low high x ≤ high := by
  unfold clamp
  by_cases below : x < low
  · simp [below, h]
  · by_cases above : high < x
    · simp [below, above, h]
    · simpa [below, above] using ⟨not_lt.1 below, not_lt.1 above⟩

end Scalar

attribute [ext] Point

namespace Point

theorem distance_nonneg (p q : Point K) : 0 ≤ p.distance q := Length.nonneg _ _

theorem distance_eq_zero_iff {p q : Point K} : p.distance q = 0 ↔ p = q := by
  constructor
  · intro zero
    obtain ⟨x, y⟩ := Length.eq_zero_iff.1 zero
    exact Point.ext (sub_eq_zero.1 x) (sub_eq_zero.1 y)
  · rintro rfl
    exact Length.eq_zero_iff.2 ⟨sub_self _, sub_self _⟩

end Point
end FlowScript
