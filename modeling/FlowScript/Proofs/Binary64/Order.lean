import Mathlib.Data.Prod.Lex
import Mathlib.Data.Int.Order.Basic
import FlowScript.Proofs.Scalar

namespace FlowScript.Binary64

open Float.Model

def rank : UnpackedFloat → ℤ ×ₗ ℤ ×ₗ ℤ
  | .infinity .negative => toLex (-2, toLex (0, 0))
  | .finite .negative m e _ => toLex (-1, toLex (-e, -m))
  | .zero _ | .notANumber => toLex (0, toLex (0, 0))
  | .finite .positive m e _ => toLex (1, toLex (e, m))
  | .infinity .positive => toLex (2, toLex (0, 0))

theorem compare_toLex (a b c a' b' c' : ℤ) :
    compare (toLex (a, toLex (b, c))) (toLex (a', toLex (b', c'))) =
      (compare a a').then ((compare b b').then (compare c c')) := by
  simp [Prod.Lex.compare_def, compareLex, compareOn]

theorem compare_neg (a b : ℤ) : compare (-a) (-b) = (compare a b).swap := by
  rw [← Int.compare_swap]
  simp only [compare, compareOfLessAndEq]
  grind

theorem compare_natCast (a b : ℕ) : compare (a : ℤ) b = compare a b := by
  simp only [compare, compareOfLessAndEq]
  grind

theorem compare_eq {u v : UnpackedFloat} (hu : u.isNaN = false) (hv : v.isNaN = false) :
    u.compare v = some (compare (rank u) (rank v)) := by
  -- Kinds and signs decide alone, except for two finite numbers of one sign.
  cases u with
  | notANumber => cases hu
  | zero s =>
      cases v with
      | notANumber => cases hv
      | zero => rfl
      | infinity s' | finite s' => cases s' <;> rfl
  | infinity s =>
      cases v with
      | notANumber => cases hv
      | zero => cases s <;> rfl
      | infinity s' | finite s' => cases s <;> cases s' <;> rfl
  | finite s m e =>
      cases v with
      | notANumber => cases hv
      | zero => cases s <;> rfl
      | infinity s' => cases s <;> cases s' <;> rfl
      | finite s' m' e' =>
          cases s with
          | negative =>
              cases s' with
              | positive => rfl
              | negative =>
                  have key := compare_toLex (-1) (-e) (-m) (-1) (-e') (-m')
                  rw [compare_neg e e', compare_neg (m : ℤ) m', compare_natCast, ← Ordering.swap_then] at key
                  exact congrArg some key.symm
          | positive =>
              cases s' with
              | negative => rfl
              | positive =>
                  have key := compare_toLex 1 e m 1 e' m'
                  rw [compare_natCast] at key
                  exact congrArg some key.symm

theorem le_iff {x y : Float} : Scalar.le x y = true ↔ x.toModel.unpack.le y.toModel.unpack = true :=
  (decide_eq_true_iff (p := x ≤ y)).trans decide_eq_true_iff

theorem lt_iff {x y : Float} : Scalar.lt x y = true ↔ x.toModel.unpack.lt y.toModel.unpack = true :=
  (decide_eq_true_iff (p := x < y)).trans decide_eq_true_iff

theorem notNaN_of_le {u v : UnpackedFloat} (h : u.le v = true) : u.isNaN = false ∧ v.isNaN = false := by
  cases u with
  | notANumber => cases h
  | _ => cases v with
    | notANumber => cases h
    | _ => exact ⟨rfl, rfl⟩

theorem le_iff_rank {u v : UnpackedFloat} (hu : u.isNaN = false) (hv : v.isNaN = false) :
    u.le v = true ↔ rank u ≤ rank v := by
  rw [UnpackedFloat.le, compare_eq hu hv, Option.any_some, Ordering.isLE_iff_ne_gt]
  exact compare_le_iff_le

theorem lt_iff_rank {u v : UnpackedFloat} (hu : u.isNaN = false) (hv : v.isNaN = false) :
    u.lt v = true ↔ rank u < rank v := by
  rw [UnpackedFloat.lt, compare_eq hu hv, beq_iff_eq, Option.some.injEq]
  exact compare_lt_iff_lt

theorem isNumber_iff {x : Float} : Scalar.IsNumber x ↔ x.isNaN = false := by
  rw [Scalar.IsNumber, le_iff]
  constructor
  · exact fun h => (notNaN_of_le h).1
  · exact fun h => (le_iff_rank h h).2 le_rfl

instance : Scalar.Ordered Float where
  le_trans {x y z} first second := by
    rw [le_iff] at first second ⊢
    obtain ⟨hx, hy⟩ := notNaN_of_le first
    have hz := (notNaN_of_le second).2
    rw [le_iff_rank hx hy] at first
    rw [le_iff_rank hy hz] at second
    exact (le_iff_rank hx hz).2 (first.trans second)
  le_total {x y} hx hy := by
    rw [isNumber_iff] at hx hy
    rw [le_iff, le_iff, le_iff_rank hx hy, le_iff_rank hy hx]
    exact le_total _ _
  lt_eq {x y} hx hy := by
    rw [isNumber_iff] at hx hy
    rw [Bool.eq_iff_iff, Bool.not_eq_true', ← Bool.not_eq_true, lt_iff, le_iff, lt_iff_rank hx hy,
      le_iff_rank hy hx, not_le]

end FlowScript.Binary64
