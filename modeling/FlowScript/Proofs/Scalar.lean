import FlowScript.Scalar

namespace FlowScript.Scalar

variable {α : Type} [Scalar α]

def IsNumber (x : α) : Prop := le x x = true

class Ordered (α : Type) [Scalar α] : Prop where
  le_trans {x y z : α} : le x y = true → le y z = true → le x z = true
  le_total {x y : α} : IsNumber x → IsNumber y → le x y = true ∨ le y x = true
  lt_eq {x y : α} : IsNumber x → IsNumber y → lt x y = !le y x

variable [Ordered α] {x y z : α}

theorem le_of_not_lt (hx : IsNumber x) (hy : IsNumber y) (h : ¬ lt x y = true) : le y x = true := by
  simpa [Ordered.lt_eq hx hy] using h

theorem not_le_of_lt (hx : IsNumber x) (hy : IsNumber y) (h : lt x y = true) : ¬ le y x = true := by
  simpa [Ordered.lt_eq hx hy] using h

theorem lt_of_not_le (hx : IsNumber x) (hy : IsNumber y) (h : ¬ le y x = true) : lt x y = true := by
  simpa [Ordered.lt_eq hx hy] using h

theorem le_of_lt (hx : IsNumber x) (hy : IsNumber y) (h : lt x y = true) : le x y = true :=
  (Ordered.le_total hx hy).resolve_right (not_le_of_lt hx hy h)

theorem lt_of_le_of_lt (hx : IsNumber x) (hy : IsNumber y) (hz : IsNumber z) (first : le x y = true)
    (second : lt y z = true) : lt x z = true :=
  lt_of_not_le hx hz fun back => not_le_of_lt hy hz second (Ordered.le_trans back first)

theorem lt_of_lt_of_le (hx : IsNumber x) (hy : IsNumber y) (hz : IsNumber z) (first : lt x y = true)
    (second : le y z = true) : lt x z = true :=
  lt_of_not_le hx hz fun back => not_le_of_lt hx hy first (Ordered.le_trans second back)

end FlowScript.Scalar
