import FlowScript.Binary64

namespace FlowScript

/-- A number type for coordinates. The program runs on doubles; laws of exact arithmetic are read at an exact
type. A comparison of incomparable values is false. -/
class Scalar (α : Type) extends Add α, Sub α, Mul α, Div α where
  ofNat : Nat → α
  lt : α → α → Bool
  le : α → α → Bool
  abs : α → α
  hypot : α → α → α
  isFinite : α → Bool

namespace Scalar
variable {α : Type} [Scalar α]

def atMost (bound x : α) : α := if le x bound then x else bound

def clamp (low high x : α) : α :=
  if lt x low then low else if lt high x then high else x

end Scalar

instance : Scalar Float where
  ofNat n := n.toFloat
  lt x y := x < y
  le x y := x ≤ y
  abs := Float.abs
  hypot := Binary64.hypot
  isFinite := Float.isFinite

end FlowScript
