import FlowScript.Scalar

namespace FlowScript

structure Point (α : Type) where
  x : α
  y : α
  deriving DecidableEq, Repr

inductive Side where
  | input
  | output
  deriving DecidableEq, Repr

def Side.name : Side → String
  | .input => "input"
  | .output => "output"

structure Rect (α : Type) where
  x : α
  y : α
  width : α
  height : α
  deriving DecidableEq, Repr

variable {α : Type} [Scalar α]

namespace Point

def origin : Point α := ⟨Scalar.ofNat 0, Scalar.ofNat 0⟩

instance : Add (Point α) := ⟨fun p q => ⟨p.x + q.x, p.y + q.y⟩⟩
instance : Sub (Point α) := ⟨fun p q => ⟨p.x - q.x, p.y - q.y⟩⟩
instance : HMul (Point α) α (Point α) := ⟨fun p k => ⟨p.x * k, p.y * k⟩⟩
instance : HDiv (Point α) α (Point α) := ⟨fun p k => ⟨p.x / k, p.y / k⟩⟩

def distance (p q : Point α) : α := Scalar.hypot (p.x - q.x) (p.y - q.y)

end Point

def Rect.contains (r : Rect α) (p : Point α) : Bool :=
  Scalar.le r.x p.x && Scalar.le p.x (r.x + r.width) &&
    Scalar.le r.y p.y && Scalar.le p.y (r.y + r.height)

/-- The anchor of port `index` of `total` on a side: `gap` away from the edge, and never on the height
of a corner. -/
def Rect.portAnchor (r : Rect α) (side : Side) (index total : Nat) (gap : α) : Point α where
  x := match side with
    | .output => r.x + r.width + gap
    | .input => r.x - gap
  y := r.y + r.height * (Scalar.ofNat index + Scalar.ofNat 1) / (Scalar.ofNat total + Scalar.ofNat 1)

structure WireCurve (α : Type) where
  start : Point α
  control₁ : Point α
  control₂ : Point α
  stop : Point α
  deriving DecidableEq, Repr

def WireCurve.between (start stop : Point α) : WireCurve α :=
  let pull := Scalar.atMost (Scalar.ofNat 100) (Scalar.abs (stop.x - start.x) / Scalar.ofNat 2)
  ⟨start, ⟨start.x + pull, start.y⟩, ⟨stop.x - pull, stop.y⟩, stop⟩

structure NodeShape (α : Type) where
  width : α
  height : α
  portGap : α
  deriving DecidableEq, Repr

def NodeShape.standard : NodeShape α :=
  ⟨Scalar.ofNat 140, Scalar.ofNat 60, Scalar.ofNat 6⟩

end FlowScript
