import Mathlib.Tactic.Linarith
import Mathlib.Tactic.Positivity
import Mathlib.Tactic.Ring
import FlowScript.Proofs.Exact
import FlowScript.Proofs.Graph.NearestPort

namespace FlowScript.NodeShape

variable {K : Type} [Field K] [LinearOrder K] {shape : NodeShape K} {n : Node K} {side : Side} {i j : Nat}

def spacing (shape : NodeShape K) (n : Node K) (side : Side) : K := shape.height / (n.ports.on side + 1)

theorem spacing_pos [IsStrictOrderedRing K] (tall : 0 < shape.height) (n : Node K) (side : Side) :
    0 < shape.spacing n side :=
  div_pos tall (by positivity)

variable [Length K]

theorem anchor_y (shape : NodeShape K) (n : Node K) (side : Side) (i : Nat) :
    (shape.anchor n side i).y = n.position.y + (i + 1) * shape.spacing n side := by
  have one : ((1 : ℕ) : K) = 1 := Nat.cast_one
  change n.position.y + shape.height * ((i : K) + ((1 : ℕ) : K)) / ((n.ports.on side : K) + ((1 : ℕ) : K)) = _
  rw [one, spacing]
  ring

theorem anchor_y_step (shape : NodeShape K) (n : Node K) (side : Side) (i j : Nat) :
    (shape.anchor n side j).y - (shape.anchor n side i).y = (j - i) * shape.spacing n side := by
  rw [anchor_y, anchor_y]
  ring

variable [IsStrictOrderedRing K]

theorem anchor_y_lt (tall : 0 < shape.height) (lower : i < j) :
    (shape.anchor n side i).y < (shape.anchor n side j).y := by
  have apart : (0 : K) < j - i := sub_pos.2 (Nat.cast_lt.2 lower)
  rw [← sub_pos, anchor_y_step]
  exact mul_pos apart (spacing_pos tall n side)

theorem anchor_ne (tall : 0 < shape.height) (different : i ≠ j) :
    shape.anchor n side i ≠ shape.anchor n side j := by
  intro same
  rcases Nat.lt_or_gt_of_ne different with lower | higher
  · exact (anchor_y_lt tall lower).ne (congrArg Point.y same)
  · exact (anchor_y_lt tall higher).ne (congrArg Point.y same.symm)

theorem anchor_y_inside (tall : 0 < shape.height) (own : i < n.ports.on side) :
    n.position.y < (shape.anchor n side i).y ∧ (shape.anchor n side i).y < n.position.y + shape.height := by
  have pos := spacing_pos tall n side
  have all : (n.ports.on side + 1) * shape.spacing n side = shape.height := mul_div_cancel₀ _ (by positivity)
  have index : (i : K) < n.ports.on side := Nat.cast_lt.2 own
  have above : (i : K) * shape.spacing n side < n.ports.on side * shape.spacing n side :=
    mul_lt_mul_of_pos_right index pos
  have first : 0 ≤ (i : K) * shape.spacing n side := by positivity
  rw [anchor_y]
  constructor <;> linarith

theorem nearest_own_anchor (tall : 0 < shape.height) {g : Graph K} {front back : List (Node K)} {t : Node K}
    (nodes : g.nodes = front ++ t :: back) (own : i < t.ports.on side)
    (apart : ∀ m ∈ front, ∀ j < m.ports.on side, shape.anchor m side j ≠ shape.anchor t side i) {radius : K}
    (reach : 0 ≤ radius) : shape.Nearest g (shape.anchor t side i) side radius (shape.hitAt side t i) := by
  have here : shape.distanceTo (shape.anchor t side i) side t i = 0 := Point.distance_eq_zero_iff.2 rfl
  have near (m : Node K) (j : Nat) : 0 ≤ shape.distanceTo (shape.anchor t side i) side m j :=
    Point.distance_nonneg _ _
  have away (m : Node K) (j : Nat) (other : shape.anchor m side j ≠ shape.anchor t side i) :
      0 < shape.distanceTo (shape.anchor t side i) side m j :=
    (near m j).lt_of_ne fun zero => other (Point.distance_eq_zero_iff.1 zero.symm)
  refine ⟨front, t, back, i, nodes, ?_, rfl⟩
  constructor
  case own => exact own
  case within => simpa [here] using reach
  case earlierNodes =>
    intro m mem j bound
    simpa [here] using away m j (apart m mem j bound)
  case earlierPorts =>
    intro j lower
    simpa [here] using away t j (anchor_ne tall lower.ne)
  case least =>
    intro m _ j _
    simpa [here] using near m j

end FlowScript.NodeShape
