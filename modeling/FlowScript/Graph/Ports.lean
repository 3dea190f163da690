import FlowScript.Graph.Basic

namespace FlowScript

structure PortHit (α : Type) where
  id : String
  side : Side
  index : Nat
  anchor : Point α
  deriving DecidableEq, Repr

namespace NodeShape
variable {α : Type} [Scalar α] (shape : NodeShape α)

def rect (n : Node α) : Rect α := ⟨n.position.x, n.position.y, shape.width, shape.height⟩

def anchor (n : Node α) (side : Side) (index : Nat) : Point α :=
  (shape.rect n).portAnchor side index (n.ports.on side) shape.portGap

def portAnchor (g : Graph α) (id : String) (side : Side) (index : Nat) : Except Error (Point α) := do
  let n ← g.node id
  Graph.checkPort n side index
  return shape.anchor n side index

def endpoints (g : Graph α) (w : Wire) : Except Error (Point α × Point α) := do
  let start ← shape.portAnchor g w.source .output w.sourcePort
  let stop ← shape.portAnchor g w.target .input w.targetPort
  return (start, stop)

def wireCurve (g : Graph α) (w : Wire) : Except Error (WireCurve α) := do
  let (start, stop) ← shape.endpoints g w
  return .between start stop

def wireCurves (g : Graph α) : Except Error (List (WireCurve α)) := g.wires.mapM (shape.wireCurve g)

def portsOn (g : Graph α) (side : Side) : List (PortHit α) :=
  g.nodes.flatMap fun n =>
    (List.range (n.ports.on side)).map fun index => ⟨n.id, side, index, shape.anchor n side index⟩

def nearer (p : Point α) (radius : α) (best : Option (α × PortHit α)) (hit : PortHit α) :
    Option (α × PortHit α) :=
  let distance := hit.anchor.distance p
  if Scalar.lt radius distance then best
  else match best with
    | none => some (distance, hit)
    | some (least, _) => if Scalar.lt distance least then some (distance, hit) else best

/-- The nearest port within the radius; of equally near ones the first. -/
def hitTest (g : Graph α) (p : Point α) (side : Side) (radius : α) : Option (PortHit α) :=
  ((shape.portsOn g side).foldl (nearer p radius) none).map (·.2)

def nodeAt? (g : Graph α) (p : Point α) : Option (Node α) :=
  g.nodes.reverse.find? fun n => (shape.rect n).contains p

end NodeShape
end FlowScript
