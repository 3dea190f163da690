import FlowScript.Catalog.Basic
import FlowScript.Graph.NodeId
import FlowScript.Text.Basic

namespace FlowScript

structure PortCounts where
  inputs : Nat
  outputs : Nat
  deriving DecidableEq, Repr

def PortCounts.on (p : PortCounts) : Side → Nat
  | .input => p.inputs
  | .output => p.outputs

def NodeType.portCounts (t : NodeType) : PortCounts := ⟨t.inputs.length, t.outputs.length⟩

structure Node (α : Type) where
  id : String
  typeName : String
  position : Point α
  label : String
  properties : Properties
  ports : PortCounts
  deriving DecidableEq

def NodeType.newNode {α : Type} (t : NodeType) (id : String) (position : Point α) : Node α where
  id := id
  typeName := t.name
  position := position
  label := t.name
  properties := t.initialProperties
  ports := t.portCounts

structure Wire where
  source : String
  sourcePort : Nat
  target : String
  targetPort : Nat
  deriving DecidableEq, Repr

def Wire.touches (w : Wire) (id : String) : Bool := w.source = id || w.target = id

def Wire.isLoop (w : Wire) : Bool := w.source = w.target && w.sourcePort = w.targetPort

/-- Nodes and wires in insertion order, and the number of the next generated id. -/
structure Graph (α : Type) where
  nodes : List (Node α)
  wires : List Wire
  nextNumber : Nat
  deriving DecidableEq

namespace Graph
variable {α : Type}

def empty : Graph α := ⟨[], [], 0⟩

/-! ## Queries -/

def contains (g : Graph α) (id : String) : Bool := g.nodes.any (·.id = id)

def node? (g : Graph α) (id : String) : Option (Node α) := g.nodes.find? (·.id = id)

def node (g : Graph α) (id : String) : Except Error (Node α) :=
  match g.node? id with
  | some n => .ok n
  | none => .error (.nodeNotFound id)

def outgoing (g : Graph α) (id : String) : List Wire := g.wires.filter (·.source = id)

def firstOutgoing? (g : Graph α) (id : String) : Option Wire := g.wires.find? (·.source = id)

def successor? (g : Graph α) (id : String) : Option String := (g.firstOutgoing? id).map Wire.target

/-! ## Ids -/

/-- The counter is past the suffix of an id in use; it stops at the last number. -/
def reserve (g : Graph α) (id : String) : Graph α :=
  match NodeId.suffix? id with
  | some n => { g with nextNumber := max g.nextNumber (min (n + 1) NodeId.lastNumber) }
  | none => g

/-- Takes the next number whose id is free, and fails when the numbers run out. -/
def allocate (g : Graph α) : Except Error String × Graph α :=
  let id := NodeId.ofNumber g.nextNumber
  if g.nextNumber < NodeId.lastNumber then
    let g' := { g with nextNumber := g.nextNumber + 1 }
    if g.contains id then allocate g' else (.ok id, g')
  else (.error (.idsExhausted id), g)
termination_by NodeId.lastNumber - g.nextNumber

/-! ## Edits -/

def chooseId (wished : Option String) : Edit (Graph α) String := do
  match wished with
  | some id =>
      if (← get).contains id then throw (.duplicateNode id)
      modify (·.reserve id)
      return id
  | none => ExceptT.mk allocate

def addNode (catalog : Catalog) (typeName : String) (position : Point α) (wished : Option String) :
    Edit (Graph α) String := do
  let type ← catalog.find typeName
  let id ← chooseId wished
  modify fun g => { g with nodes := g.nodes ++ [type.newNode id position] }
  return id

def replaceNode (g : Graph α) (id : String) (n : Node α) : Graph α :=
  { g with nodes := g.nodes.map fun old => if old.id = id then n else old }

def editNode (id : String) (change : Node α → Except Error (Node α)) : Edit (Graph α) Unit := do
  let n ← (← get).node id
  let changed ← change n
  modify (·.replaceNode id changed)

def moveNode (id : String) (position : Point α) : Edit (Graph α) Unit :=
  editNode id fun n => .ok { n with position }

def setProperty (id key value : String) : Edit (Graph α) Unit :=
  editNode id fun n =>
    if n.properties.contains key then .ok { n with properties := n.properties.insert key value }
    else .error (.unknownProperty id key)

def renameNode (id label : String) : Edit (Graph α) Unit :=
  editNode id fun n => .ok { n with label := if Text.isBlank label then n.typeName else label }

def checkPort (n : Node α) (side : Side) (index : Nat) : Except Error Unit :=
  if index < n.ports.on side then .ok ()
  else .error (.portOutOfRange n.id side index (n.ports.on side))

/-- Draws a wire. The answer is `false`, and nothing changes, where the wire is there already or would
join a port to itself. -/
def connect (w : Wire) : Edit (Graph α) Bool := do
  let source ← (← get).node w.source
  let target ← (← get).node w.target
  checkPort source .output w.sourcePort
  checkPort target .input w.targetPort
  if w.isLoop || (← get).wires.contains w then return false
  modify fun g => { g with wires := g.wires ++ [w] }
  return true

def dropWires (g : Graph α) (condition : Wire → Bool) : Nat × Graph α :=
  (g.wires.countP condition, { g with wires := g.wires.filter (!condition ·) })

def disconnect (w : Wire) : Edit (Graph α) Bool :=
  return (← modifyGet (·.dropWires (· = w))) > 0

def disconnectAll (id : String) : Edit (Graph α) Nat := modifyGet (·.dropWires (·.touches id))

def deleteNode (id : String) : Edit (Graph α) Unit := do
  discard <| (← get).node id
  modify fun g => { g with nodes := g.nodes.filter (·.id ≠ id) }
  discard <| disconnectAll id

def clear : Edit (Graph α) Unit := set (empty : Graph α)

end Graph
end FlowScript
