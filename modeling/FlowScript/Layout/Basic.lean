import FlowScript.Graph.Basic

namespace FlowScript

structure NodeRecord (α : Type) where
  id : String
  typeName : String
  x : α
  y : α
  properties : Option Properties
  label : Option String
  ports : Option PortCounts
  deriving BEq, DecidableEq

structure Layout (α : Type) where
  nodes : List (NodeRecord α)
  wires : List Wire
  deriving BEq, DecidableEq

namespace NodeRecord
variable {α : Type}

def ofNode (n : Node α) : NodeRecord α where
  id := n.id
  typeName := n.typeName
  x := n.position.x
  y := n.position.y
  properties := some n.properties
  label := some n.label
  ports := some n.ports

def fill (r : NodeRecord α) (n : Node α) : Node α :=
  { n with
    properties := r.properties.getD n.properties
    label := r.label.getD n.label
    ports := r.ports.getD n.ports }

end NodeRecord

namespace Layout
variable {α : Type}

def ofGraph (g : Graph α) : Layout α := ⟨g.nodes.map NodeRecord.ofNode, g.wires⟩

def faultOf (id : String) : Error → Error
  | .unknownType name => .corruptLayout (.unknownType id name)
  | .duplicateNode id => .corruptLayout (.repeatedId id)
  | other => other

def restoreNode (catalog : Catalog) (r : NodeRecord α) : Edit (Graph α) Unit := do
  discard <| tryCatch (Graph.addNode catalog r.typeName ⟨r.x, r.y⟩ (some r.id))
    fun e => throw (faultOf r.id e)
  Graph.editNode r.id fun n => .ok (r.fill n)

def checkEnd (g : Graph α) (id : String) : Except Error Unit :=
  if g.contains id then .ok () else .error (.corruptLayout (.danglingWire id))

def restoreWire (w : Wire) : Edit (Graph α) Unit := do
  let g ← get
  checkEnd g w.source
  checkEnd g w.target
  set { g with wires := g.wires ++ [w] }

def restore (catalog : Catalog) (layout : Layout α) : Edit (Graph α) Unit := do
  layout.nodes.forM (restoreNode catalog)
  layout.wires.forM restoreWire

def toGraph (catalog : Catalog) (layout : Layout α) : Except Error (Graph α) :=
  match (layout.restore catalog).outcome Graph.empty with
  | (.ok (), g) => .ok g
  | (.error e, _) => .error e

def load (catalog : Catalog) (layout : Layout α) : Edit (Graph α) Unit := do
  let g ← layout.toGraph catalog
  set g

end Layout
end FlowScript
