import FlowScript.Graph.Ports
import FlowScript.Layout.Reader
import FlowScript.Viewport

namespace FlowScript

structure Session (α : Type) where
  catalog : Catalog
  graph : Graph α
  view : Viewport α
  shape : NodeShape α
  deriving DecidableEq

namespace Session
variable {α : Type}

def onGraph {β : Type} (e : Edit (Graph α) β) : Edit (Session α) β :=
  e.within Session.graph fun graph s => { s with graph }

variable [Scalar α]

def new (catalog : Catalog) (shape : NodeShape α) : Session α :=
  ⟨catalog, Graph.empty, Viewport.initial, shape⟩

def look (change : Viewport α → Viewport α) : Edit (Session α) Unit :=
  modify fun s => { s with view := change s.view }

def addNode (typeName : String) (position : Point α) (wished : Option String) :
    Edit (Session α) String := do
  onGraph (Graph.addNode (← get).catalog typeName position wished)

def addNodeAtWindow (typeName : String) (window : Point α) : Edit (Session α) String := do
  addNode typeName ((← get).view.toCanvas window) none

def hitTest (s : Session α) (p : Point α) (side : Side) (radius : α) : Option (PortHit α) :=
  s.shape.hitTest s.graph p side radius

def connectAtWindow (source : String) (sourcePort : Nat) (window : Point α) (radius : α) :
    Edit (Session α) Bool := do
  let s ← get
  match s.hitTest (s.view.toCanvas window) .input radius with
  | some hit => onGraph (Graph.connect ⟨source, sourcePort, hit.id, hit.index⟩)
  | none => return false

def load (layout : Layout α) : Edit (Session α) Unit := do
  onGraph (layout.load (← get).catalog)

def loadText (text : String) : Edit (Session Float) Unit := do
  load (← Layout.parse text)

end Session
end FlowScript
