import FlowScript.Command.Basic
import FlowScript.Command.Workspace
import FlowScript.Decimal.Style

namespace FlowScript

/-- What an edit comes to: whether there is something to write, and what to tell. -/
structure EditReport where
  changed : Bool
  level : LogLevel
  message : String
  deriving DecidableEq, Repr

namespace EditReport

def done (message : String) : EditReport := ⟨true, .info, "✓ " ++ message⟩

end EditReport

def showPort (id : String) (index : Nat) : String := id ++ ":" ++ toString index

def Wire.text (w : Wire) : String :=
  showPort w.source w.sourcePort ++ " -> " ++ showPort w.target w.targetPort

def Point.text (p : Point Float) : String :=
  "(" ++ showCoordinate p.x ++ ", " ++ showCoordinate p.y ++ ")"

namespace LayoutEdit

def removed (count : Nat) : EditReport :=
  ⟨0 < count, .info, "✓ Removed " ++ toString count ++ " wire(s)"⟩

def steps : LayoutEdit → Edit (Session Float) EditReport
  | .addNode typeName position wished => do
      let id ← Session.addNode typeName position wished
      return .done ("Added " ++ id ++ " (" ++ typeName ++ ")")
  | .moveNode id position => do
      Session.onGraph (Graph.moveNode id position)
      return .done ("Moved " ++ id ++ " to " ++ position.text)
  | .setProperty id key value => do
      Session.onGraph (Graph.setProperty id key value)
      return .done ("Set " ++ id ++ "." ++ key ++ " = " ++ Text.literal value)
  | .renameNode id label => do
      Session.onGraph (Graph.renameNode id label)
      let node ← Edit.ask fun s => s.graph.node id
      return .done ("Renamed " ++ id ++ " to \"" ++ node.label ++ "\"")
  | .deleteNode id => do
      Session.onGraph (Graph.deleteNode id)
      return .done ("Deleted " ++ id)
  | .connect wire => do
      if ← Session.onGraph (Graph.connect wire) then return .done ("Connected " ++ wire.text)
      return ⟨false, .warning,
        "Wire " ++ wire.text ++ " not added (already present or loops onto itself)"⟩
  | .disconnect wire => do
      return removed (← Session.onGraph (Graph.disconnect wire)).toNat
  | .disconnectAll id => return removed (← Session.onGraph (Graph.disconnectAll id))
  | .clear => do
      let count := (← get).graph.nodes.length
      Session.onGraph Graph.clear
      return .done ("Cleared " ++ toString count ++ " node(s)")

def activity? : LayoutEdit → Option Activity
  | .addNode typeName _ _ => some (.addNode typeName)
  | _ => none

variable {m : Type → Type} [Monad m] [Host m]

def run (path : String) (change : LayoutEdit) : ExceptT Failure m Unit := do
  let workspace ← Workspace.loadFrom path
  match change.steps.outcome workspace.session with
  | (.error e, _) => throw (.error change.activity? e)
  | (.ok report, session) =>
      if report.changed then Workspace.save { workspace with session }
      Host.log report.level (Text.tame report.message)

end LayoutEdit
end FlowScript
