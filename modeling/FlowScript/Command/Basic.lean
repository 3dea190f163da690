import FlowScript.Graph.Basic

namespace FlowScript

inductive LayoutEdit where
  | addNode (typeName : String) (position : Point Float) (id : Option String)
  | moveNode (id : String) (position : Point Float)
  | setProperty (id key value : String)
  | renameNode (id label : String)
  | deleteNode (id : String)
  | connect (wire : Wire)
  | disconnect (wire : Wire)
  | disconnectAll (id : String)
  | clear
  deriving DecidableEq

inductive Command where
  | create (path : String) (name : Option String)
  | listTypes
  | display
  | edit (change : LayoutEdit)
  | validate
  | compile (output : Option String) (debug force : Bool)
  deriving DecidableEq

structure Invocation where
  project : String
  command : Command
  deriving DecidableEq

end FlowScript
