import FlowScript.Host.Basic
import FlowScript.Json.Reader
import FlowScript.Layout.Basic

namespace FlowScript

open Json

structure NodeRecord.Draft where
  id : Option String := none
  typeName : Option String := none
  x : Option Float := none
  y : Option Float := none
  properties : Option (Option Properties) := none
  label : Option (Option String) := none
  ports : Option (Option PortCounts) := none

namespace Layout.Reader
open Json.Reader

def properties : Json.Reader Properties :=
  object (fun p key => return p.insert key (← field string)) Properties.empty .ok

def portCounts : Json.Reader PortCounts :=
  record
    (object
      (fun (s : Option Nat × Option Nat) name => do
        match name with
        | "in" =>
            once name s.1
            return (some (← field word), s.2)
        | "out" =>
            once name s.2
            return (s.1, some (← field word))
        | _ =>
            field skipped
            return s)
      (none, none)
      (fun s => return ⟨← require "in" s.1, ← require "out" s.2⟩))
    (do
      let inputs ← item true word
      let outputs ← item false word
      return ⟨inputs, outputs⟩)

def nodeField (d : NodeRecord.Draft) (name : String) : Json.Reader NodeRecord.Draft := do
  match name with
  | "id" =>
      once name d.id
      return { d with id := some (← field string) }
  | "type" =>
      once name d.typeName
      return { d with typeName := some (← field string) }
  | "x" =>
      once name d.x
      return { d with x := some (← field float) }
  | "y" =>
      once name d.y
      return { d with y := some (← field float) }
  | "properties" =>
      once name d.properties
      return { d with properties := some (← field (nullable properties)) }
  | "label" =>
      once name d.label
      return { d with label := some (← field (nullable string)) }
  | "portCounts" =>
      once name d.ports
      return { d with ports := some (← field (nullable portCounts)) }
  | _ =>
      field skipped
      return d

def finishNode (d : NodeRecord.Draft) : Except LayoutFault (NodeRecord Float) := do
  let id ← require "id" d.id
  let typeName ← require "type" d.typeName
  let x ← require "x" d.x
  let y ← require "y" d.y
  return ⟨id, typeName, x, y, d.properties.join, d.label.join, d.ports.join⟩

def node : Json.Reader (NodeRecord Float) :=
  record (object nodeField {} finishNode) do
    let id ← item true string
    let typeName ← item false string
    let x ← item false float
    let y ← item false float
    let properties ← item? false (nullable properties)
    let label ← item? false (nullable string)
    let ports ← item? false (nullable portCounts)
    return ⟨id, typeName, x, y, properties.join, label.join, ports.join⟩

def wire : Json.Reader Wire := do
  expect '['
  let source ← item true string
  let sourcePort ← item false word
  let target ← item false string
  let targetPort ← item false word
  expect ']'
  return ⟨source, sourcePort, target, targetPort⟩

def layout : Json.Reader (Layout Float) :=
  record
    (object
      (fun (s : Option (List (NodeRecord Float)) × Option (List Wire)) name => do
        match name with
        | "nodes" =>
            once name s.1
            return (some (← field (list node)), s.2)
        | "connections" =>
            once name s.2
            return (s.1, some (← field (list wire)))
        | _ =>
            field skipped
            return s)
      (none, none)
      (fun s => return ⟨← require "nodes" s.1, s.2.getD []⟩))
    (do
      let nodes ← item true (list node)
      let wires ← item? false (list wire)
      return ⟨nodes, wires.getD []⟩)

end Layout.Reader

def Layout.parse (text : String) : Except Error (Layout Float) :=
  match Layout.Reader.layout.whole text.toList with
  | .ok layout => .ok layout
  | .error fault => .error (.corruptLayout fault)

def Layout.loadFrom {m : Type → Type} [Monad m] [Host m] (path : String) : ExceptT Error m (Layout Float) := do
  let text ← fileStep (Host.readText path)
  match parse text with
  | .ok layout => return layout
  | .error e => throw e

end FlowScript
