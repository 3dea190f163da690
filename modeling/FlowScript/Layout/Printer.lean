import FlowScript.Decimal.Style
import FlowScript.Host.Basic
import FlowScript.Json.Text
import FlowScript.Layout.Basic

namespace FlowScript

namespace Json

abbrev Indented : Type := Nat → List Char

def newline (depth : Nat) : List Char := '\n' :: List.replicate (2 * depth) ' '

def lines (depth : Nat) : List Indented → List Char
  | [] => []
  | [part] => newline depth ++ part depth
  | part :: rest => newline depth ++ part depth ++ ',' :: lines depth rest

def bracketed (opening closing : Char) (parts : List Indented) : Indented := fun depth =>
  if parts.isEmpty then [opening, closing]
  else opening :: lines (depth + 1) parts ++ newline depth ++ [closing]

def list (items : List Indented) : Indented := bracketed '[' ']' items

def object (fields : List (String × Indented)) : Indented :=
  bracketed '{' '}' (fields.map fun (name, value) depth => quote name ++ ':' :: ' ' :: value depth)

def string (s : String) : Indented := fun _ => quote s

def natural (n : Nat) : Indented := fun _ => (toString n).toList

def float (x : Float) : Indented := fun _ =>
  if x.isFinite then (DecimalStyle.layout.writeFinite x).toList else ['n', 'u', 'l', 'l']

end Json

namespace Layout
open Json

def printProperties (p : Properties) : Indented :=
  object (p.entries.map fun (key, value) => (key, string value))

def printPorts (p : PortCounts) : Indented :=
  object [("in", natural p.inputs), ("out", natural p.outputs)]

def optional {α : Type} (name : String) (print : α → Indented) (value : Option α) :
    List (String × Indented) :=
  (value.map fun a => (name, print a)).toList

def printNode (r : NodeRecord Float) : Indented :=
  object <|
    [("id", string r.id), ("type", string r.typeName), ("x", float r.x), ("y", float r.y)] ++
      optional "properties" printProperties r.properties ++
      optional "label" string r.label ++
      optional "portCounts" printPorts r.ports

def printWire (w : Wire) : Indented :=
  list [string w.source, natural w.sourcePort, string w.target, natural w.targetPort]

def print (layout : Layout Float) : String :=
  String.ofList <|
    object [("nodes", list (layout.nodes.map printNode)),
      ("connections", list (layout.wires.map printWire))] 0

def saveTo {m : Type → Type} [Monad m] [Host m] (layout : Layout Float) (path : String) : ExceptT Error m Unit :=
  fileStep (Host.writeText path layout.print)

end Layout
end FlowScript
