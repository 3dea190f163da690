import FlowScript.Catalog.Basic
import FlowScript.Host.Basic
import FlowScript.Yaml.Decode

namespace FlowScript

namespace Catalog
open Yaml Yaml.Decode

def decodeProperty (n : Yaml.Node) : Decode PropertySpec := do
  let fs ← fields ["key", "label", "default"] n
  let key ← field fs "key" string
  let label ← field fs "label" string
  let initial ← fieldOr fs "default" "" string
  return ⟨key, label, initial⟩

def decodeKind : Yaml.Node → Decode NodeKind := word [("event", .event), ("action", .action)]

def decodeType (n : Yaml.Node) : Decode NodeType := do
  let fs ← fields ["name", "kind", "inputs", "outputs", "properties", "code_start", "code"] n
  let name ← field fs "name" string
  let kind ← field fs "kind" decodeKind
  let inputs ← fieldOr fs "inputs" [] (list string)
  let outputs ← fieldOr fs "outputs" [] (list string)
  let properties ← fieldOr fs "properties" [] (list decodeProperty)
  let header ← fieldOr fs "code_start" none optionalString
  let body ← fieldOr fs "code" none optionalString
  return ⟨name, kind, inputs, outputs, properties, header, body⟩

def parse (text : String) : Except Error Catalog :=
  match decode? text (some []) (list decodeType) with
  | some types => ofTypes types
  | none => .error .settingsUnreadable

variable {m : Type → Type} [Monad m] [Host m]

def loadFrom (path : String) : ExceptT Error m Catalog := do
  unless ← Host.exists? path do throw (.settingsNotFound path)
  let text ← fileStep (Host.readText path)
  match parse text with
  | .ok catalog => return catalog
  | .error e => throw e

end Catalog
end FlowScript
