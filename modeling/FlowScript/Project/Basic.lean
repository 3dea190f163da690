import FlowScript.Catalog.Builtin
import FlowScript.Catalog.File
import FlowScript.Geometry
import FlowScript.Script.Boilerplate

namespace FlowScript

structure ProjectFile where
  name : String
  version : String
  layout : String
  output : String
  catalog : Option String
  settings : Script.Settings
  shape : NodeShape Float
  deriving DecidableEq

/-- A project file and the directory that its paths are relative to. -/
structure Project where
  file : ProjectFile
  base : String
  deriving DecidableEq

namespace ProjectFile
open Yaml Yaml.Decode

def decodeSettings (n : Yaml.Node) : Decode Script.Settings := do
  let standard : Script.Settings := {}
  let fs ← fields ["function_prefix", "command_prefix", "token"] n
  let functionStem ← fieldOr fs "function_prefix" standard.functionStem string
  let commandMark ← fieldOr fs "command_prefix" standard.commandMark string
  let token ← fieldOr fs "token" standard.token string
  return ⟨functionStem, commandMark, token⟩

def decodeShape (n : Yaml.Node) : Decode (NodeShape Float) := do
  let standard : NodeShape Float := .standard
  let fs ← fields ["node_width", "node_height", "port_gap"] n
  let width ← fieldOr fs "node_width" standard.width float
  let height ← fieldOr fs "node_height" standard.height float
  let portGap ← fieldOr fs "port_gap" standard.portGap float
  return ⟨width, height, portGap⟩

def decode (n : Yaml.Node) : Decode ProjectFile := do
  let fs ← fields ["name", "version", "layout", "output", "catalog", "codegen", "canvas"] n
  let name ← field fs "name" string
  let version ← fieldOr fs "version" "0.1.0" string
  let layout ← fieldOr fs "layout" "layout.json" string
  let output ← fieldOr fs "output" "bot.py" string
  let catalog ← fieldOr fs "catalog" none optionalString
  let settings ← fieldOr fs "codegen" {} decodeSettings
  let shape ← fieldOr fs "canvas" .standard decodeShape
  return ⟨name, version, layout, output, catalog, settings, shape⟩

def check (p : ProjectFile) : Except SettingsFault Unit := do
  unless 0 < p.shape.width ∧ 0 < p.shape.height do throw .nodeSize
  unless p.shape.portGap.isFinite do throw .portGap
  if p.settings.functionStem.isEmpty then throw .functionStem

def parse (text : String) : Except Error ProjectFile := do
  match decode? text none decode with
  | none => .error .settingsUnreadable
  | some p => match p.check with
      | .ok () => .ok p
      | .error fault => .error (.settingsInvalid fault)

end ProjectFile

namespace Project

def fileName : String := "botwire.yaml"

def layoutPath (p : Project) : String := Path.join p.base p.file.layout

def outputPath (p : Project) : String := Path.join p.base p.file.output

variable {m : Type → Type} [Monad m] [Host m]

def locate (path : String) : m (String × String) := do
  if ← Host.isDirectory path then return (Path.join path fileName, path)
  return (path, (Path.parent? path).getD ".")

def loadFrom (path : String) : ExceptT Error m Project := do
  let (file, base) ← locate path
  unless ← Host.exists? file do throw (.settingsNotFound file)
  let text ← fileStep (Host.readText file)
  match ProjectFile.parse text with
  | .ok contents => return ⟨contents, base⟩
  | .error e => throw e

def catalog (p : Project) : ExceptT Error m Catalog :=
  match p.file.catalog with
  | some path => Catalog.loadFrom (Path.join p.base path)
  | none => return Catalog.builtin

end Project
end FlowScript
