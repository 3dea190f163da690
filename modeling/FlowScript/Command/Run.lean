import FlowScript.Command.Arguments
import FlowScript.Command.Creation
import FlowScript.Command.Editing
import FlowScript.Script.File

namespace FlowScript
variable {m : Type → Type} [Monad m] [Host m]

namespace Listing

def ofProperty (name value : String) : String := "    " ++ name ++ " = " ++ Text.literal value

def kindName : NodeKind → String
  | .event => "Event"
  | .action => "Action"

def ofType (t : NodeType) : List String :=
  ["  " ++ t.name ++ " [" ++ kindName t.kind ++ "]",
    "    ports: in " ++ Text.literals t.inputs ++ ", out " ++ Text.literals t.outputs] ++
  t.properties.map fun spec => ofProperty (spec.key ++ " (" ++ spec.label ++ ")") spec.initial

def ofCatalog (c : Catalog) : List String :=
  ("Node types (" ++ toString c.types.length ++ "):") :: c.types.flatMap ofType

def ofNode (n : Node Float) : List String :=
  ("  " ++ n.id ++ " " ++ n.typeName ++ " at " ++ n.position.text ++ " \"" ++ n.label ++ "\"") ::
    n.properties.entries.map fun (key, value) => ofProperty key value

def ofGraph (g : Graph Float) : List String :=
  ("Nodes (" ++ toString g.nodes.length ++ "):") :: g.nodes.flatMap ofNode ++
    ("Wires (" ++ toString g.wires.length ++ "):") :: g.wires.map fun w => "  " ++ w.text

def types (path : String) : ExceptT Failure m Unit := do
  let project ← during .loadSettings (Project.loadFrom path)
  let catalog ← during .loadCatalog project.catalog
  (ofCatalog catalog).forM say

def contents (path : String) : ExceptT Failure m Unit := do
  let workspace ← Workspace.loadFrom path
  say ("Project: " ++ workspace.project.file.name)
  (ofGraph workspace.session.graph).forM say

def validate (path : String) : ExceptT Failure m Unit := do
  say ("Validating project: " ++ path)
  let ⟨project, session⟩ ← Workspace.loadFrom path
  let graph := session.graph
  say ("✓ Project: " ++ project.file.name)
  say ("✓ Version: " ++ project.file.version)
  say ("✓ Layout: " ++ toString graph.nodes.length ++ " nodes, " ++
    toString graph.wires.length ++ " wires")
  match Diagnostic.analyze graph session.catalog with
  | .error e => throw (.error (some .analyze) e)
  | .ok found =>
      found.forM fun d => warn d.message
      if found.isEmpty then say "✓ Layout is valid"
      else say ("Layout is valid with " ++ toString found.length ++ " warning(s)")

end Listing

namespace Compilation

def digestText (b : Bot) : String := "hash: " ++ b.shortHash ++ "..."

def writeScript (b : Bot) (path : String) (force : Bool) : ExceptT Failure m Unit := do
  if !force && (← b.matchesFile path) then
    say ("✓ " ++ path ++ " is up to date (" ++ digestText b ++ ")")
  else
    during (.writeFile path) (b.save path)
    say ("✓ " ++ path ++ " (" ++ toString b.handlers ++ " handlers, " ++ toString b.size ++
      " bytes, " ++ digestText b ++ ")")

def run (path : String) (output : Option String) (debug force : Bool) : ExceptT Failure m Unit := do
  let ⟨project, session⟩ ← Workspace.loadFrom path
  say ("Compiling " ++ project.layoutPath)
  match Script.compile ⟨project.file.settings, debug⟩ session.graph session.catalog with
  | .error e => throw (.error (some .compile) e)
  | .ok bot =>
      bot.diagnostics.forM fun d => warn d.message
      writeScript bot (output.getD project.outputPath) force

end Compilation

def Command.run (project : String) : Command → ExceptT Failure m Unit
  | .create path name => Creation.run path name
  | .listTypes => Listing.types project
  | .display => Listing.contents project
  | .edit change => change.run project
  | .validate => Listing.validate project
  | .compile output debug force => Compilation.run project output debug force

def Invocation.run (i : Invocation) : ExceptT Failure m Unit := i.command.run i.project

end FlowScript
