import FlowScript.Command.Workspace

namespace FlowScript

def ProjectFile.initialText (name : String) : String :=
  "# Botwire Project Configuration\n" ++
  "name: " ++ name ++ "\n" ++
  "version: \"0.1.0\"\n\n" ++
  "# Layout document edited by the canvas and the node commands\n" ++
  "layout: layout.json\n\n" ++
  "# Compiled bot script\n" ++
  "output: bot.py\n\n" ++
  "codegen:\n" ++
  "  function_prefix: cmd_\n" ++
  "  command_prefix: \"!\"\n" ++
  "  token: YOUR_TOKEN_HERE\n\n" ++
  "canvas:\n" ++
  "  node_width: 140\n" ++
  "  node_height: 60\n" ++
  "  port_gap: 6\n"

namespace Creation

def sampleSteps : Edit (Graph Float) Unit := do
  let command ← Graph.addNode Catalog.builtin "Command" ⟨40, 40⟩ none
  let answer ← Graph.addNode Catalog.builtin "Send Message" ⟨260, 40⟩ none
  discard <| Graph.connect ⟨command, 0, answer, 0⟩

def sampleLayout : Layout Float := Layout.ofGraph (sampleSteps.outcome Graph.empty).2

def ignored : String :=
  "# Compiled bot script\nbot.py\n\n# IDE\n.idea/\n.vscode/\n*.swp\n"

variable {m : Type → Type} [Monad m] [Host m]

def fileWork {α : Type} (x : ExceptT FileError m α) : ExceptT Failure m α := x.adapt .file

def nameFor (absolute : String) (name : Option String) : ExceptT Failure m String :=
  match name <|> Path.fileName? absolute with
  | some name => return name
  | none => throw .nameless

def writeFiles (path name : String) : ExceptT Failure m Unit := do
  fileWork (Host.writeText (Path.join path Project.fileName) (ProjectFile.initialText name))
  plainly (sampleLayout.saveTo (Path.join path "layout.json"))
  fileWork (Host.writeText (Path.join path ".gitignore") ignored)

def run (path : String) (name : Option String) : ExceptT Failure m Unit := do
  unless ← Host.exists? path do fileWork (Host.makeDirectories path)
  let absolute ← fileWork (ExceptT.mk (Host.canonical path))
  let name ← nameFor absolute name
  if ← Host.exists? (Path.join path Project.fileName) then
    throw (.projectExists path Project.fileName)
  say ("Creating new Botwire project: " ++ name)
  writeFiles path name
  say ("✓ Created project '" ++ name ++ "' at " ++ absolute)
  say ""
  say "Next steps:"
  if path ≠ "." then say ("  cd " ++ path)
  say "  botwire show        # Inspect the layout"
  say "  botwire compile     # Write bot.py"

end Creation
end FlowScript
