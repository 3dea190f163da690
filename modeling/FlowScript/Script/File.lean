import FlowScript.Layout.Printer
import FlowScript.Layout.Reader
import FlowScript.Script.Bot

namespace FlowScript
variable {m : Type → Type} [Monad m] [Host m]

namespace Bot

def save (b : Bot) (path : String) : ExceptT Error m Unit := do
  match Path.parent? path with
  | some above => fileStep (Host.makeDirectories above)
  | none => pure ()
  fileStep (Host.writeText path b.source)

def matchesFile (b : Bot) (path : String) : m Bool := do
  match ← (Host.readText path : ExceptT FileError m String) with
  | .ok text => return Sha256.hex text = b.hash
  | .error _ => return false

end Bot

namespace Script

def compileFile (o : Options) (catalog : Catalog) (path : String) : ExceptT Error m Bot := do
  let layout ← Layout.loadFrom path
  let compiled := do compile o (← layout.toGraph catalog) catalog
  match compiled with
  | .ok bot => return bot
  | .error e => throw e

def layoutExtension : String := "json"

/-- Compiles every layout below a path, in ascending order of the names that lead to them. -/
def compileBelow (o : Options) (catalog : Catalog) (path : String) :
    ExceptT Error m (List (String × Bot)) := do
  let files ← Host.sortedFilesBelow path
  let layouts := files.filter (Path.extension? · = some layoutExtension)
  layouts.mapM fun file => return (file, ← compileFile o catalog file)

end Script
end FlowScript
