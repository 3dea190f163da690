import FlowScript.Command.Failure
import FlowScript.Layout.Printer
import FlowScript.Layout.Reader
import FlowScript.Project.Basic
import FlowScript.Session
import FlowScript.Text.Literal

namespace FlowScript

structure Workspace where
  project : Project
  session : Session Float
  deriving DecidableEq

variable {m : Type → Type} [Monad m] [Host m]

def say (message : String) : ExceptT Failure m Unit := Host.log .info (Text.tame message)

def warn (message : String) : ExceptT Failure m Unit := Host.log .warning (Text.tame message)

namespace Workspace

def loadLayout (path : String) (s : Session Float) : ExceptT Failure m (Session Float) := do
  unless ← Host.exists? path do return s
  let layout ← during (.readLayout path) (Layout.loadFrom path)
  match (Session.load layout).outcome s with
  | (.ok (), s) => return s
  | (.error e, _) => throw (.error (some (.restoreLayout path)) e)

def loadFrom (path : String) : ExceptT Failure m Workspace := do
  let project ← during .loadSettings (Project.loadFrom path)
  let catalog ← during .loadCatalog project.catalog
  let session ← loadLayout project.layoutPath (Session.new catalog project.file.shape)
  return ⟨project, session⟩

def save (w : Workspace) : ExceptT Failure m Unit :=
  during (.writeFile w.project.layoutPath)
    ((Layout.ofGraph w.session.graph).saveTo w.project.layoutPath)

end Workspace
end FlowScript
