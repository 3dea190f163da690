import FlowScript.Error

namespace FlowScript

inductive Activity where
  | loadSettings
  | loadCatalog
  | readLayout (path : String)
  | restoreLayout (path : String)
  | writeFile (path : String)
  | addNode (typeName : String)
  | analyze
  | compile
  deriving DecidableEq, Repr

def Activity.message : Activity → String
  | .loadSettings => "Failed to load configuration"
  | .loadCatalog => "Failed to load node catalog"
  | .readLayout path => "Failed to read " ++ path
  | .restoreLayout path => "Failed to load " ++ path
  | .writeFile path => "Failed to write " ++ path
  | .addNode typeName => "Failed to add '" ++ typeName ++ "' node"
  | .analyze => "Failed to analyze layout"
  | .compile => "Compilation failed"

inductive Failure where
  | error (activity : Option Activity) (cause : Error)
  | file (cause : FileError)
  | nameless
  | projectExists (path found : String)
  deriving DecidableEq, Repr

namespace Failure

/-- A failure of the file system is told twice: as a failure of the program, and by itself. -/
def causesOf : Error → List String
  | .file cause => [(Error.file cause).message, cause.message]
  | e => [e.message]

def causes : Failure → List String
  | .error activity cause => (activity.map Activity.message).toList ++ causesOf cause
  | .file cause => [cause.message]
  | .nameless => ["Could not determine project name from path"]
  | .projectExists path found => ["Directory '" ++ path ++ "' already contains a " ++ found]

end Failure

variable {m : Type → Type} [Monad m] {α : Type}

def during (activity : Activity) (x : ExceptT Error m α) : ExceptT Failure m α :=
  x.adapt (.error (some activity))

def plainly (x : ExceptT Error m α) : ExceptT Failure m α := x.adapt (.error none)

end FlowScript
