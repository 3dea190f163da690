import FlowScript.Error
import FlowScript.Host.Path

namespace FlowScript

inductive EntryKind where
  | file
  | directory
  deriving DecidableEq, Repr

inductive LogLevel where
  | info
  | warning
  deriving DecidableEq, Repr

/-- Files, directories and a log. Paths are relative to the working directory. `filesBelow` gives the list of
names that leads to each file below a path, in any order; a path to a file has that file below it, with no
names. -/
class Host (m : Type → Type) where
  kind? : String → m (Option EntryKind)
  read : String → m (Except FileError ByteArray)
  write : String → ByteArray → m (Except FileError Unit)
  makeDirectory : String → m (Except FileError Unit)
  canonical : String → m (Except FileError String)
  filesBelow : String → m (List (List String))
  log : LogLevel → String → m Unit

namespace Host
variable {m : Type → Type} [Monad m] [Host m]

instance {ε : Type} : Host (ExceptT ε m) where
  kind? path := ExceptT.lift (kind? path)
  read path := ExceptT.lift (read path)
  write path bytes := ExceptT.lift (write path bytes)
  makeDirectory path := ExceptT.lift (makeDirectory path)
  canonical path := ExceptT.lift (canonical path)
  filesBelow path := ExceptT.lift (filesBelow path)
  log level message := ExceptT.lift (log level message)

def exists? (path : String) : m Bool := return (← kind? path).isSome

def isDirectory (path : String) : m Bool := return (← kind? path) = some .directory

def readText (path : String) : ExceptT FileError m String := do
  match String.fromUTF8? (← ExceptT.mk (read path)) with
  | some text => return text
  | none => throw .invalidText

def writeText (path text : String) : ExceptT FileError m Unit :=
  ExceptT.mk (write path text.toUTF8)

def ensureDirectory (path : String) : ExceptT FileError m Unit := do
  match ← makeDirectory path with
  | .ok () => return ()
  | .error e => if ← isDirectory path then return () else throw e

def makeDirectoriesWithin : Nat → String → ExceptT FileError m Unit
  | 0, _ => throw .notFound
  | fuel + 1, path => do
      if path.isEmpty then return ()
      match ← ExceptT.lift (makeDirectory path) with
      | .ok () => return ()
      | .error .notFound =>
          match Path.parent? path with
          | some above =>
              makeDirectoriesWithin fuel above
              ensureDirectory path
          | none => throw .notFound
      | .error e => if ← isDirectory path then return () else throw e

def makeDirectories (path : String) : ExceptT FileError m Unit :=
  makeDirectoriesWithin (path.length + 1) path

def sortedFilesBelow (path : String) : m (List String) := do
  let files ← filesBelow path
  return (files.mergeSort Path.noLater).map (·.foldl Path.join path)

end Host

def fileStep {m : Type → Type} [Monad m] {α : Type} (x : ExceptT FileError m α) : ExceptT Error m α :=
  x.adapt Error.file

end FlowScript
