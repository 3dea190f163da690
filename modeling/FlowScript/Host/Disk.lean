import FlowScript.Host.Basic

namespace FlowScript

abbrev Location : Type := List String

inductive DiskEntry where
  | file (bytes : ByteArray)
  | directory

def DiskEntry.kind : DiskEntry → EntryKind
  | .file _ => .file
  | .directory => .directory

/-- What is stored, and the working directory. The root is a directory without an entry. -/
structure Disk where
  entries : List (Location × DiskEntry)
  working : Location

namespace Disk

def lookup (d : Disk) (place : Location) : Option DiskEntry :=
  if place = [] then some .directory else d.entries.lookup place

def put (d : Disk) (place : Location) (entry : DiskEntry) : Disk :=
  { d with entries := d.entries.filter (·.1 ≠ place) ++ [(place, entry)] }

def longestName : Nat := 255

def enter (d : Disk) (place : Location) (name : String) : Except FileError Location :=
  match d.lookup place with
  | none => .error .notFound
  | some (.file _) => .error .notDirectory
  | some .directory =>
      if name = "." then .ok place
      else if name = ".." then .ok place.dropLast
      else if longestName < name.utf8ByteSize then .error .nameTooLong
      else .ok (place ++ [name])

def namesOf (path : String) : List String :=
  let parts := (path.toList.splitOn '/').map String.ofList
  parts.filter (· ≠ "") ++ (if parts.getLast? = some "" then ["."] else [])

def resolve (d : Disk) (path : String) : Except FileError Location :=
  if path.isEmpty then .error .notFound
  else if path.toList.contains (Char.ofNat 0) then .error .nulInPath
  else (namesOf path).foldlM d.enter (if Path.isAbsolute path then [] else d.working)

def find (d : Disk) (path : String) : Except FileError (Location × DiskEntry) := do
  let place ← d.resolve path
  match d.lookup place with
  | some entry => .ok (place, entry)
  | none => .error .notFound

def kind? (d : Disk) (path : String) : Option EntryKind :=
  (d.find path).toOption.map fun found => found.2.kind

def read (d : Disk) (path : String) : Except FileError ByteArray := do
  match (← d.find path).2 with
  | .file bytes => .ok bytes
  | .directory => .error .isDirectory

def endsInSeparator (path : String) : Bool := path.toList.getLast? = some '/'

def withoutSeparators (path : String) : String :=
  String.ofList (path.toList.reverse.dropWhile (· = '/')).reverse

def write (d : Disk) (path : String) (bytes : ByteArray) : Except FileError Disk := do
  if endsInSeparator path then
    discard <| d.resolve (withoutSeparators path)
    .error .isDirectory
  else
    let place ← d.resolve path
    match d.lookup place with
    | some .directory => .error .isDirectory
    | _ => .ok (d.put place (.file bytes))

def makeDirectory (d : Disk) (path : String) : Except FileError Disk := do
  let bare := withoutSeparators path
  if bare.isEmpty then .error (if path.isEmpty then .notFound else .exists)
  else
    let place ← d.resolve bare
    match d.lookup place with
    | some _ => .error .exists
    | none => .ok (d.put place .directory)

def pathOf (place : Location) : String := "/" ++ "/".intercalate place

def canonical (d : Disk) (path : String) : Except FileError String := do
  return pathOf (← d.find path).1

def below? (above place : Location) : Option Location :=
  if above.isPrefixOf place then some (place.drop above.length) else none

def filesBelow (d : Disk) (path : String) : List Location :=
  match d.find path with
  | .error _ => []
  | .ok (above, _) => d.entries.filterMap fun (place, entry) => match entry with
      | .file _ => below? above place
      | .directory => none

def makePlaces (d : Disk) (place : Location) : Disk :=
  (List.range place.length).foldl
    (fun d n =>
      let above := place.take (n + 1)
      if (d.lookup above).isSome then d else d.put above .directory)
    d

end Disk

structure World where
  disk : Disk
  log : List (LogLevel × String)

namespace World

def change (f : Disk → Except FileError Disk) : StateM World (Except FileError Unit) := do
  match f (← get).disk with
  | .ok disk =>
      modify fun w => { w with disk }
      return .ok ()
  | .error e => return .error e

instance : Host (StateM World) where
  kind? path := return (← get).disk.kind? path
  read path := return (← get).disk.read path
  write path bytes := change (·.write path bytes)
  makeDirectory path := change (·.makeDirectory path)
  canonical path := return (← get).disk.canonical path
  filesBelow path := return (← get).disk.filesBelow path
  log level message := modify fun w => { w with log := w.log ++ [(level, message)] }

end World
end FlowScript
