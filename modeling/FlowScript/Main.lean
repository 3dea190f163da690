import FlowScript.Command.Run

namespace FlowScript.Machine

def fileError : IO.Error → FileError
  | .noFileOrDirectory .. => .notFound
  | .alreadyExists .. => .exists
  | .inappropriateType _ 20 _ => .notDirectory
  | .inappropriateType _ 21 _ => .isDirectory
  | e => .other (toString e)

def attempt {α : Type} (action : IO α) : IO (Except FileError α) := do
  try return .ok (← action)
  catch e => return .error (fileError e)

def kind? (path : String) : IO (Option EntryKind) := do
  try
    let place ← IO.FS.realPath path
    return some (if ← place.isDir then .directory else .file)
  catch _ => return none

partial def filesBelow (path : String) : IO (List (List String)) := do
  try
    let entries ← (← IO.FS.realPath path).readDir
    let found ← entries.toList.mapM fun entry => do
      let below ← match (← entry.path.symlinkMetadata).type with
        | .file => pure [[]]
        | .dir => filesBelow (Path.join path entry.fileName)
        | _ => pure []
      return below.map (entry.fileName :: ·)
    return found.flatten
  catch _ => return []

def levelName : LogLevel → String
  | .info => " INFO"
  | .warning => " WARN"

instance : Host IO where
  kind? := kind?
  read path := attempt (IO.FS.readBinFile path)
  write path bytes := attempt (IO.FS.writeBinFile path bytes)
  makeDirectory path := attempt (IO.FS.createDir path)
  canonical path := attempt (return (← IO.FS.realPath path).toString)
  filesBelow path := do
    if (← kind? path) = some .file then return [[]]
    filesBelow path
  log level message := IO.println (levelName level ++ " " ++ message)

def failureLines : List String → List String
  | [] => []
  | [cause] => ["Error: " ++ cause]
  | [cause, inner] => ["Error: " ++ cause, "", "Caused by:", "    " ++ inner]
  | cause :: inner => ["Error: " ++ cause, "", "Caused by:"] ++
      inner.mapIdx fun index text => "    " ++ toString index ++ ": " ++ text

def usage : String := "usage: botwire [-c PROJECT] [-v] COMMAND [ARGUMENTS]"

end FlowScript.Machine

open FlowScript in
def main (args : List String) : IO UInt32 := do
  match Arguments.parse? args with
  | none =>
      IO.eprintln Machine.usage
      return 2
  | some invocation =>
      let run : IO (Except Failure Unit) := ExceptT.run invocation.run
      match ← run with
      | .ok () => return 0
      | .error failure =>
          (Machine.failureLines failure.causes).forM fun line => IO.eprintln line
          return 1
