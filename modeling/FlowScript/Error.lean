import FlowScript.Geometry

namespace FlowScript

inductive FileError where
  | notFound
  | exists
  | notDirectory
  | isDirectory
  | nameTooLong
  | nulInPath
  | invalidText
  | other (text : String)
  deriving DecidableEq, Repr

def FileError.message : FileError → String
  | .notFound => "No such file or directory (os error 2)"
  | .exists => "File exists (os error 17)"
  | .notDirectory => "Not a directory (os error 20)"
  | .isDirectory => "Is a directory (os error 21)"
  | .nameTooLong => "File name too long (os error 36)"
  | .nulInPath => "file name contained an unexpected NUL byte"
  | .invalidText => "stream did not contain valid UTF-8"
  | .other text => text

inductive LayoutFault where
  | malformed
  | missingField (name : String)
  | duplicateField (name : String)
  | unknownType (id typeName : String)
  | repeatedId (id : String)
  | danglingWire (id : String)
  deriving DecidableEq, Repr

inductive SettingsFault where
  | repeatedType (name : String)
  | nodeSize
  | portGap
  | functionStem
  deriving DecidableEq, Repr

inductive Error where
  | unknownType (name : String)
  | nodeNotFound (id : String)
  | duplicateNode (id : String)
  | idsExhausted (last : String)
  | unknownProperty (id key : String)
  | portOutOfRange (id : String) (side : Side) (index count : Nat)
  | corruptLayout (fault : LayoutFault)
  | settingsNotFound (path : String)
  | settingsUnreadable
  | settingsInvalid (fault : SettingsFault)
  | file (cause : FileError)
  deriving DecidableEq, Repr

def LayoutFault.detail? : LayoutFault → Option String
  | .malformed => none
  | .missingField name => some ("missing field `" ++ name ++ "`")
  | .duplicateField name => some ("duplicate field `" ++ name ++ "`")
  | .unknownType id typeName => some ("node '" ++ id ++ "' has unknown type '" ++ typeName ++ "'")
  | .repeatedId id => some ("node id '" ++ id ++ "' appears more than once")
  | .danglingWire id => some ("connection references missing node '" ++ id ++ "'")

def SettingsFault.message : SettingsFault → String
  | .repeatedType name => "node type '" ++ name ++ "' is defined more than once"
  | .nodeSize => "canvas node_width and node_height must be positive"
  | .portGap => "canvas port_gap must be a finite number"
  | .functionStem => "codegen function_prefix must not be empty"

def Error.message : Error → String
  | .unknownType name => "unknown node type: '" ++ name ++ "'"
  | .nodeNotFound id => "node not found: '" ++ id ++ "'"
  | .duplicateNode id => "node id already in use: '" ++ id ++ "'"
  | .idsExhausted last => "no node ids left to allocate after '" ++ last ++ "'"
  | .unknownProperty id key => "node '" ++ id ++ "' has no property '" ++ key ++ "'"
  | .portOutOfRange id side index count =>
      side.name ++ " port " ++ toString index ++ " is out of range for node '" ++ id ++ "' (" ++
        toString count ++ " ports)"
  | .corruptLayout fault => match fault.detail? with
      | none => "corrupt layout document"
      | some detail => "corrupt layout document: " ++ detail
  | .settingsNotFound path => "configuration file not found: " ++ path
  | .settingsUnreadable => "failed to parse configuration"
  | .settingsInvalid fault => "invalid configuration: " ++ fault.message
  | .file cause => "IO error: " ++ cause.message

/-- A computation on a state `σ` that may fail. What it did to the state before it failed stays visible. -/
abbrev Edit (σ α : Type) : Type := ExceptT Error (StateM σ) α

namespace Edit
variable {σ τ α : Type}

def outcome (e : Edit σ α) (s : σ) : Except Error α × σ := (ExceptT.run e).run s

def ask (f : σ → Except Error α) : Edit σ α := do
  match f (← get) with
  | .ok a => return a
  | .error e => throw e

def within (view : τ → σ) (put : σ → τ → τ) (e : Edit σ α) : Edit τ α :=
  ExceptT.mk fun t =>
    let (result, s) := e.outcome (view t)
    (result, put s t)

end Edit
end FlowScript
