import FlowScript.Command.Basic
import FlowScript.Decimal.Reader

namespace FlowScript

namespace Arguments

structure OptionSpec where
  name : String
  letter : Option Char := none
  takesValue : Bool := true
  isNumber : Bool := false

structure Spec where
  options : List OptionSpec
  positionals : List Bool

structure Given where
  options : List (String × String)
  positionals : List String

namespace Given

def none : Given := ⟨[], []⟩

def option? (g : Given) (o : OptionSpec) (value : String) : Option Given :=
  if (g.options.lookup o.name).isSome then .none
  else some { g with options := (o.name, value) :: g.options }

def positional? (g : Given) (spec : Spec) (value : String) : Option Given :=
  if g.positionals.length < spec.positionals.length then
    some { g with positionals := value :: g.positionals }
  else .none

end Given

/-! ## Telling options from values -/

def isNumberFrom (first sawPoint sawExponent : Bool) : List Char → Bool
  | [] => true
  | c :: rest =>
      if c.isDigit then isNumberFrom false sawPoint sawExponent rest
      else if c = '.' && !first && !sawPoint && !sawExponent then
        isNumberFrom false true sawExponent rest
      else if c = 'e' && !first && !sawExponent && !rest.isEmpty then
        isNumberFrom false sawPoint true rest
      else false

def isNumber (cs : List Char) : Bool := isNumberFrom true false false cs

def nextIsNumber (spec : Spec) (g : Given) : Bool :=
  (spec.positionals[g.positionals.length]?).getD false

def long? (spec : Spec) (g : Given) (cs : List Char) : Option (Given × Option OptionSpec) := do
  let name := cs.takeWhile (· ≠ '=')
  let o ← spec.options.find? (·.name = String.ofList name)
  match cs.drop name.length with
  | _ :: value =>
      if o.takesValue then return (← g.option? o (String.ofList value), none) else none
  | [] => if o.takesValue then return (g, some o) else return (← g.option? o "", none)

def short? (spec : Spec) (g : Given) : List Char → Option (Given × Option OptionSpec)
  | [] => some (g, none)
  | c :: rest => do
      let o ← spec.options.find? (·.letter = some c)
      if o.takesValue then
        match rest with
        | [] => return (g, some o)
        | '=' :: value => return (← g.option? o (String.ofList value), none)
        | value => return (← g.option? o (String.ofList value), none)
      else short? spec (← g.option? o "") rest

/-! ## Reading arguments -/

/-- Reads arguments up to the first that is the name of a subcommand. `awaiting` is the option whose value
comes next; `onlyValues` is set behind `--`. -/
def scan (spec : Spec) (isSubcommand : String → Bool) (g : Given) (awaiting : Option OptionSpec)
    (onlyValues : Bool) : List String → Option (Given × List String)
  | [] => if awaiting.isNone then some (g, []) else none
  | arg :: rest =>
      if onlyValues then
        match g.positional? spec arg with
        | some g => scan spec isSubcommand g none true rest
        | none => none
      else match awaiting, arg.toList with
        | some o, '-' :: c :: cs =>
            if o.isNumber && isNumber (c :: cs) then
              match g.option? o arg with
              | some g => scan spec isSubcommand g none false rest
              | none => none
            else none
        | some o, _ => match g.option? o arg with
            | some g => scan spec isSubcommand g none false rest
            | none => none
        | none, ['-', '-'] => scan spec isSubcommand g none true rest
        | none, '-' :: '-' :: cs => match long? spec g cs with
            | some (g, awaiting) => scan spec isSubcommand g awaiting false rest
            | none => none
        | none, '-' :: c :: cs =>
            if nextIsNumber spec g && isNumber (c :: cs) then
              match g.positional? spec arg with
              | some g => scan spec isSubcommand g none false rest
              | none => none
            else match short? spec g (c :: cs) with
              | some (g, awaiting) => scan spec isSubcommand g awaiting false rest
              | none => none
        | none, _ =>
            if isSubcommand arg then some (g, arg :: rest)
            else match g.positional? spec arg with
              | some g => scan spec isSubcommand g none false rest
              | none => none

def values? (spec : Spec) (args : List String) : Option (List (String × String) × List String) := do
  let (g, _) ← scan spec (fun _ => false) .none none false args
  return (g.options, g.positionals.reverse)

/-! ## Values -/

def port? (s : String) : Option Nat :=
  let ds := match s.toList with
    | '+' :: rest => rest
    | cs => cs
  if ds.isEmpty || !ds.all Char.isDigit then none
  else
    let n := Digits.toNat ds
    if n < UInt64.size then some n else none

def coordinate? (s : String) : Option Float := Decimal.readFloat? s.toList

def valueOr {α : Type} (options : List (String × String)) (name : String) (other : α)
    (read : String → Option α) : Option α :=
  match options.lookup name with
  | some s => read s
  | none => some other

def isGiven (options : List (String × String)) (name : String) : Bool := (options.lookup name).isSome

/-! ## Commands -/

def portOptions : List OptionSpec := [{ name := "from-port" }, { name := "to-port" }]

def nodeEdit? : List String → Option LayoutEdit
  | "add" :: args => do
      let (options, values) ← values?
        ⟨[{ name := "x", isNumber := true }, { name := "y", isNumber := true }, { name := "id" }],
          [false]⟩ args
      let x ← valueOr options "x" 0 coordinate?
      let y ← valueOr options "y" 0 coordinate?
      match values with
      | [typeName] => return .addNode typeName ⟨x, y⟩ (options.lookup "id")
      | _ => none
  | "move" :: args => do
      match (← values? ⟨[], [false, true, true]⟩ args).2 with
      | [id, x, y] => return .moveNode id ⟨← coordinate? x, ← coordinate? y⟩
      | _ => none
  | "set" :: args => do
      match (← values? ⟨[], [false, false, false]⟩ args).2 with
      | [id, key, value] => return .setProperty id key value
      | _ => none
  | "rename" :: args => do
      match (← values? ⟨[], [false, false]⟩ args).2 with
      | [id, label] => return .renameNode id label
      | _ => none
  | "delete" :: args => do
      match (← values? ⟨[], [false]⟩ args).2 with
      | [id] => return .deleteNode id
      | _ => none
  | _ => none

def bare? (command : Command) (args : List String) : Option Command := do
  let _ ← values? ⟨[], []⟩ args
  return command

def command? : List String → Option Command
  | "init" :: args => do
      let (options, values) ← values? ⟨[{ name := "name", letter := some 'n' }], [false]⟩ args
      return .create (values.headD ".") (options.lookup "name")
  | "catalog" :: args => bare? .listTypes args
  | "show" :: args => bare? .display args
  | "node" :: args => (nodeEdit? args).map .edit
  | "connect" :: args => do
      let (options, values) ← values? ⟨portOptions, [false, false]⟩ args
      let fromPort ← valueOr options "from-port" 0 port?
      let toPort ← valueOr options "to-port" 0 port?
      match values with
      | [source, target] => return .edit (.connect ⟨source, fromPort, target, toPort⟩)
      | _ => none
  | "disconnect" :: args => do
      let (options, values) ← values? ⟨portOptions, [false, false]⟩ args
      let fromPort ← valueOr options "from-port" 0 port?
      let toPort ← valueOr options "to-port" 0 port?
      match values with
      | [source] => return .edit (.disconnectAll source)
      | [source, target] => return .edit (.disconnect ⟨source, fromPort, target, toPort⟩)
      | _ => none
  | "clear" :: args => bare? (.edit .clear) args
  | "validate" :: args => bare? .validate args
  | "compile" :: args => do
      let (options, _) ← values?
        ⟨[{ name := "output", letter := some 'o' }, { name := "debug", takesValue := false },
          { name := "force", takesValue := false }], []⟩ args
      return .compile (options.lookup "output") (isGiven options "debug") (isGiven options "force")
  | _ => none

def commandNames : List String :=
  ["init", "catalog", "show", "node", "connect", "disconnect", "clear", "validate", "compile"]

def generalSpec : Spec where
  options := [{ name := "config", letter := some 'c' },
    { name := "verbose", letter := some 'v', takesValue := false }]
  positionals := []

def standardProject : String := "botwire.yaml"

def parse? (args : List String) : Option Invocation := do
  let (g, args) ← scan generalSpec commandNames.contains .none none false args
  return ⟨(g.options.lookup "config").getD standardProject, ← command? args⟩

end Arguments
end FlowScript
