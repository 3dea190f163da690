import FlowScript.Decimal.Reader
import FlowScript.Yaml.Node

namespace FlowScript.Yaml

abbrev Decode (α : Type) : Type := ReaderT Document (StateT Nat Option) α

namespace Decode
variable {α : Type}

def fail : Decode α := failure

def aliasesPerEvent : Nat := 100

def follow (n : Node) : Decode Node := do
  match n with
  | .alias anchor =>
      let followed := (← get) + 1
      set followed
      if aliasesPerEvent * (← read).events < followed then fail
      match (← read).anchored.lookup anchor with
      | some n => return n
      | none => fail
  | n => return n

def string (n : Node) : Decode String := do
  match ← follow n with
  | .scalar s => return s.value
  | _ => fail

def isNull (text : String) : Bool := text = "null" || text = "Null" || text = "NULL" || text = "~"

def nullTag : String := "tag:yaml.org,2002:null"

/-- A text, or nothing where a plain scalar is empty or says `null`; a tag makes it a text, but that of
null. -/
def optionalString (n : Node) : Decode (Option String) := do
  match ← follow n with
  | .scalar s =>
      if !s.isPlain then return some s.value
      match s.tag with
      | some tag =>
          if tag = nullTag then
            if isNull s.value then return none else fail
          else return some s.value
      | none => return if s.value.isEmpty || isNull s.value then none else some s.value
  | _ => fail

def floatOf? (text : String) : Option Float :=
  let cs := text.toList
  let unsigned := match cs with
    | '+' :: rest => rest
    | _ => cs
  if cs.head? = some '+' && unsigned.head?.any (fun c => c = '+' || c = '-') then none
  else if [".inf", ".Inf", ".INF"].contains (String.ofList unsigned) then some (1 / 0)
  else if ["-.inf", "-.Inf", "-.INF"].contains text then some (-1 / 0)
  else if [".nan", ".NaN", ".NAN"].contains text then some (0 / 0)
  else (Decimal.readFloat? unsigned).filter Float.isFinite

def float (n : Node) : Decode Float := do
  match ← follow n with
  | .scalar s =>
      if !s.isPlain then fail
      match floatOf? s.value with
      | some x => return x
      | none => fail
  | _ => fail

def isEmptyPlain (s : Scalar) : Bool := s.isPlain && s.value.isEmpty

def list (item : Node → Decode α) (n : Node) : Decode (List α) := do
  match ← follow n with
  | .sequence items => items.mapM item
  | .scalar s => if isEmptyPlain s then return [] else fail
  | _ => fail

def knownFields (known : List String) : List (Node × Node) → Decode (List (String × Node))
  | [] => return []
  | (k, v) :: rest => do
      let name ← string k
      let later ← knownFields known rest
      if known.contains name then
        if (later.lookup name).isSome then fail
        return (name, v) :: later
      return later

def fields (known : List String) (n : Node) : Decode (List (String × Node)) := do
  match ← follow n with
  | .mapping entries => knownFields known entries
  | .scalar s => if isEmptyPlain s then return [] else fail
  | _ => fail

def field (fs : List (String × Node)) (name : String) (read : Node → Decode α) : Decode α := do
  match fs.lookup name with
  | some n => read n
  | none => fail

def fieldOr (fs : List (String × Node)) (name : String) (other : α) (read : Node → Decode α) :
    Decode α := do
  match fs.lookup name with
  | some n => read n
  | none => return other

def word (words : List (String × α)) (n : Node) : Decode α := do
  let find (name : String) : Decode α := match words.lookup name with
    | some a => return a
    | none => fail
  match ← follow n with
  | .scalar s =>
      match s.tag.map String.toList with
      | some ('!' :: name) =>
          if s.isPlain && (s.value.isEmpty || isNull s.value) then find (String.ofList name) else fail
      | _ => find s.value
  | _ => fail

end Decode

def decode? {α : Type} (text : String) (absent : Option α) (read : Node → Decode α) : Option α := do
  match ← Document.parse? text with
  | some d => ((read d.root).run d).run' 0
  | none => absent

end FlowScript.Yaml
