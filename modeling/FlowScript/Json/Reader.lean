import FlowScript.Error
import FlowScript.Json.Number
import FlowScript.Json.Text

namespace FlowScript.Json

abbrev Reader (α : Type) : Type := StateT (List Char) (Except LayoutFault) α

def isSpace (c : Char) : Bool := c = ' ' || c = '\n' || c = '\t' || c = '\r'

def dropSpace (cs : List Char) : List Char := cs.dropWhile isSpace

/-! ## Passing over a value -/

inductive Frame where
  | list
  | object
  deriving DecidableEq, Repr

inductive Expecting where
  | value
  | afterValue
  | first
  | name
  deriving DecidableEq, Repr

def dropWord? (word : List Char) (cs : List Char) : Option (List Char) :=
  if word.isPrefixOf cs then some (cs.drop word.length) else none

def skipName? (cs : List Char) : Option (List Char) := do
  match dropSpace (← skipString cs) with
  | ':' :: rest => some rest
  | _ => none

def skipScalar? : List Char → Option (List Char)
  | '"' :: rest => skipString rest
  | 'n' :: rest => dropWord? ['u', 'l', 'l'] rest
  | 't' :: rest => dropWord? ['r', 'u', 'e'] rest
  | 'f' :: rest => dropWord? ['a', 'l', 's', 'e'] rest
  | cs => (scanNumber? cs).map (·.2)

/-- Passes over the rest of a value, given the frames that are open, innermost first. -/
def skip : Nat → Expecting → List Frame → List Char → Option (List Char)
  | 0, _, _, _ => none
  | fuel + 1, .value, frames, cs => match dropSpace cs with
      | '[' :: rest => skip fuel .first (.list :: frames) rest
      | '{' :: rest => skip fuel .first (.object :: frames) rest
      | cs => match skipScalar? cs with
          | some rest => skip fuel .afterValue frames rest
          | none => none
  | _ + 1, .afterValue, [], cs => some cs
  | fuel + 1, .afterValue, frame :: frames, cs => match frame, dropSpace cs with
      | .list, ',' :: rest => skip fuel .value (.list :: frames) rest
      | .list, ']' :: rest => skip fuel .afterValue frames rest
      | .object, ',' :: rest => skip fuel .name (.object :: frames) rest
      | .object, '}' :: rest => skip fuel .afterValue frames rest
      | _, _ => none
  | fuel + 1, .first, frames, cs => match frames, dropSpace cs with
      | .list :: frames, ']' :: rest => skip fuel .afterValue frames rest
      | .object :: frames, '}' :: rest => skip fuel .afterValue frames rest
      | .list :: frames, cs => skip fuel .value (.list :: frames) cs
      | .object :: frames, cs => skip fuel .name (.object :: frames) cs
      | [], _ => none
  | fuel + 1, .name, frames, cs => match dropSpace cs with
      | '"' :: rest => match skipName? rest with
          | some rest => skip fuel .value frames rest
          | none => none
      | _ => none

def skipValue? (cs : List Char) : Option (List Char) := skip (2 * cs.length + 2) .value [] cs

/-! ## Readers -/

namespace Reader
variable {α β σ : Type}

def malformed : Reader α := throw .malformed

def ofFront (read : List Char → Option (α × List Char)) : Reader α := do
  match read (dropSpace (← get)) with
  | some (a, rest) => set rest; return a
  | none => malformed

def peek : Reader Char := do
  match dropSpace (← get) with
  | c :: rest => set (c :: rest); return c
  | [] => malformed

def expect (c : Char) : Reader Unit :=
  ofFront fun
    | d :: rest => if c = d then some ((), rest) else none
    | [] => none

def string : Reader String :=
  ofFront fun
    | '"' :: rest => (unescape rest).map fun (s, after) => (String.ofList s, after)
    | _ => none

def float : Reader Float :=
  ofFront fun cs => do
    let (text, rest) ← scanNumber? cs
    return (← text.toFloat?, rest)

def word : Reader Nat :=
  ofFront fun cs => do
    let (text, rest) ← scanNumber? cs
    return (← text.toWord?, rest)

def nullable (read : Reader α) : Reader (Option α) := do
  if (← peek) = 'n' then
    ofFront fun cs => (dropWord? ['n', 'u', 'l', 'l'] cs).map fun rest => (none, rest)
  else return some (← read)

def skipped : Reader Unit := ofFront fun cs => (skipValue? cs).map fun rest => ((), rest)

def field (read : Reader α) : Reader α := do
  expect ':'
  read

def item? (first : Bool) (read : Reader α) : Reader (Option α) := do
  if (← peek) = ']' then return none
  unless first do expect ','
  return some (← read)

def item (first : Bool) (read : Reader α) : Reader α := do
  match ← item? first read with
  | some a => return a
  | none => malformed

def itemsOnto (read : Reader α) : Nat → List α → Reader (List α)
  | 0, _ => malformed
  | fuel + 1, earlier => do
      match ← item? earlier.isEmpty read with
      | some a => itemsOnto read fuel (a :: earlier)
      | none =>
          expect ']'
          return earlier.reverse

def list (read : Reader α) : Reader (List α) := do
  expect '['
  itemsOnto read ((← get).length + 1) []

def fieldsInto (take : σ → String → Reader σ) : Nat → Bool → σ → Reader σ
  | 0, _, _ => malformed
  | fuel + 1, first, s => do
      if (← peek) = '}' then return s
      unless first do expect ','
      let name ← string
      fieldsInto take fuel false (← take s name)

def object (take : σ → String → Reader σ) (start : σ) (finish : σ → Except LayoutFault α) :
    Reader α := do
  expect '{'
  let s ← fieldsInto take ((← get).length + 1) true start
  let a ← finish s
  expect '}'
  return a

def once (name : String) (earlier : Option α) : Reader Unit :=
  if earlier.isSome then throw (.duplicateField name) else return ()

def record (asObject asList : Reader α) : Reader α := do
  if (← peek) = '[' then
    expect '['
    let a ← asList
    expect ']'
    return a
  else asObject

def whole (read : Reader α) (cs : List Char) : Except LayoutFault α := do
  let (a, rest) ← read.run cs
  if (dropSpace rest).isEmpty then .ok a else .error .malformed

end Reader

def require {α : Type} (name : String) : Option α → Except LayoutFault α
  | some a => .ok a
  | none => .error (.missingField name)

end FlowScript.Json
