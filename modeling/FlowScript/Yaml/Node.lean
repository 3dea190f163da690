import FlowScript.Yaml.Token

namespace FlowScript.Yaml

structure Scalar where
  value : String
  isPlain : Bool
  tag : Option String
  deriving DecidableEq, Repr

inductive Node where
  | scalar (s : Scalar)
  | sequence (items : List Node)
  | mapping (entries : List (Node × Node))
  | alias (anchor : Nat)

structure Document where
  root : Node
  anchored : List (Nat × Node)
  events : Nat

/-- What is still to be read, what the handles of `%TAG` directives stand for, the number of the latest anchor
of each name, and the anchored nodes with their numbers and with how many anchors were put before them. -/
structure Parser where
  tokens : List Token
  handles : List (String × String)
  anchors : List (String × Nat)
  anchored : List (Nat × Nat × Node)
  placed : Nat
  events : Nat

abbrev Parse (α : Type) : Type := StateT Parser Option α

namespace Parse
variable {α : Type}

def fail : Parse α := fun _ => none

def peek : Parse (Option Token) := return (← get).tokens.head?

def skip : Parse Unit := modify fun p => { p with tokens := p.tokens.drop 1 }

def countEvents (n : Nat) : Parse Unit := modify fun p => { p with events := p.events + n }

/-! ## Node properties -/

/-- Numbers a new anchor by how many names there are; a name used again gets a number of its own, which
the next new name may get as well. -/
def placeAnchor (name : String) : Parse (Nat × Nat) := do
  let p ← get
  let number := p.anchors.length
  set { p with
    anchors := (name, number) :: p.anchors.filter (·.1 ≠ name)
    placed := p.placed + 1 }
  return (number, p.placed)

def resolveTag (name : TagName) : Parse String := do
  if name.handle.isEmpty then return name.suffix
  match (← get).handles.lookup name.handle with
  | some stem => return stem ++ name.suffix
  | none => fail

def anchor? : Parse (Option String) := do
  match ← peek with
  | some (.anchor name) => skip; return some name
  | _ => return none

def tag? : Parse (Option String) := do
  match ← peek with
  | some (.tag name) => skip; return some (← resolveTag name)
  | _ => return none

def properties : Parse (Option String × Option String) := do
  match ← anchor? with
  | some anchor => return (some anchor, ← tag?)
  | none =>
      let tag ← tag?
      return (← if tag.isSome then anchor? else pure none, tag)

/-! ## Nodes -/

def emptyNode : Parse Node := do
  countEvents 1
  return .scalar ⟨"", true, none⟩

def scalarTag (tag : Option String) : Option String := if tag = some "!" then none else tag

def nextIs (among : Token → Bool) : Parse Bool := return (← peek).all among

def endsBlockEntry : Token → Bool
  | .blockEntry | .blockEnd => true
  | _ => false

def endsBareEntry : Token → Bool
  | .blockEntry | .key | .value | .blockEnd => true
  | _ => false

def endsBlockField : Token → Bool
  | .key | .value | .blockEnd => true
  | _ => false

def endsPairKey : Token → Bool
  | .value | .flowEntry | .flowSequenceEnd => true
  | _ => false

def endsPairValue : Token → Bool
  | .flowEntry | .flowSequenceEnd => true
  | _ => false

def endsFlowKey : Token → Bool
  | .value | .flowEntry | .flowMappingEnd => true
  | _ => false

def endsFlowValue : Token → Bool
  | .flowEntry | .flowMappingEnd => true
  | _ => false

/-- How a node may be written where it stands: only in flow style; also as a block; also as a block
sequence that is not indented. -/
inductive Style where
  | flow
  | block
  | bare
  deriving DecidableEq, Repr

mutual

def node : Nat → Style → Parse Node
  | 0, _ => fail
  | fuel + 1, style => do
      match ← peek with
      | some (.alias name) =>
          skip
          match (← get).anchors.lookup name with
          | some number =>
              countEvents 1
              return .alias number
          | none => fail
      | _ =>
          let (anchor, tag) ← properties
          let place ← anchor.mapM placeAnchor
          let n ← content fuel style (anchor.isSome || tag.isSome) tag
          if let some (number, order) := place then
            modify fun p => { p with anchored := (number, order, n) :: p.anchored }
          return n

def content : Nat → Style → Bool → Option String → Parse Node
  | 0, _, _, _ => fail
  | fuel + 1, style, hasProperties, tag => do
      match ← peek, style with
      | some .blockEntry, .bare =>
          countEvents 2
          return .sequence (← bareEntries fuel)
      | some (.scalar s), _ =>
          skip
          countEvents 1
          return .scalar ⟨s.value, s.isPlain, scalarTag tag⟩
      | some .flowSequenceStart, _ =>
          skip
          countEvents 2
          return .sequence (← flowItems fuel true)
      | some .flowMappingStart, _ =>
          skip
          countEvents 2
          return .mapping (← flowFields fuel true)
      | some .blockSequenceStart, .block | some .blockSequenceStart, .bare =>
          skip
          countEvents 2
          return .sequence (← blockEntries fuel)
      | some .blockMappingStart, .block | some .blockMappingStart, .bare =>
          skip
          countEvents 2
          return .mapping (← blockFields fuel)
      | _, _ =>
          if hasProperties then
            countEvents 1
            return .scalar ⟨"", true, tag⟩
          else fail

def blockEntries : Nat → Parse (List Node)
  | 0 => fail
  | fuel + 1 => do
      match ← peek with
      | some .blockEntry =>
          skip
          let n ← if ← nextIs endsBlockEntry then emptyNode else node fuel .block
          return n :: (← blockEntries fuel)
      | some .blockEnd => skip; return []
      | _ => fail

def bareEntries : Nat → Parse (List Node)
  | 0 => fail
  | fuel + 1 => do
      match ← peek with
      | some .blockEntry =>
          skip
          let n ← if ← nextIs endsBareEntry then emptyNode else node fuel .block
          return n :: (← bareEntries fuel)
      | _ => return []

def blockValue : Nat → Parse Node
  | 0 => fail
  | fuel + 1 => do
      match ← peek with
      | some .value =>
          skip
          if ← nextIs endsBlockField then emptyNode else node fuel .bare
      | _ => emptyNode

def blockFields : Nat → Parse (List (Node × Node))
  | 0 => fail
  | fuel + 1 => do
      match ← peek with
      | some .key =>
          skip
          let k ← if ← nextIs endsBlockField then emptyNode else node fuel .bare
          let v ← blockValue fuel
          return (k, v) :: (← blockFields fuel)
      | some .blockEnd => skip; return []
      | _ => fail

def flowPair : Nat → Parse Node
  | 0 => fail
  | fuel + 1 => do
      countEvents 2
      let k ←
        if ← nextIs endsPairKey then
          skip
          emptyNode
        else node fuel .flow
      let v ← match ← peek with
        | some .value =>
            skip
            if ← nextIs endsPairValue then emptyNode else node fuel .flow
        | _ => emptyNode
      return .mapping [(k, v)]

def flowItems : Nat → Bool → Parse (List Node)
  | 0, _ => fail
  | fuel + 1, first => do
      if (← peek) = some .flowSequenceEnd then
        skip
        return []
      unless first do
        if (← peek) = some .flowEntry then skip else fail
      match ← peek with
      | some .key =>
          skip
          let n ← flowPair fuel
          return n :: (← flowItems fuel false)
      | some .flowSequenceEnd => skip; return []
      | _ =>
          let n ← node fuel .flow
          return n :: (← flowItems fuel false)

def flowValue : Nat → Parse Node
  | 0 => fail
  | fuel + 1 => do
      match ← peek with
      | some .value =>
          skip
          if ← nextIs endsFlowValue then emptyNode else node fuel .flow
      | _ => emptyNode

def flowFields : Nat → Bool → Parse (List (Node × Node))
  | 0, _ => fail
  | fuel + 1, first => do
      if (← peek) = some .flowMappingEnd then
        skip
        return []
      unless first do
        if (← peek) = some .flowEntry then skip else fail
      match ← peek with
      | some .key =>
          skip
          let k ← if ← nextIs endsFlowKey then emptyNode else node fuel .flow
          let v ← flowValue fuel
          return (k, v) :: (← flowFields fuel false)
      | some .flowMappingEnd => skip; return []
      | _ =>
          let k ← node fuel .flow
          let v ← emptyNode
          return (k, v) :: (← flowFields fuel false)

end

/-! ## Documents -/

def standardHandles : List (String × String) := [("!", "!"), ("!!", "tag:yaml.org,2002:")]

def directives : Nat → Bool → List (String × String) → Parse (List (String × String))
  | 0, _, _ => fail
  | fuel + 1, versioned, handles => do
      match ← peek with
      | some (.directive (.version major minor)) =>
          if versioned || major ≠ 1 || (minor ≠ 1 && minor ≠ 2) then fail
          skip
          directives fuel true handles
      | some (.directive (.tag handle stem)) =>
          if (handles.lookup handle).isSome then fail
          skip
          directives fuel versioned ((handle, stem) :: handles)
      | _ => return handles

def endsDocument : Token → Bool
  | .directive _ | .documentStart | .documentEnd => true
  | _ => false

def root (fuel : Nat) : Parse Node := do
  match ← peek with
  | some (.directive _) | some .documentStart =>
      let handles ← directives fuel false []
      if (← peek) ≠ some .documentStart then fail
      skip
      modify fun p => { p with handles := handles ++ standardHandles }
      if ← nextIs endsDocument then emptyNode else node fuel .block
  | _ => node fuel .block

end Parse

def latest (anchored : List (Nat × Nat × Node)) : List (Nat × Node) :=
  (anchored.mergeSort fun a b => b.2.1 ≤ a.2.1).map fun (number, _, n) => (number, n)

/-- The document of a text: none if it is no YAML or more than one document, and `some none` if it holds
none at all. -/
def Document.parse? (text : String) : Option (Option Document) := do
  let tokens ← tokenize? text
  if tokens.isEmpty then return none
  let fuel := 4 * tokens.length + 4
  let (root, p) ← (Parse.root fuel).run ⟨tokens, Parse.standardHandles, [], [], 0, 0⟩
  if p.tokens.all (· = .documentEnd) then
    return some ⟨root, latest p.anchored, p.events⟩
  else failure

end FlowScript.Yaml
