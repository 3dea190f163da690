import FlowScript.Digest.Sha256
import FlowScript.Script.Boilerplate
import FlowScript.Script.Diagnostic

namespace FlowScript

structure Bot where
  source : String
  hash : String
  handlers : Nat
  diagnostics : List Diagnostic
  deriving DecidableEq, Repr

namespace Script

structure Options where
  settings : Settings := {}
  debug : Bool := false
  deriving DecidableEq, Repr

def idTail (id : List Char) : List Char :=
  let stem := NodeId.stem.toList
  if stem.isPrefixOf id && stem.length < id.length then id.drop stem.length else id

def functionName (s : Settings) (id : String) : String :=
  s.functionStem ++
    String.ofList ((idTail id.toList).map fun c => if c.isAlphanum then c else '_')

/-- A name that is not taken: the suggested one, or else the first free one of `name_2`, `name_3`, … -/
def freshName (taken : List String) (name : String) : String :=
  if name ∈ taken then
    let numbered := (List.range (taken.length + 1)).map fun n => name ++ "_" ++ toString (n + 2)
    (numbered.find? (· ∉ taken)).getD name
  else name

def handlerNames (s : Settings) (taken : List String) : List String → List String
  | [] => []
  | id :: rest =>
      let name := freshName taken (functionName s id)
      name :: handlerNames s (name :: taken) rest

variable {α : Type}

def header (t : NodeType) (n : Node α) (name : String) : List String :=
  (t.header.map fun template => Template.render template fun key =>
    if key = Diagnostic.handlerKey then some name else n.properties.get? key).toList

def comment (n : Node α) : String := "    # " ++ n.id ++ " (" ++ n.label ++ ")"

def step (debug : Bool) (t : NodeType) (n : Node α) : List String :=
  match t.body with
  | none => []
  | some template => (if debug then [comment n] else []) ++ [Template.render template n.properties.get?]

def steps (debug : Bool) (catalog : Catalog) : List (Node α) → Except Error (List String)
  | [] => .ok []
  | n :: rest => do
      let type ← catalog.find n.typeName
      let later ← steps debug catalog rest
      return step debug type n ++ later

def handler (debug : Bool) (g : Graph α) (catalog : Catalog) (root : Node α) (name : String) :
    Except Error (List String) := do
  let type ← catalog.find root.typeName
  let chain ← Chain.ofNode g root
  let steps ← steps debug catalog chain.steps
  return header type root name ++ steps ++ [""]

def blocks (o : Options) (g : Graph α) (catalog : Catalog) (roots : List (Node α)) :
    Except Error (List String) := do
  let names := handlerNames o.settings [] (roots.map Node.id)
  let sections ← (roots.zip names).mapM fun (root, name) => handler o.debug g catalog root name
  return preamble o.settings ++ sections.flatten ++ [closing o.settings]

def compile (o : Options) (g : Graph α) (catalog : Catalog) : Except Error Bot := do
  let roots ← Chain.roots g catalog
  let blocks ← blocks o g catalog roots
  let source := "\n".intercalate blocks
  let diagnostics ← Diagnostic.analyze g catalog
  return ⟨source, Sha256.hex source, roots.length, diagnostics⟩

end Script

namespace Bot

def shortHash (b : Bot) : String := String.ofList (b.hash.toList.take 8)

def size (b : Bot) : Nat := b.source.utf8ByteSize

end Bot
end FlowScript
