import FlowScript.Script.Chain
import FlowScript.Template

namespace FlowScript

inductive Diagnostic where
  | fanOut (id : String) (wires : Nat) (followed : String)
  | cycleTruncated (root cycleAt : String)
  | unreachable (id : String)
  | missingProperty (id key : String)
  deriving DecidableEq, Repr

namespace Diagnostic

def message : Diagnostic → String
  | .fanOut id wires followed =>
      "node '" ++ id ++ "' has " ++ toString wires ++ " outgoing wires; only the wire to '" ++
        followed ++ "' is compiled"
  | .cycleTruncated root cycleAt =>
      "chain from '" ++ root ++ "' loops back to '" ++ cycleAt ++ "' and stops there"
  | .unreachable id => "node '" ++ id ++ "' is not reachable from any event"
  | .missingProperty id key =>
      "node '" ++ id ++ "' has no property '" ++ key ++ "'; the placeholder renders empty"

def handlerKey : String := "func_name"

variable {α : Type}

def fanOuts (g : Graph α) : List Diagnostic :=
  g.nodes.filterMap fun n => match g.outgoing n.id with
    | first :: _ :: more => some (.fanOut n.id (more.length + 2) first.target)
    | _ => none

def cycles (chains : List (Chain α)) : List Diagnostic :=
  chains.filterMap fun c => c.cycleAt.map (.cycleTruncated c.root.id)

def idsOf (c : Chain α) : List String := c.root.id :: c.steps.map Node.id

def unreached (g : Graph α) (chains : List (Chain α)) : List Diagnostic :=
  let reached := chains.flatMap idsOf
  (g.nodes.filter (·.id ∉ reached)).map fun n => .unreachable n.id

def missingKeys (t : NodeType) (n : Node α) : List String :=
  (Template.distinct ((t.header.toList ++ t.body.toList).flatMap Template.keys)).filter
    fun key => key ≠ handlerKey && !n.properties.contains key

def missing (catalog : Catalog) : List (Node α) → Except Error (List Diagnostic)
  | [] => .ok []
  | n :: rest => do
      let type ← catalog.find n.typeName
      let later ← missing catalog rest
      return (missingKeys type n).map (.missingProperty n.id) ++ later

/-- All warnings: by kind, then in graph order. -/
def analyze (g : Graph α) (catalog : Catalog) : Except Error (List Diagnostic) := do
  let roots ← Chain.roots g catalog
  let chains ← roots.mapM (Chain.ofNode g)
  let missing ← missing catalog g.nodes
  return fanOuts g ++ cycles chains ++ unreached g chains ++ missing

end Diagnostic
end FlowScript
