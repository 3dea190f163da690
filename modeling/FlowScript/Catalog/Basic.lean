import Std.Data.ExtTreeMap
import FlowScript.Error
import FlowScript.Properties

namespace FlowScript

inductive NodeKind where
  | event
  | action
  deriving DecidableEq, Repr

structure PropertySpec where
  key : String
  label : String
  initial : String
  deriving DecidableEq, Repr

structure NodeType where
  name : String
  kind : NodeKind
  inputs : List String
  outputs : List String
  properties : List PropertySpec
  header : Option String
  body : Option String
  deriving DecidableEq, Repr

def NodeType.isEvent (t : NodeType) : Bool := t.kind = .event

def NodeType.initialProperties (t : NodeType) : Properties :=
  Properties.ofList (t.properties.map fun spec => (spec.key, spec.initial))

abbrev Index := Std.ExtTreeMap String Nat

namespace Index

/-- Each name of the list leads to its place, and nothing else leads anywhere. -/
def Faithful (index : Index) (names : List String) : Prop :=
  ∀ (name : String) (i : Nat), index[name]? = some i ↔ names[i]? = some name

theorem faithful_empty : Faithful ∅ [] := by
  intro name i
  simp

theorem Faithful.mem_iff {index : Index} {names : List String} (h : index.Faithful names) {name : String} :
    name ∈ index ↔ name ∈ names := by
  rw [Std.ExtTreeMap.mem_iff_isSome_getElem?, Option.isSome_iff_exists, List.mem_iff_getElem?]
  exact exists_congr (h name)

theorem Faithful.snoc {index : Index} {names : List String} (h : index.Faithful names) {name : String}
    (fresh : name ∉ names) : Faithful (index.insert name names.length) (names ++ [name]) := by
  intro other i
  have place : (names ++ [name])[i]? = if i = names.length then some name else names[i]? := by
    grind
  rw [Std.ExtTreeMap.getElem?_insert, place]
  simp only [Std.LawfulEqCmp.compare_eq_iff_eq]
  by_cases same : name = other
  · subst same
    have unseen : names[i]? ≠ some name := fun found => fresh (List.mem_of_getElem? found)
    by_cases last : i = names.length
    · simp [last]
    · simp [last, Ne.symm last, unseen]
  · rw [if_neg same, h other i]
    by_cases last : i = names.length
    · simp [last, same]
    · simp [last]

def collectFrom (place : Nat) (index : Index) : List String → Index
  | [] => index
  | name :: rest => collectFrom (place + 1) (index.insert name place) rest

def buildFrom (place : Nat) (index : Index) : List String → Except String Index
  | [] => .ok index
  | name :: rest =>
      let (known, index) := index.containsThenInsert name place
      if known then .error name else buildFrom (place + 1) index rest

theorem Faithful.collectFrom {index : Index} {seen names : List String} (h : index.Faithful seen)
    (distinct : (seen ++ names).Nodup) : (collectFrom seen.length index names).Faithful (seen ++ names) := by
  induction names generalizing index seen with
  | nil => simpa [Index.collectFrom] using h
  | cons name rest ih =>
      have fresh : name ∉ seen := fun mem => (List.nodup_append.1 distinct).2.2 name mem name (by simp) rfl
      have later := ih (h.snoc fresh) (by simpa using distinct)
      simpa [Index.collectFrom] using later

theorem buildFrom_cons {index : Index} {seen : List String} (h : index.Faithful seen) (name : String)
    (rest : List String) : buildFrom seen.length index (name :: rest) =
      if name ∈ seen then .error name
      else buildFrom (seen ++ [name]).length (index.insert name seen.length) rest := by
  simp [buildFrom, ← h.mem_iff]

theorem Faithful.buildFrom {index index' : Index} {seen names : List String} (h : index.Faithful seen)
    (built : buildFrom seen.length index names = .ok index') : index'.Faithful (seen ++ names) := by
  induction names generalizing index seen with
  | nil =>
      obtain rfl := Except.ok.inj built
      simpa using h
  | cons name rest ih =>
      rw [buildFrom_cons h] at built
      split at built
      · cases built
      · rename_i fresh
        simpa using ih (h.snoc fresh) built

end Index

/-- Node types with distinct names, in catalog order, and the index of their names. -/
structure Catalog where
  types : List NodeType
  index : Index
  faithful : index.Faithful (types.map NodeType.name)
  deriving DecidableEq

namespace Catalog

def ofTypes (types : List NodeType) : Except Error Catalog :=
  match built : Index.buildFrom 0 ∅ (types.map NodeType.name) with
  | .error name => .error (.settingsInvalid (.repeatedType name))
  | .ok index => .ok ⟨types, index, Index.faithful_empty.buildFrom built⟩

def ofDistinct (types : List NodeType) (distinct : (types.map NodeType.name).Nodup) : Catalog :=
  ⟨types, Index.collectFrom 0 ∅ (types.map NodeType.name), Index.faithful_empty.collectFrom distinct⟩

theorem place_lt (c : Catalog) {name : String} {place : Nat} (h : c.index[name]? = some place) :
    place < c.types.length := by
  have named := (c.faithful name place).1 h
  simpa using (List.getElem?_eq_some_iff.1 named).1

def find? (c : Catalog) (name : String) : Option NodeType :=
  match found : c.index[name]? with
  | some place => some (c.types.get ⟨place, c.place_lt found⟩)
  | none => none

def find (c : Catalog) (name : String) : Except Error NodeType :=
  match c.find? name with
  | some t => .ok t
  | none => .error (.unknownType name)

def contains (c : Catalog) (name : String) : Bool := c.index.contains name

end Catalog
end FlowScript
