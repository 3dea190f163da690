import FlowScript.Layout.Reader
import FlowScript.Proofs.Json.Printer

namespace FlowScript

open Json Json.Reader

/-! ## What fits into 64 bits -/

def PortCounts.FitsWords (p : PortCounts) : Prop := p.inputs < UInt64.size ∧ p.outputs < UInt64.size

instance (p : PortCounts) : Decidable p.FitsWords := inferInstanceAs (Decidable (_ ∧ _))

def Wire.FitsWords (w : Wire) : Prop := w.sourcePort < UInt64.size ∧ w.targetPort < UInt64.size

instance (w : Wire) : Decidable w.FitsWords := inferInstanceAs (Decidable (_ ∧ _))

def Layout.FitsWords {α : Type} (layout : Layout α) : Prop :=
  (∀ r ∈ layout.nodes, ∀ p ∈ r.ports, p.FitsWords) ∧ ∀ w ∈ layout.wires, w.FitsWords

instance {α : Type} (layout : Layout α) : Decidable layout.FitsWords := inferInstanceAs (Decidable (_ ∧ _))

/-! ## Properties and port counts -/

theorem Properties.insertEntry_last {key : String} (value : String) {entries : List (String × String)}
    (last : ∀ entry ∈ entries, entry.1 < key) :
    insertEntry key value entries = entries ++ [(key, value)] := by
  induction entries with
  | nil => rfl
  | cons entry entries ih =>
      rw [List.forall_mem_cons] at last
      rw [insertEntry, if_neg (String.lt_asymm last.1), if_pos last.1, ih last.2]
      rfl

namespace Layout

theorem takes_properties {take : Properties → String → Json.Reader Properties}
    (takes : ∀ p key, take p key = p.insert key <$> field string) {whole : Properties} (depth : Nat)
    {later : List (String × String)} {p : Properties} (split : p.entries ++ later = whole.entries) :
    Takes take depth p (later.map fun (key, value) => (key, Json.string value)) (.ok whole) := by
  induction later generalizing p with
  | nil =>
      have same : p = whole := by
        cases p
        cases whole
        simpa using split
      rw [same]
      exact .done whole
  | cons entry later ih =>
      obtain ⟨key, value⟩ := entry
      have sorted := whole.sorted
      rw [← split, List.pairwise_append] at sorted
      have last := Properties.insertEntry_last value fun entry mem =>
        sorted.2.2 entry mem (key, value) (by simp)
      refine Takes.field _ (takes p key) (reads_string value) (ih ?_)
      change Properties.insertEntry key value p.entries ++ later = whole.entries
      rw [last, List.append_assoc]
      exact split

theorem reads_properties (p : Properties) (depth : Nat) :
    Reads Layout.Reader.properties (printProperties p depth) (.ok p) :=
  reads_object (takes_properties (fun _ _ => rfl) (depth + 1) rfl)

theorem reads_ports {p : PortCounts} (fits : p.FitsWords) (depth : Nat) :
    Reads Layout.Reader.portCounts (printPorts p depth) (.ok p) := by
  refine Reads.record (reads_object
    (show Takes _ _ _ _ (.ok (some p.inputs, some p.outputs)) from ?_)) (head?_object _ _)
  exact Takes.field (fun n => (some n, none)) rfl (reads_natural fits.1 _)
    (Takes.field (fun n => (some p.inputs, some n)) rfl (reads_natural fits.2 _) (.done _))

/-! ## Nodes -/

theorem takes_optional {α σ : Type} {take : σ → String → Json.Reader σ} {s s' : σ} {name : String}
    {read : Json.Reader α} {print : α → Indented} {depth : Nat} {value : Option α}
    (put : Option (Option α) → σ) (takes : take s name = (fun a => put (some a)) <$> field (nullable read))
    (absent : put none = s) (ended : put (value.map some) = s')
    (h : ∀ a ∈ value, Reads read (print a depth) (.ok a) ∧ (print a depth).head? ≠ some 'n') :
    Takes take depth s (optional name print value) (.ok s') := by
  cases value with
  | none =>
      rw [← ended, Option.map_none, absent]
      exact .done s
  | some a =>
      obtain ⟨reads, notNull⟩ := h a rfl
      rw [← ended]
      exact Takes.field _ takes (Reads.nullable reads notNull) (.done _)

def rereadNode (r : NodeRecord Float) : Except LayoutFault (NodeRecord Float) := do
  let x ← rereadFloat r.x
  let y ← rereadFloat r.y
  return { r with x := x, y := y }

def fixedFields (r : NodeRecord Float) : NodeRecord.Draft :=
  { id := some r.id, typeName := some r.typeName, x := some r.x, y := some r.y }

def allFields (r : NodeRecord Float) : NodeRecord.Draft :=
  { fixedFields r with
    properties := r.properties.map some
    label := r.label.map some
    ports := r.ports.map some }

theorem finish_allFields (r : NodeRecord Float) : Layout.Reader.finishNode (allFields r) = .ok r := by
  obtain ⟨id, typeName, x, y, properties, label, ports⟩ := r
  cases properties <;> cases label <;> cases ports <;> rfl

def optionalFields (r : NodeRecord Float) : List (String × Indented) :=
  optional "properties" printProperties r.properties ++
    (optional "label" Json.string r.label ++ optional "portCounts" printPorts r.ports)

theorem takes_optionalFields {r : NodeRecord Float} (fits : ∀ p ∈ r.ports, p.FitsWords) (depth : Nat) :
    Takes Layout.Reader.nodeField depth (fixedFields r) (optionalFields r) (.ok (allFields r)) := by
  have brace (fields : List (String × Indented)) : (Json.object fields depth).head? ≠ some 'n' := by
    rw [head?_object]
    decide
  have quoted (s : String) : (Json.string s depth).head? ≠ some 'n' := by
    change some '"' ≠ some 'n'
    decide
  refine Takes.append (takes_optional (fun p => { fixedFields r with properties := p }) rfl rfl rfl
    fun p _ => ⟨reads_properties p depth, brace _⟩) ?_
  refine Takes.append (takes_optional
    (fun l => { fixedFields r with properties := r.properties.map some, label := l }) rfl rfl rfl
    fun label _ => ⟨reads_string label, quoted label⟩) ?_
  exact takes_optional
    (fun n => { fixedFields r with
      properties := r.properties.map some, label := r.label.map some, ports := n }) rfl rfl rfl
    fun p mem => ⟨reads_ports (fits p mem) depth, brace _⟩

theorem printNode_eq (r : NodeRecord Float) :
    printNode r = Json.object (("id", Json.string r.id) :: ("type", Json.string r.typeName) ::
      ("x", Json.float r.x) :: ("y", Json.float r.y) :: optionalFields r) := by
  simp [printNode, optionalFields]

theorem takes_fields {r : NodeRecord Float} (fits : ∀ p ∈ r.ports, p.FitsWords) (depth : Nat) :
    Takes Layout.Reader.nodeField depth {}
      (("id", Json.string r.id) :: ("type", Json.string r.typeName) ::
        ("x", Json.float r.x) :: ("y", Json.float r.y) :: optionalFields r)
      (rereadFloat r.x >>= fun x => rereadFloat r.y >>= fun y =>
        .ok (allFields { r with x := x, y := y })) := by
  refine Takes.field (fun id => { id := some id }) rfl (reads_string r.id) ?_
  refine Takes.field (fun t => { id := some r.id, typeName := some t }) rfl (reads_string r.typeName) ?_
  refine Takes.checkedField (fun x => { id := some r.id, typeName := some r.typeName, x := some x }) rfl
    (reads_float r.x depth) fun x => ?_
  exact Takes.checkedField (fun y => fixedFields { r with x := x, y := y }) rfl (reads_float r.y depth) fun y =>
    takes_optionalFields (r := { r with x := x, y := y }) fits depth

theorem reads_node {r : NodeRecord Float} (fits : ∀ p ∈ r.ports, p.FitsWords) (depth : Nat) :
    Reads Layout.Reader.node (printNode r depth) (rereadNode r) := by
  have finished : (rereadFloat r.x >>= fun x => rereadFloat r.y >>= fun y =>
      Except.ok (allFields { r with x := x, y := y })) >>= Layout.Reader.finishNode = rereadNode r := by
    unfold rereadNode
    cases rereadFloat r.x with
    | error e => rfl
    | ok x => cases rereadFloat r.y with
      | error e => rfl
      | ok y => exact finish_allFields _
  rw [printNode_eq, ← finished]
  exact Reads.record (reads_object (takes_fields fits (depth + 1))) (head?_object _ _)

/-! ## Wires -/

theorem reads_wire {w : Wire} (fits : w.FitsWords) (depth : Nat) :
    Reads Layout.Reader.wire (printWire w depth) (.ok w) where
  opens := ⟨'[', by rw [printWire, Json.list, bracketed_cons]; rfl, rfl⟩
  run {space rest} blank _ := by
    have closed : (newline depth ++ [']']) ++ rest = newline depth ++ ']' :: rest := by simp
    rw [printWire, Json.list, bracketed_cons, List.cons_append, List.append_assoc, closed,
      Layout.Reader.wire, run_bind_ok (run_expect blank rfl),
      run_bind_ok (run_item_placed (reads_string w.source) true _ _),
      run_bind_ok (run_item_placed (reads_natural fits.1 _) false _ _),
      run_bind_ok (run_item_placed (reads_string w.target) false _ _),
      run_bind_ok (run_item_placed (reads_natural fits.2 _) false _ _),
      placed, List.nil_append, run_bind_ok (run_expect (blank_newline depth) rfl)]
    rfl

/-! ## Layouts -/

def coordinates {α : Type} (layout : Layout α) : List α := layout.nodes.flatMap fun r => [r.x, r.y]

def reread (layout : Layout Float) : Except LayoutFault (Layout Float) := do
  return ⟨← layout.nodes.mapM rereadNode, layout.wires⟩

theorem reads_layout {layout : Layout Float} (fits : layout.FitsWords) (depth : Nat) :
    Reads Layout.Reader.layout
      (Json.object [("nodes", Json.list (layout.nodes.map printNode)),
        ("connections", Json.list (layout.wires.map printWire))] depth) layout.reread := by
  have nodes := reads_list (fun r (mem : r ∈ layout.nodes) => reads_node (fits.1 r mem)) (depth + 1)
  have wires := reads_list (fun w (mem : w ∈ layout.wires) => reads_wire (fits.2 w mem)) (depth + 1)
  have kept : layout.wires.mapM (Except.ok : Wire → Except LayoutFault Wire) = .ok layout.wires :=
    (List.mapM_pure (f := id)).trans (congrArg _ (List.map_id _))
  rw [kept] at wires
  have finished : (layout.nodes.mapM rereadNode >>= fun nodes => Except.ok (some nodes, some layout.wires)) >>=
      (fun s => return ⟨← require "nodes" s.1, s.2.getD []⟩) = layout.reread := by
    unfold reread
    cases layout.nodes.mapM rereadNode <;> rfl
  rw [← finished]
  refine Reads.record (reads_object ?_) (head?_object _ _)
  refine Takes.checkedField (fun nodes => (some nodes, none)) rfl nodes fun nodes => ?_
  exact Takes.field (fun wires => (some nodes, some wires)) rfl wires (.done _)

end Layout
end FlowScript
