import FlowScript.Proofs.Binary64.Finite
import FlowScript.Proofs.Json.Postcondition
import FlowScript.Proofs.Layout.Printer

namespace FlowScript

open Json Json.Reader

namespace Layout

theorem yields_float : Yields Json.Reader.float fun x => x.isFinite = true := by
  apply yields_ofFront
  intro cs x rest taken
  obtain ⟨t, -, value⟩ := readNumber_eq_some.1 taken
  exact isFinite_toFloat? value

theorem yields_portCounts : Yields Layout.Reader.portCounts PortCounts.FitsWords := by
  refine Yields.record (yields_object (I := fun s => (∀ n ∈ s.1, n < UInt64.size) ∧
    ∀ n ∈ s.2, n < UInt64.size) (by simp) (fun s name holds => ?_) fun s p holds finished => ?_) ?_
  · split
    · exact Yields.after fun _ => yields_word.field.bind fun n fits =>
        yields_pure ⟨by simpa using fits, holds.2⟩
    · exact Yields.after fun _ => yields_word.field.bind fun n fits =>
        yields_pure ⟨holds.1, by simpa using fits⟩
    · exact Yields.after fun _ => yields_pure holds
  · obtain ⟨inputs, outputs⟩ := s
    cases inputs <;> cases outputs <;> cases finished
    exact ⟨holds.1 _ rfl, holds.2 _ rfl⟩
  · exact (yields_word.item true).bind fun inputs fitsIn =>
      (yields_word.item false).bind fun outputs fitsOut => yields_pure ⟨fitsIn, fitsOut⟩

theorem fits_join {ports : Option (Option PortCounts)}
    (h : ∀ o ∈ ports, ∀ p ∈ o, PortCounts.FitsWords p) : ∀ p ∈ ports.join, p.FitsWords :=
  fun p mem => h (some p) (Option.join_eq_some_iff.1 mem) p rfl

structure Regular (r : NodeRecord Float) : Prop where
  finiteX : r.x.isFinite = true
  finiteY : r.y.isFinite = true
  fits : ∀ p ∈ r.ports, p.FitsWords

structure RegularDraft (d : NodeRecord.Draft) : Prop where
  finiteX : ∀ x ∈ d.x, x.isFinite = true
  finiteY : ∀ y ∈ d.y, y.isFinite = true
  fits : ∀ o ∈ d.ports, ∀ p ∈ o, p.FitsWords

theorem yields_nodeField (d : NodeRecord.Draft) (name : String) (h : RegularDraft d) :
    Yields (Layout.Reader.nodeField d name) RegularDraft := by
  unfold Layout.Reader.nodeField
  split
  · exact Yields.after fun _ => Yields.after fun _ => yields_pure { h with }
  · exact Yields.after fun _ => Yields.after fun _ => yields_pure { h with }
  · exact Yields.after fun _ => yields_float.field.bind fun x finite =>
      yields_pure { h with finiteX := by simpa using finite }
  · exact Yields.after fun _ => yields_float.field.bind fun y finite =>
      yields_pure { h with finiteY := by simpa using finite }
  · exact Yields.after fun _ => Yields.after fun _ => yields_pure { h with }
  · exact Yields.after fun _ => Yields.after fun _ => yields_pure { h with }
  · exact Yields.after fun _ => yields_portCounts.nullable.field.bind fun o fits =>
      yields_pure { h with fits := by simpa using fits }
  · exact Yields.after fun _ => yields_pure h

theorem regular_finishNode {d : NodeRecord.Draft} {r : NodeRecord Float} (h : RegularDraft d)
    (finished : Layout.Reader.finishNode d = .ok r) : Regular r := by
  obtain ⟨id, typeName, x, y, properties, label, ports⟩ := d
  cases id <;> cases typeName <;> cases x <;> cases y <;> cases finished
  exact ⟨h.finiteX _ rfl, h.finiteY _ rfl, fits_join h.fits⟩

theorem yields_node : Yields Layout.Reader.node Regular := by
  refine Yields.record (yields_object (I := RegularDraft) ⟨by simp, by simp, by simp⟩ yields_nodeField
    fun d r => regular_finishNode) ?_
  refine Yields.after fun id => Yields.after fun typeName => ?_
  refine (yields_float.item false).bind ?_
  intro x finiteX
  refine (yields_float.item false).bind ?_
  intro y finiteY
  refine Yields.after fun properties => Yields.after fun label => ?_
  refine (yields_portCounts.nullable.item? false).bind ?_
  intro ports fits
  exact yields_pure ⟨finiteX, finiteY, fits_join fits⟩

theorem yields_wire : Yields Layout.Reader.wire Wire.FitsWords := by
  refine Yields.after fun _ => Yields.after fun source => ?_
  refine (yields_word.item false).bind ?_
  intro sourcePort fitsSource
  apply Yields.after
  intro target
  refine (yields_word.item false).bind ?_
  intro targetPort fitsTarget
  exact Yields.after fun _ => yields_pure ⟨fitsSource, fitsTarget⟩

theorem fits_getD {wires : Option (List Wire)} (h : ∀ found ∈ wires, ∀ w ∈ found, Wire.FitsWords w) :
    ∀ w ∈ wires.getD [], w.FitsWords := by
  cases wires with
  | none => simp
  | some found => exact h found rfl

theorem yields_layout : Yields Layout.Reader.layout fun layout =>
    (∀ r ∈ layout.nodes, Regular r) ∧ ∀ w ∈ layout.wires, w.FitsWords := by
  refine Yields.record (yields_object (I := fun s => (∀ nodes ∈ s.1, ∀ r ∈ nodes, Regular r) ∧
    ∀ wires ∈ s.2, ∀ w ∈ wires, w.FitsWords) (by simp) (fun s name holds => ?_)
    fun s layout holds finished => ?_) ?_
  · split
    · exact Yields.after fun _ => yields_node.list.field.bind fun nodes regular =>
        yields_pure ⟨by simpa using regular, holds.2⟩
    · exact Yields.after fun _ => yields_wire.list.field.bind fun wires fits =>
        yields_pure ⟨holds.1, by simpa using fits⟩
    · exact Yields.after fun _ => yields_pure holds
  · obtain ⟨nodes, wires⟩ := s
    cases nodes <;> cases finished
    exact ⟨holds.1 _ rfl, fits_getD holds.2⟩
  · refine (yields_node.list.item true).bind ?_
    intro nodes regular
    exact (yields_wire.list.item? false).bind fun wires fits => yields_pure ⟨regular, fits_getD fits⟩

theorem regular_of_parse {text : String} {layout : Layout Float} (read : parse text = .ok layout) :
    layout.FitsWords ∧ layout.coordinates.all Float.isFinite = true := by
  unfold parse at read
  split at read <;> cases read
  rename_i done
  obtain ⟨nodes, wires⟩ := yields_whole yields_layout done
  refine ⟨⟨fun r mem => (nodes r mem).fits, wires⟩, List.all_eq_true.2 fun x mem => ?_⟩
  obtain ⟨r, own, mem⟩ := List.mem_flatMap.1 mem
  have regular := nodes r own
  obtain rfl | rfl : x = r.x ∨ x = r.y := by simpa using mem
  · exact regular.finiteX
  · exact regular.finiteY

end Layout
end FlowScript
