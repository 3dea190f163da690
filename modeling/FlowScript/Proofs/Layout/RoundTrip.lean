import FlowScript.Proofs.Layout.Accepted
import FlowScript.Proofs.Result

namespace FlowScript.Layout

open Json Json.Reader

/-! ## What the coordinates are read as -/

section
variable {layout layout' : Layout Float}

theorem rereadNode_eq_ok {r r' : NodeRecord Float} (read : rereadNode r = .ok r') :
    rereadFloat r.x = .ok r'.x ∧ rereadFloat r.y = .ok r'.y := by
  obtain ⟨x, readX, read⟩ := Result.bind_eq_ok.1 read
  obtain ⟨y, readY, read⟩ := Result.bind_eq_ok.1 read
  cases read
  exact ⟨readX, readY⟩

theorem rereadNode_error {r : NodeRecord Float} {e : LayoutFault} (failed : rereadNode r = .error e) :
    e = .malformed := by
  unfold rereadNode at failed
  cases readX : rereadFloat r.x with
  | error e' =>
      rw [readX] at failed
      cases failed
      exact rereadFloat_error readX
  | ok x =>
      rw [readX] at failed
      cases readY : rereadFloat r.y with
      | error e' =>
          rw [readY] at failed
          cases failed
          exact rereadFloat_error readY
      | ok y =>
          rw [readY] at failed
          cases failed

theorem reread_coordinates (accepted : layout.reread = .ok layout') :
    List.Forall₂ (fun x y => rereadFloat x = .ok y) layout.coordinates layout'.coordinates := by
  obtain ⟨nodes', read, same⟩ := Result.bind_eq_ok.1 accepted
  cases same
  refine List.rel_flatMap (Result.mapM_eq_ok.1 read) fun r r' own => ?_
  obtain ⟨x, y⟩ := rereadNode_eq_ok own
  exact .cons x (.cons y .nil)

theorem reread_error {e : LayoutFault} (failed : layout.reread = .error e) : e = .malformed := by
  unfold reread at failed
  cases read : layout.nodes.mapM rereadNode with
  | error e' =>
      rw [read] at failed
      cases failed
      obtain ⟨_, r, _, -, -, wrong⟩ := Result.mapM_eq_error.1 read
      exact rereadNode_error wrong
  | ok nodes =>
      rw [read] at failed
      cases failed

theorem reread_self (each : ∀ x ∈ layout.coordinates, rereadFloat x = .ok x) : layout.reread = .ok layout := by
  have nodes : layout.nodes.mapM rereadNode = .ok layout.nodes := by
    refine Result.mapM_eq_ok.2 (List.forall₂_same.2 fun r mem => ?_)
    have x := each r.x (List.mem_flatMap.2 ⟨r, mem, by simp⟩)
    have y := each r.y (List.mem_flatMap.2 ⟨r, mem, by simp⟩)
    rw [rereadNode, x, y]
    rfl
  rw [reread, nodes]
  rfl

theorem reread_of_infinite {x : Float} (own : x ∈ layout.coordinates) (infinite : x.isFinite = false) :
    layout.reread = .error .malformed := by
  cases read : layout.reread with
  | error e => rw [reread_error read]
  | ok layout' =>
      obtain ⟨y, -, back⟩ := Result.exists_related (reread_coordinates read).flip own
      rw [rereadFloat_of_infinite infinite] at back
      cases back

theorem parse_printed (fits : layout.FitsWords) :
    parse layout.print = layout.reread.mapError Error.corruptLayout := by
  have read := (reads_layout fits 0).run blank_nil boundary_nil
  rw [List.nil_append, List.append_nil] at read
  rw [parse, print, String.toList_ofList, Reader.whole, read]
  cases layout.reread <;> rfl

end

/-- Of the decimal texts of the coordinates it is assumed that they stand for the coordinates; everything else
is a matter of strings, brackets and natural numbers. This is asked of each coordinate and not of every
double, since a number may be rounded twice when it is read. -/
theorem parse_print (layout : Layout Float)
    (back : ∀ x ∈ layout.coordinates, x.isFinite = true → ReadsBack x) :
    (layout.FitsWords →
      (layout.coordinates.all Float.isFinite = true → parse layout.print = .ok layout) ∧
      (layout.coordinates.all Float.isFinite = false →
        parse layout.print = .error (.corruptLayout .malformed))) ∧
    ∀ text, parse text = .ok layout → parse layout.print = .ok layout := by
  have kept (fits : layout.FitsWords) (finite : layout.coordinates.all Float.isFinite = true) :
      parse layout.print = .ok layout := by
    rw [parse_printed fits, reread_self]
    · rfl
    · intro x own
      have finite : x.isFinite = true := List.all_eq_true.1 finite x own
      exact rereadFloat_eq_self.2 ⟨finite, back x own finite⟩
  refine ⟨fun fits => ⟨kept fits, fun infinite => ?_⟩, fun text read => ?_⟩
  · obtain ⟨x, own, infinite⟩ := List.all_eq_false.1 infinite
    rw [parse_printed fits, reread_of_infinite own (Bool.eq_false_iff.2 infinite)]
    rfl
  · obtain ⟨fits, finite⟩ := regular_of_parse read
    exact kept fits finite

theorem parse_print_every_field :
    let start : NodeRecord Float :=
      ⟨"node_0", "on\n\"start\"", 200.5, -0.0, some (.ofList [("é", "\\"), ("a", "𝄞\t")]), none,
        some ⟨0, 18446744073709551615⟩⟩
    let action : NodeRecord Float := ⟨"", "Text", -1e300, 2.5e-7, none, some "", none⟩
    let wires : List Wire := [⟨"node_0", 18446744073709551615, "", 0⟩, ⟨"", 0, "x", 7⟩]
    let short : Layout Float := ⟨[⟨"a", "b", 1.5, 2, none, none, none⟩], []⟩
    parse (print ⟨[start, action], wires⟩) = .ok ⟨[start, action], wires⟩ ∧
      parse (print ⟨[start, { action with y := 1 / 0 }], wires⟩) = .error (.corruptLayout .malformed) ∧
      parse "\x7b\"extra\":[null],\"nodes\":[[\"a\",\"b\",1.50,2e0,null]]\x7d" = .ok short ∧
      parse short.print = .ok short := by
  intro start action wires short
  have finite := parse_print ⟨[start, action], wires⟩ (by decide +kernel)
  have infinite := parse_print ⟨[start, { action with y := 1 / 0 }], wires⟩ (by decide +kernel)
  have read : parse "\x7b\"extra\":[null],\"nodes\":[[\"a\",\"b\",1.50,2e0,null]]\x7d" = .ok short := by
    decide +kernel
  refine ⟨(finite.1 ?_).1 ?_, (infinite.1 ?_).2 ?_, read, (parse_print short ?_).2 _ read⟩
  all_goals decide +kernel

end FlowScript.Layout
