import FlowScript.Graph.Ports
import FlowScript.Proofs.Graph.Wiring
import FlowScript.Proofs.Result

namespace FlowScript

variable {α : Type}

namespace Graph
variable {g : Graph α} {w : Wire}

inductive Overruns (g : Graph α) (w : Wire) : Error → Prop
  | output {source : Node α} (found : g.node w.source = .ok source) (outside : ¬ w.sourcePort < source.ports.outputs) :
      Overruns g w (.portOutOfRange w.source .output w.sourcePort source.ports.outputs)
  | input {source target : Node α} (left : g.node w.source = .ok source) (inside : w.sourcePort < source.ports.outputs)
      (found : g.node w.target = .ok target) (outside : ¬ w.targetPort < target.ports.inputs) :
      Overruns g w (.portOutOfRange w.target .input w.targetPort target.ports.inputs)

theorem hasPort_iff (distinct : g.ids.Nodup) {id : String} {side : Side} {index : Nat} :
    g.portTable.HasPort id side index ↔ ∃ n, g.node id = .ok n ∧ index < n.ports.on side := by
  constructor
  · rintro ⟨row, mem, rfl, lt⟩
    obtain ⟨m, own, rfl⟩ := List.mem_map.1 mem
    exact ⟨m, node_of_own distinct own, lt⟩
  · rintro ⟨n, found, lt⟩
    exact hasPort_of_node found lt

theorem inRange_or_overruns (distinct : g.ids.Nodup) (source : w.source ∈ g.ids) (target : w.target ∈ g.ids) :
    w.InRange g.portTable ∨ ∃ e, g.Overruns w e := by
  obtain ⟨left, foundLeft⟩ := node_of_mem source
  obtain ⟨right, foundRight⟩ := node_of_mem target
  by_cases output : w.sourcePort < left.ports.outputs
  · by_cases input : w.targetPort < right.ports.inputs
    · exact .inl ⟨(hasPort_iff distinct).2 ⟨left, foundLeft, output⟩, (hasPort_iff distinct).2 ⟨right, foundRight, input⟩⟩
    · exact .inr ⟨_, .input foundLeft output foundRight input⟩
  · exact .inr ⟨_, .output foundLeft output⟩

end Graph

namespace NodeShape
variable [Scalar α] {shape : NodeShape α} {g : Graph α} {w : Wire}

theorem portAnchor_of_node {n : Node α} {id : String} (found : g.node id = .ok n) (side : Side) (index : Nat) :
    shape.portAnchor g id side index =
      if index < n.ports.on side then .ok (shape.anchor n side index)
      else .error (.portOutOfRange id side index (n.ports.on side)) := by
  rw [portAnchor, found, ← (Graph.node_ok found).2]
  by_cases inside : index < n.ports.on side
  · rw [if_pos inside]
    simp [Graph.checkPort, inside, bind, Except.bind, pure, Except.pure]
  · rw [if_neg inside]
    simp [Graph.checkPort, inside, bind, Except.bind]

theorem endpoints_of_inRange (distinct : g.ids.Nodup) (inRange : w.InRange g.portTable) :
    ∃ start stop, shape.endpoints g w = .ok (start, stop) := by
  obtain ⟨left, foundLeft, output⟩ := (Graph.hasPort_iff distinct).1 inRange.1
  obtain ⟨right, foundRight, input⟩ := (Graph.hasPort_iff distinct).1 inRange.2
  refine ⟨shape.anchor left .output w.sourcePort, shape.anchor right .input w.targetPort, ?_⟩
  rw [endpoints, portAnchor_of_node foundLeft, portAnchor_of_node foundRight, if_pos output, if_pos input]
  rfl

theorem endpoints_of_overruns {e : Error} (h : g.Overruns w e) : shape.endpoints g w = .error e := by
  cases h with
  | @output left found outside =>
      have outside : ¬ w.sourcePort < left.ports.on .output := outside
      rw [endpoints, portAnchor_of_node found, if_neg outside]
      rfl
  | @input left right foundLeft inside found outside =>
      have inside : w.sourcePort < left.ports.on .output := inside
      have outside : ¬ w.targetPort < right.ports.on .input := outside
      rw [endpoints, portAnchor_of_node foundLeft, if_pos inside, portAnchor_of_node found, if_neg outside]
      rfl

theorem wireCurve_eq_ok {c : WireCurve α} :
    shape.wireCurve g w = .ok c ↔ shape.endpoints g w = .ok (c.start, c.stop) ∧ c = .between c.start c.stop := by
  rw [wireCurve, Result.bind_eq_ok]
  constructor
  · rintro ⟨⟨start, stop⟩, ends, drawn⟩
    cases drawn
    exact ⟨ends, rfl⟩
  · rintro ⟨ends, drawn⟩
    exact ⟨(c.start, c.stop), ends, congrArg Except.ok drawn.symm⟩

theorem wireCurves_eq_ok {curves : List (WireCurve α)} :
    shape.wireCurves g = .ok curves ↔ List.Forall₂ (fun w c =>
      shape.endpoints g w = .ok (c.start, c.stop) ∧ c = .between c.start c.stop) g.wires curves := by
  rw [wireCurves, Result.mapM_eq_ok]
  simp only [wireCurve_eq_ok]

theorem wireCurve_of_inRange (distinct : g.ids.Nodup) (inRange : w.InRange g.portTable) :
    ∃ c, shape.wireCurve g w = .ok c := by
  obtain ⟨start, stop, ends⟩ := endpoints_of_inRange distinct inRange
  exact ⟨.between start stop, wireCurve_eq_ok.2 ⟨ends, rfl⟩⟩

theorem wireCurve_of_overruns {e : Error} (h : g.Overruns w e) : shape.wireCurve g w = .error e := by
  rw [wireCurve, endpoints_of_overruns h]
  rfl

variable {catalog : Catalog}

theorem exists_wireCurve_iff (sound : g.Sound catalog) (own : w ∈ g.wires) :
    (∃ c, shape.wireCurve g w = .ok c) ↔ w.InRange g.portTable := by
  obtain ⟨source, target⟩ := sound.anchored w own
  refine ⟨fun ⟨c, drawn⟩ => ?_, wireCurve_of_inRange sound.distinct⟩
  rcases Graph.inRange_or_overruns sound.distinct source target with inRange | ⟨e, overruns⟩
  · exact inRange
  · rw [wireCurve_of_overruns overruns] at drawn
    cases drawn

theorem wireCurve_eq_error_iff (sound : g.Sound catalog) (own : w ∈ g.wires) {e : Error} :
    shape.wireCurve g w = .error e ↔ g.Overruns w e := by
  obtain ⟨source, target⟩ := sound.anchored w own
  refine ⟨fun failed => ?_, wireCurve_of_overruns⟩
  rcases Graph.inRange_or_overruns sound.distinct source target with inRange | ⟨e', overruns⟩
  · obtain ⟨c, drawn⟩ := wireCurve_of_inRange sound.distinct inRange
    rw [drawn] at failed
    cases failed
  · rw [wireCurve_of_overruns overruns] at failed
    exact Except.error.inj failed ▸ overruns

theorem exists_wireCurves_iff (sound : g.Sound catalog) :
    (∃ curves, shape.wireCurves g = .ok curves) ↔ ∀ w ∈ g.wires, w.InRange g.portTable := by
  constructor
  · rintro ⟨curves, drawn⟩ w own
    obtain ⟨c, -, drawn⟩ := Result.exists_related (Result.mapM_eq_ok.1 drawn).flip own
    exact (exists_wireCurve_iff sound own).1 ⟨c, drawn⟩
  · exact fun inRange => Result.mapM_ok fun w own => (exists_wireCurve_iff sound own).2 (inRange w own)

theorem wireCurves_eq_error_iff (sound : g.Sound catalog) {e : Error} :
    shape.wireCurves g = .error e ↔
      ∃ before w after, g.wires = before ++ w :: after ∧ (∀ v ∈ before, v.InRange g.portTable) ∧ g.Overruns w e := by
  rw [wireCurves, Result.mapM_eq_error]
  constructor
  · rintro ⟨before, w, after, wires, fine, failed⟩
    have own : ∀ v ∈ before ++ w :: after, v ∈ g.wires := fun v mem => wires ▸ mem
    exact ⟨before, w, after, wires,
      fun v mem => (exists_wireCurve_iff sound (own v (by simp [mem]))).1 (fine v mem),
      (wireCurve_eq_error_iff sound (own w (by simp))).1 failed⟩
  · rintro ⟨before, w, after, wires, fine, overruns⟩
    have own : ∀ v ∈ before ++ w :: after, v ∈ g.wires := fun v mem => wires ▸ mem
    exact ⟨before, w, after, wires,
      fun v mem => (exists_wireCurve_iff sound (own v (by simp [mem]))).2 (fine v mem),
      wireCurve_of_overruns overruns⟩

end NodeShape
end FlowScript
