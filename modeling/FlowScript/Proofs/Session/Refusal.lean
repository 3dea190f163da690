import FlowScript.Proofs.Session.Counter

/-!
# Refused operations

An operation of a session that fails, or that answers `false`, leaves everything as it is
(`Session.refusal_after`). For a generated id this needs the ledger of the session: without it the search for
a free number might move the counter and then run out of numbers.
-/

namespace FlowScript

namespace Edit
variable {σ α β : Type}

def Spares (refusal : α → Prop) (e : Edit σ α) (s : σ) : Prop :=
  ∀ result t, e.outcome s = (result, t) → (∀ a, result = .ok a → refusal a) → t = s

theorem spares_of_ok {refusal : α → Prop} {e : Edit σ α} {s t : σ} {a : α} (ended : e.outcome s = (.ok a, t))
    (granted : ¬ refusal a) : e.Spares refusal s := by
  intro result t' ended' refused
  rw [ended] at ended'
  cases ended'
  exact absurd (refused a rfl) granted

theorem spares_of_same {refusal : α → Prop} {e : Edit σ α} {s : σ} {result : Except Error α}
    (ended : e.outcome s = (result, s)) : e.Spares refusal s := by
  intro result' t ended' _
  rw [ended] at ended'
  cases ended'
  rfl

theorem Spares.map {refusal : α → Prop} {refusal' : β → Prop} {e : Edit σ α} {s : σ} {f : α → β}
    (h : e.Spares refusal s) (means : ∀ a, refusal' (f a) → refusal a) :
    (f <$> e).Spares refusal' s := by
  intro result t ended refused
  rw [outcome_map] at ended
  cases ended
  refine h (e.outcome s).1 _ rfl fun a succeeded => means a (refused (f a) ?_)
  rw [succeeded]
  rfl

theorem Spares.lift_bind {refusal : β → Prop} {r : Except Error α} {f : α → Edit σ β} {s : σ}
    (h : ∀ a, (f a).Spares refusal s) : ((liftM r : Edit σ α) >>= f).Spares refusal s := by
  cases r with
  | error e => exact spares_of_same (outcome_lift_bind _ f s)
  | ok a => exact h a

end Edit

open Edit

variable {α : Type}

namespace Graph

theorem spares_editNode (id : String) (change : Node α → Except Error (Node α)) (g : Graph α) :
    (editNode id change).Spares (fun _ => False) g := by
  cases changed : g.node id >>= change with
  | error e => exact spares_of_same (by rw [outcome_editNode, changed])
  | ok n => exact spares_of_ok (by rw [outcome_editNode, changed]) not_false

theorem spares_connect (w : Wire) (g : Graph α) : (connect w).Spares (· = false) g := by
  cases allowed : g.checkWire w with
  | error e => exact spares_of_same (by rw [outcome_connect, allowed])
  | ok _ =>
      by_cases old : w.isLoop || g.wires.contains w
      · exact spares_of_same (by rw [outcome_connect, allowed]; exact if_pos old)
      · exact spares_of_ok (by rw [outcome_connect, allowed]; exact if_neg old) (by simp)

theorem spares_disconnect (w : Wire) (g : Graph α) : (disconnect w).Spares (· = false) g := by
  by_cases there : w ∈ g.wires
  · exact spares_of_ok (outcome_disconnect w g) (by simpa using there)
  · have kept : g.wires.filter (fun other => !decide (other = w)) = g.wires := by
      rw [List.filter_eq_self]
      intro other mem
      have apart : other ≠ w := fun same => there (same ▸ mem)
      simpa using apart
    apply spares_of_same
    rw [outcome_disconnect, dropWires, kept]

theorem spares_deleteNode (id : String) (g : Graph α) : (deleteNode id).Spares (fun _ => False) g := by
  cases found : g.node id with
  | error e => exact spares_of_same (by rw [outcome_deleteNode, found])
  | ok n => exact spares_of_ok (by rw [outcome_deleteNode, found]) not_false

theorem Ledger.spares_addNode {g : Graph α} {given : List String} (h : g.Ledger given) (catalog : Catalog)
    (typeName : String) (position : Point α) (wished : Option String) :
    (Graph.addNode catalog typeName position wished).Spares (fun _ => False) g := by
  rcases h.addNode catalog typeName position wished with ⟨e, failed⟩ | ⟨id, g', added, -⟩
  · exact spares_of_same failed
  · exact spares_of_ok added not_false

end Graph

theorem Layout.spares_load (layout : Layout α) (catalog : Catalog) (g : Graph α) :
    (layout.load catalog).Spares (fun _ => False) g := by
  cases described : layout.toGraph catalog with
  | error e => exact spares_of_same (by rw [outcome_load, described])
  | ok g' => exact spares_of_ok (by rw [outcome_load, described]) not_false

theorem Session.spares_onGraph {β : Type} {refusal : β → Prop} {e : Edit (Graph α) β} {s : Session α}
    (h : e.Spares refusal s.graph) : (onGraph e).Spares refusal s := by
  intro result t ended refused
  rw [outcome_onGraph] at ended
  cases ended
  have same : (e.outcome s.graph).2 = s.graph := h _ _ rfl refused
  rw [same]

theorem Session.spares_load (layout : Layout α) (s : Session α) :
    (load layout).Spares (fun _ => False) s :=
  spares_onGraph (layout.spares_load s.catalog s.graph)

variable [Scalar α]

theorem Operation.spares (op : Operation α) (s : Session α) {given : List String}
    (h : s.graph.Ledger given) : op.run.Spares (· = .flag false) s := by
  -- Only connecting, in the graph or at the window, and disconnecting can say no without failing.
  cases op with
  | addNode typeName position wished =>
      have added := Session.spares_onGraph (h.spares_addNode s.catalog typeName position wished)
      exact added.map (f := Answer.id) nofun
  | addNodeAtWindow typeName window =>
      have added := Session.spares_onGraph
        (h.spares_addNode s.catalog typeName (s.view.toCanvas window) none)
      intro result t ended
      rw [run_addNodeAtWindow] at ended
      exact added.map (f := Answer.id) nofun result t ended
  | moveNode id position => exact (Session.spares_onGraph (Graph.spares_editNode id _ s.graph)).map nofun
  | setProperty id key value =>
      exact (Session.spares_onGraph (Graph.spares_editNode id _ s.graph)).map nofun
  | renameNode id label => exact (Session.spares_onGraph (Graph.spares_editNode id _ s.graph)).map nofun
  | connect w =>
      exact (Session.spares_onGraph (Graph.spares_connect w s.graph)).map fun _ => Answer.flag.inj
  | connectAtWindow source sourcePort window radius =>
      have connected : (Session.connectAtWindow source sourcePort window radius).Spares (· = false) s := by
        cases hit : s.hitTest (s.view.toCanvas window) .input radius with
        | none =>
            apply spares_of_same
            rw [Session.outcome_connectAtWindow, hit]
        | some port =>
            intro result t ended
            rw [Session.outcome_connectAtWindow, hit] at ended
            exact Session.spares_onGraph (Graph.spares_connect _ s.graph) result t ended
      exact connected.map fun _ => Answer.flag.inj
  | disconnect w =>
      exact (Session.spares_onGraph (Graph.spares_disconnect w s.graph)).map fun _ => Answer.flag.inj
  | disconnectAll id => exact spares_of_ok rfl nofun
  | deleteNode id => exact (Session.spares_onGraph (Graph.spares_deleteNode id s.graph)).map nofun
  | clear => exact spares_of_ok rfl nofun
  | load layout => exact (Session.spares_load layout s).map nofun
  | look motion => exact spares_of_ok rfl nofun

theorem Viewport.zoomTo_of_notFinite (v : Viewport α) (anchor : Point α) {scale : α}
    (h : Scalar.isFinite scale = false) : v.zoomTo anchor scale = v := by
  rw [zoomTo, h]
  rfl

theorem Operation.outcome_look_of_still {motion : Viewport.Motion α} {s : Session α}
    (still : motion.apply s.view = s.view) : (look motion).run.outcome s = (.ok .done, s) := by
  change (Except.ok Answer.done, { s with view := motion.apply s.view }) = _
  rw [still]

namespace Session

theorem spares_loadText (text : String) (s : Session Float) :
    (loadText text).Spares (fun _ => False) s :=
  Spares.lift_bind fun layout => spares_load layout s

/-- What fails, what is answered by `false`, and what asks for a zoom that is no finite number changes nothing
in a session: neither nodes, wires and counter nor view, shape and catalog. -/
theorem refusal_after (catalog : Catalog) (shape : NodeShape Float) (history : List (Operation Float)) :
    let s := (Session.new catalog shape).after history
    (∀ (op : Operation Float) e t, op.run.outcome s = (.error e, t) → t = s) ∧
      (∀ text e t, (loadText text).outcome s = (.error e, t) → t = s) ∧
      (∀ (op : Operation Float) t, op.run.outcome s = (.ok (.flag false), t) → t = s) ∧
      (∀ anchor scale, scale.isFinite = false →
        (Operation.look (.zoomTo anchor scale)).run.outcome s = (.ok .done, s)) ∧
      ∀ anchor factor, (s.view.scale * factor).isFinite = false →
        (Operation.look (.zoomBy anchor factor)).run.outcome s = (.ok .done, s) := by
  intro s
  have ledger : s.graph.Ledger (givenAfter (Session.new catalog shape) [] history) :=
    ledger_after history Graph.ledger_empty
  refine ⟨fun op e t failed => ?_, fun text e t failed => ?_, fun op t refused => ?_,
    fun anchor scale infinite => ?_, fun anchor factor infinite => ?_⟩
  · exact op.spares s ledger _ t failed nofun
  · exact spares_loadText text s _ t failed nofun
  · exact op.spares s ledger _ t refused fun answer same => (Except.ok.inj same).symm
  · exact Operation.outcome_look_of_still (s.view.zoomTo_of_notFinite anchor infinite)
  · exact Operation.outcome_look_of_still (s.view.zoomTo_of_notFinite anchor infinite)

theorem refusal_after_exhaustion :
    let history : List (Operation Float) :=
      [.addNode "Command" ⟨0, 0⟩ (some "node_18446744073709551615"),
        .addNode "Print Console" ⟨0, 0⟩ (some "a"), .connect ⟨"node_18446744073709551615", 0, "a", 0⟩]
    let s := (Session.new Catalog.builtin .standard).after history
    (∃ t, (Operation.addNode "Command" ⟨0, 0⟩ none).run.outcome s =
      (.error (.idsExhausted "node_18446744073709551615"), t) ∧ t = s) ∧
      (∃ e t, (loadText "no layout").outcome s = (.error e, t) ∧ t = s) ∧
      (∃ t, (Operation.connect ⟨"node_18446744073709551615", 0, "a", 0⟩).run.outcome s =
        (.ok (.flag false), t) ∧ t = s) ∧
      (Operation.look (.zoomTo ⟨0, 0⟩ (1 / 0))).run.outcome s = (.ok .done, s) ∧
      (Operation.look (.zoomBy ⟨0, 0⟩ (0 / 0))).run.outcome s = (.ok .done, s) := by
  intro history s
  obtain ⟨failed, unread, refused, zoomTo, zoomBy⟩ := refusal_after Catalog.builtin .standard history
  have exhausted : ((Operation.addNode "Command" ⟨0, 0⟩ none).run.outcome s).1 =
      .error (.idsExhausted "node_18446744073709551615") := by
    have ledger := ledger_after history (s := Session.new Catalog.builtin .standard) Graph.ledger_empty
    have spent : s.graph.nextNumber = NodeId.lastNumber := by decide +kernel
    have named : NodeId.ofNumber NodeId.lastNumber = "node_18446744073709551615" := by decide +kernel
    obtain ⟨t, known⟩ : ∃ t, s.catalog.find "Command" = .ok t := ⟨_, rfl⟩
    rw [Operation.run, Edit.outcome_map, outcome_addNode_none ledger known]
    dsimp only
    rw [spent, if_neg (Nat.lt_irrefl _), named]
    rfl
  have malformed : ((loadText "no layout").outcome s).1 = .error (.corruptLayout .malformed) := by
    have refused : Layout.parse "no layout" = .error (.corruptLayout .malformed) := by decide +kernel
    rw [loadText, Edit.outcome_lift_bind, refused]
  have drawn : ((Operation.connect ⟨"node_18446744073709551615", 0, "a", 0⟩).run.outcome s).1 =
      .ok (.flag false) := by decide +kernel
  refine ⟨⟨_, Prod.ext exhausted rfl, failed _ _ _ (Prod.ext exhausted rfl)⟩,
    ⟨_, _, Prod.ext malformed rfl, unread _ _ _ (Prod.ext malformed rfl)⟩,
    ⟨_, Prod.ext drawn rfl, refused _ _ (Prod.ext drawn rfl)⟩, zoomTo _ _ ?_, zoomBy _ _ ?_⟩
  · decide +kernel
  · decide +kernel

end Session
end FlowScript
