import FlowScript.Proofs.Script.LongestRun
import FlowScript.Proofs.Script.Warnings
import FlowScript.Proofs.Session.Soundness

/-!
# Compiling a session

Whatever the history of a session, its graph can be walked, analysed and compiled over its catalog
(`Session.defined_after`), its chains are the longest runs of successors (`Session.chain_after`), the script is the
one that its events and their successors demand (`Session.source_after`), and the warnings are the ones that the graph
deserves (`Session.warnings_after`).
-/

namespace FlowScript.Session

variable {α : Type} [Scalar α]

theorem sound_own (catalog : Catalog) (shape : NodeShape α) (history : List (Operation α)) :
    ((Session.new catalog shape).after history).graph.Sound
      ((Session.new catalog shape).after history).catalog := by
  obtain ⟨known, sound⟩ := sound_history catalog shape history
  rw [known]
  exact sound

/-- No look-up of a type or of a node fails, and a walk ends after as many steps as there are nodes. -/
theorem defined_after (catalog : Catalog) (shape : NodeShape α) (history : List (Operation α)) :
    let s := (Session.new catalog shape).after history
    (∃ roots, Chain.roots s.graph s.catalog = .ok roots) ∧
      (∀ start, ∃ chain, Chain.ofNode s.graph start = .ok chain ∧
        chain.steps.length ≤ s.graph.nodes.length) ∧
      (∃ warnings, Diagnostic.analyze s.graph s.catalog = .ok warnings) ∧
      ∀ o, ∃ bot, Script.compile o s.graph s.catalog = .ok bot := by
  intro s
  have sound : s.graph.Sound s.catalog := sound_own catalog shape history
  refine ⟨?_, fun start => ?_, Diagnostic.analyze_ok sound, Script.compile_ok sound⟩
  · obtain ⟨roots, events, -⟩ := Chain.roots_ok sound
    exact ⟨roots, events⟩
  · obtain ⟨chain, walked⟩ := Chain.ofNode_ok sound start
    exact ⟨chain, walked, (Chain.succession_ofNode walked).length_le⟩

/-- From wherever a chain starts, it ends, and its steps are the longest run of different successors. -/
theorem chain_after (catalog : Catalog) (shape : NodeShape α) (history : List (Operation α)) (root : Node α) :
    let g := ((Session.new catalog shape).after history).graph
    ∃ chain, Chain.ofNode g root = .ok chain ∧ chain.root = root ∧ Chain.IsLongestRun g chain :=
  Chain.isLongestRun_ofNode (sound_own catalog shape history) root

/-- A session compiles to the one text that the reference admits, with one handler for each event. -/
theorem source_after (catalog : Catalog) (shape : NodeShape α) (history : List (Operation α))
    (o : Script.Options) :
    let s := (Session.new catalog shape).after history
    ∃ bot, Script.compile o s.graph s.catalog = .ok bot ∧
      (∀ source, Script.IsSource o s.graph s.catalog source ↔ source = bot.source) ∧
      bot.handlers = s.graph.nodes.countP (Script.isEvent s.catalog) := by
  intro s
  have sound : s.graph.Sound s.catalog := sound_own catalog shape history
  obtain ⟨bot, compiled⟩ := Script.compile_ok sound o
  exact ⟨bot, compiled, Script.isSource_iff sound compiled, (Script.isSource_of_compile sound compiled).2⟩

/-- The analysis gives exactly the warnings that the graph deserves, in their order. -/
theorem warnings_after (catalog : Catalog) (shape : NodeShape α) (history : List (Operation α)) :
    let s := (Session.new catalog shape).after history
    ∃ warnings, Diagnostic.analyze s.graph s.catalog = .ok warnings ∧
      Diagnostic.Exact s.graph s.catalog warnings := by
  intro s
  have sound : s.graph.Sound s.catalog := sound_own catalog shape history
  obtain ⟨warnings, analyzed⟩ := Diagnostic.analyze_ok sound
  exact ⟨warnings, analyzed, Diagnostic.analyze_exact sound analyzed⟩

end FlowScript.Session
