import FlowScript.Command.Run
import FlowScript.Proofs.Command.Running
import FlowScript.Proofs.Host.Directories
import FlowScript.Proofs.Script.Liveness

namespace FlowScript
open World

/-! ## The parts of a run -/

namespace World
variable {ε : Type} {w : World}

def hear (w : World) (messages : List (LogLevel × String)) : World := { w with log := w.log ++ messages }

theorem outcome_say (message : String) (w : World) :
    outcome (say message : ExceptT Failure (StateM World) Unit) w = (.ok (), w.hear [(.info, Text.tame message)]) := rfl

theorem outcome_warn (message : String) (w : World) :
    outcome (warn message : ExceptT Failure (StateM World) Unit) w =
      (.ok (), w.hear [(.warning, Text.tame message)]) := rfl

theorem outcome_warnings (ds : List Diagnostic) (w : World) :
    outcome (ds.forM fun d => warn d.message : ExceptT Failure (StateM World) Unit) w =
      (.ok (), w.hear (ds.map fun d => (.warning, Text.tame d.message))) := by
  induction ds generalizing w with
  | nil =>
      rw [List.map_nil, hear, List.append_nil]
      rfl
  | cons d rest ih =>
      rw [List.forM, outcome_bind, outcome_warn]
      dsimp only
      rw [ih]
      simp [hear]

end World

def Disk.hasDigest (d : Disk) (b : Bot) (path : String) : Bool :=
  match d.text path with
  | .ok text => Sha256.hex text = b.hash
  | .error _ => false

theorem World.tells_matchesFile {ε : Type} {w : World} (b : Bot) (path : String) :
    Tells w (b.matchesFile path : ExceptT ε (StateM World) Bool) (.ok (w.disk.hasDigest b path)) := by
  have read : Tells w (Host.readText path : ExceptT FileError (ExceptT ε (StateM World)) String).run
      (.ok (w.disk.text path)) := by
    have bytes : Tells w (Host.read path : ExceptT ε (StateM World) (Except FileError ByteArray))
        (.ok (w.disk.read path)) := rfl
    rw [Host.readText, Disk.text, ExceptT.run_bind]
    refine bytes.bind_ok ?_
    cases w.disk.read path with
    | error e => rfl
    | ok bytes =>
        simp only [bind, Except.bind]
        cases String.fromUTF8? bytes <;> rfl
  unfold Bot.matchesFile Disk.hasDigest
  refine read.bind_ok ?_
  cases w.disk.text path <;> rfl

namespace Compilation

def unchangedText (b : Bot) (target : String) : String :=
  "✓ " ++ target ++ " is up to date (" ++ digestText b ++ ")"

def writtenText (b : Bot) (target : String) : String :=
  "✓ " ++ target ++ " (" ++ toString b.handlers ++ " handlers, " ++ toString b.size ++ " bytes, " ++ digestText b ++ ")"

theorem outcome_writeScript (b : Bot) (target : String) (force : Bool) (w : World) :
    outcome (writeScript b target force) w =
      if !force && w.disk.hasDigest b target then (.ok (), w.hear [(.info, Text.tame (unchangedText b target))])
      else match outcome (b.save target : ExceptT Error (StateM World) Unit) w with
        | (.ok (), w') => (.ok (), w'.hear [(.info, Text.tame (writtenText b target))])
        | (.error e, w') => (.error (.error (some (.writeFile target)) e), w') := by
  have saving : outcome (do
      during (.writeFile target) (b.save target)
      say (writtenText b target) : ExceptT Failure (StateM World) Unit) w =
        match outcome (b.save target : ExceptT Error (StateM World) Unit) w with
        | (.ok (), w') => (.ok (), w'.hear [(.info, Text.tame (writtenText b target))])
        | (.error e, w') => (.error (.error (some (.writeFile target)) e), w') := by
    rw [outcome_bind, during, outcome_adapt]
    cases outcome (b.save target : ExceptT Error (StateM World) Unit) w with
    | mk result w' => cases result <;> rfl
  rw [writeScript, outcome_bind, tells_matchesFile]
  dsimp only
  split
  · rfl
  · exact saving

theorem saved_of_save {b : Bot} {target : String} {w w' : World}
    (ended : outcome (b.save target : ExceptT Error (StateM World) Unit) w = (.ok (), w')) :
    ∃ place disk, w' = { w with disk } ∧ Disk.Saved target b.source.toUTF8 place w.disk disk := by
  -- The write is the same whether directories had to be made for it or not.
  have written {v : World} (built : Builds w v)
      (ended : outcome (fileStep (Host.writeText target b.source) : ExceptT Error (StateM World) Unit) v = (.ok (), w')) :
      ∃ place disk, w' = { w with disk } ∧ Disk.Saved target b.source.toUTF8 place w.disk disk := by
    obtain ⟨disk, rfl, furnished⟩ := built
    rw [fileStep, outcome_adapt, outcome_writeText] at ended
    dsimp only at ended
    cases write : disk.write target b.source.toUTF8 with
    | error e =>
        rw [write] at ended
        cases ended
    | ok disk' =>
        rw [write] at ended
        cases ended
        obtain ⟨place, saved⟩ := furnished.saved write
        exact ⟨place, disk', rfl, saved⟩
  unfold Bot.save at ended
  cases above : Path.parent? target with
  | none =>
      rw [above] at ended
      exact written (.refl w) ended
  | some parent =>
      rw [above] at ended
      dsimp only at ended
      rw [outcome_bind] at ended
      have built := builds_makeDirectoriesWithin (parent.length + 1) parent w
      have made : outcome (fileStep (Host.makeDirectories parent) : ExceptT Error (StateM World) Unit) w = _ :=
        outcome_adapt Error.file (Host.makeDirectoriesWithin (parent.length + 1) parent) w
      rw [made] at ended
      cases done : outcome
          (Host.makeDirectoriesWithin (parent.length + 1) parent : ExceptT FileError (StateM World) Unit) w with
      | mk result v =>
          rw [done] at ended built
          cases result with
          | error e => cases ended
          | ok _ => exact written built ended

def openingMessages (ws : Workspace) (b : Bot) : List (LogLevel × String) :=
  (.info, Text.tame ("Compiling " ++ ws.project.layoutPath)) ::
    b.diagnostics.map fun d => (.warning, Text.tame d.message)

variable {path : String} {output : Option String} {debug force : Bool} {w : World} {ws : Workspace} {b : Bot}

theorem outcome_run (held : w.disk.workspace path = .ok ws)
    (compiled : Script.compile ⟨ws.project.file.settings, debug⟩ ws.session.graph ws.session.catalog = .ok b) :
    outcome (run path output debug force) w =
      outcome (writeScript b (output.getD ws.project.outputPath) force) (w.hear (openingMessages ws b)) := by
  have loaded : outcome (Workspace.loadFrom path) w = _ := tells_workspace path
  rw [run, outcome_bind, loaded, held]
  dsimp only
  rw [outcome_bind, outcome_say]
  dsimp only
  rw [compiled]
  dsimp only
  rw [outcome_bind, outcome_warnings]
  simp [hear, openingMessages]

theorem done_of_run {w' : World} (ended : outcome (run path output debug force) w = (.ok (), w')) :
    ∃ ws b, w.disk.workspace path = .ok ws ∧
      Script.compile ⟨ws.project.file.settings, debug⟩ ws.session.graph ws.session.catalog = .ok b ∧
      ((force = false ∧ w.disk.hasDigest b (output.getD ws.project.outputPath) = true ∧ w'.disk = w.disk) ∨
        ((force = true ∨ w.disk.hasDigest b (output.getD ws.project.outputPath) = false) ∧
          ∃ place, Disk.Saved (output.getD ws.project.outputPath) b.source.toUTF8 place w.disk w'.disk)) := by
  have loaded : outcome (Workspace.loadFrom path) w = _ := tells_workspace path
  cases held : w.disk.workspace path with
  | error e =>
      rw [run, outcome_bind, loaded, held] at ended
      cases ended
  | ok ws =>
      cases compiled : Script.compile ⟨ws.project.file.settings, debug⟩ ws.session.graph ws.session.catalog with
      | error e =>
          rw [run, outcome_bind, loaded, held] at ended
          dsimp only at ended
          rw [outcome_bind, outcome_say] at ended
          dsimp only at ended
          rw [compiled] at ended
          cases ended
      | ok b =>
          refine ⟨ws, b, rfl, compiled, ?_⟩
          rw [outcome_run held compiled, outcome_writeScript] at ended
          split at ended
          · rename_i found
            cases ended
            simp only [Bool.and_eq_true, Bool.not_eq_true'] at found
            exact .inl ⟨found.1, found.2, rfl⟩
          · rename_i stale
            simp only [Bool.and_eq_true, Bool.not_eq_true', not_and, Bool.not_eq_true] at stale
            cases saved : outcome (b.save (output.getD ws.project.outputPath) : ExceptT Error (StateM World) Unit)
                (w.hear (openingMessages ws b)) with
            | mk result v =>
                rw [saved] at ended
                cases result with
                | error e => cases ended
                | ok _ =>
                    cases ended
                    obtain ⟨place, disk, rfl, there⟩ := saved_of_save saved
                    refine .inr ⟨?_, place, there⟩
                    cases force with
                    | true => exact .inl rfl
                    | false => exact .inr (stale rfl)

end Compilation

/-! ## The output -/

namespace Disk
variable {d d' : Disk} {path text : String} {place : Location}

theorem read_eq_ok_iff : d.read path = .ok text.toUTF8 ↔ d.text path = .ok text := by
  rw [text_eq_ok, Disk.read, Result.bind_eq_ok]
  constructor
  · rintro ⟨⟨place, entry⟩, found, got⟩
    cases entry with
    | directory => cases got
    | file bytes =>
        cases got
        exact ⟨place, _, found, dif_pos text.isValidUTF8⟩
  · rintro ⟨place, bytes, found, decoded⟩
    refine ⟨_, found, ?_⟩
    unfold String.fromUTF8? at decoded
    split at decoded
    · cases decoded
      rfl
    · cases decoded

theorem hasDigest_of_text {b : Bot} (own : b.hash = Sha256.hex b.source) (read : d.text path = .ok b.source) :
    d.hasDigest b path = true := by
  rw [hasDigest, read, own]
  exact decide_eq_true rfl

theorem exists_text_of_hasDigest {b : Bot} (found : d.hasDigest b path = true) :
    ∃ text, d.text path = .ok text ∧ Sha256.hex text = b.hash := by
  unfold hasDigest at found
  split at found
  · rename_i text read
    exact ⟨text, read, of_decide_eq_true found⟩
  · cases found

def inputs (d : Disk) (path : String) (p : Project) : List String :=
  (d.locate path).1 :: p.layoutPath :: (p.file.catalog.map (Path.join p.base)).toList

theorem Grown.workspace (h : Grown place d d') {ws : Workspace} (opened : d.workspace path = .ok ws)
    (others : ∀ file ∈ d.inputs path ws.project, d'.resolve file ≠ .ok place)
    (away : d.kind? ws.project.layoutPath = none → d'.kind? ws.project.layoutPath = none) :
    d'.workspace path = .ok ws := by
  have differs (file : String) (input : file ∈ d.inputs path ws.project) : d.resolve file ≠ .ok place :=
    fun same => others file input (h.resolve same)
  have held := holds_of_workspace opened
  rw [workspace_of_project held.project held.catalog] at opened
  obtain ⟨session, loaded, same⟩ := Result.map_eq_ok.1 opened
  have project := h.project held.project (differs _ (by simp [inputs]))
  have catalog := h.catalog held.catalog fun own given => differs _ (by simp [inputs, Option.mem_def.1 given])
  rw [workspace_of_project project catalog, h.session loaded (differs _ (by simp [inputs])) away]
  exact congrArg Except.ok same

end Disk

/-- A run that compiles and succeeds leaves the script of the layout that was stored in its output, and nothing but
that file and the directories above it has changed. Without force the output is left alone exactly if it held the script
before. Then a second run has nothing to do, if the output is none of the files of the project, and if the layout was
there before the run or is not there after it. Of the digest it is assumed that it tells the text in the output
from the script. -/
theorem Invocation.current_compile (path : String) (output : Option String) (debug force : Bool) {w w' : World}
    (ran : outcome (run ⟨path, .compile output debug force⟩) w = (.ok (), w')) :
    ∃ ws bot, LayoutEdit.Opened path w ws ∧
      Script.compile ⟨ws.project.file.settings, debug⟩ ws.session.graph ws.session.catalog = .ok bot ∧
      let target := output.getD ws.project.outputPath
      let script := bot.source.toUTF8
      ((∀ text, w.disk.text target = .ok text → Sha256.hex text = Sha256.hex bot.source → text = bot.source) →
        w'.disk.read target = .ok script ∧
        (∀ place, w'.disk.resolve target ≠ .ok place → w'.disk.lookup place = w.disk.lookup place ∨
          w.disk.lookup place = none ∧ w'.disk.lookup place = some .directory) ∧
        (force = false → (w'.disk = w.disk ↔ w.disk.read target = .ok script)) ∧
        ((∀ file ∈ w.disk.inputs path ws.project, w'.disk.resolve file ≠ w'.disk.resolve target) →
          (w.disk.kind? ws.project.layoutPath = none → w'.disk.kind? ws.project.layoutPath = none) →
          ∃ w'', outcome (run ⟨path, .compile output debug false⟩) w' = (.ok (), w'') ∧ w''.disk = w'.disk)) := by
  change outcome (Compilation.run path output debug force) w = (.ok (), w') at ran
  obtain ⟨ws, bot, held, compiled, course⟩ := Compilation.done_of_run ran
  have digest : bot.hash = Sha256.hex bot.source := Script.hash_of_compile compiled
  refine ⟨ws, bot, LayoutEdit.opened_of_workspace held, compiled, ?_⟩
  intro target script unique
  have current : w.disk.hasDigest bot target = true → w.disk.text target = .ok bot.source := by
    intro found
    obtain ⟨text, read, same⟩ := Disk.exists_text_of_hasDigest found
    exact unique text read (same.trans digest) ▸ read
  have again (opened : w'.disk.workspace path = .ok ws) (written : w'.disk.read target = .ok script) :
      ∃ w'', outcome (run ⟨path, .compile output debug false⟩) w' = (.ok (), w'') ∧ w''.disk = w'.disk := by
    refine ⟨(w'.hear (Compilation.openingMessages ws bot)).hear
      [(.info, Text.tame (Compilation.unchangedText bot target))], ?_, rfl⟩
    change outcome (Compilation.run path output debug false) w' = _
    rw [Compilation.outcome_run opened compiled, Compilation.outcome_writeScript]
    exact if_pos (Disk.hasDigest_of_text digest (Disk.read_eq_ok_iff.1 written))
  rcases course with ⟨-, found, same⟩ | ⟨stale, place, saved⟩
  · have written : w.disk.read target = .ok script := Disk.read_eq_ok_iff.2 (current found)
    refine ⟨same ▸ written, fun place _ => .inl (by rw [same]), fun _ => ⟨fun _ => written, fun _ => same⟩,
      fun _ _ => again (same ▸ held) (same ▸ written)⟩
  · refine ⟨saved.read, fun other apart => ?_, fun quiet => ⟨fun same => same ▸ saved.read, fun written => ?_⟩,
      fun others away => again (saved.grown.workspace held (fun file input same => ?_) away) saved.read⟩
    · refine saved.grown.elsewhere other ?_
      rintro rfl
      exact apart saved.resolved
    · -- The output had the digest of the script then, so that nothing was written without force.
      rcases stale with forced | stale
      · exact absurd (quiet.symm.trans forced) Bool.false_ne_true
      · rw [Disk.hasDigest_of_text digest (Disk.read_eq_ok_iff.1 written)] at stale
        cases stale
    · exact others file input (same.trans saved.resolved.symm)

theorem Invocation.current_compile_new :
    let w : World := ⟨⟨[(["botwire.yaml"], .file "name: small\noutput: build/bot.py\n".toUTF8)], []⟩, []⟩
    ∃ w' w'' bot, outcome (run ⟨"botwire.yaml", .compile none false true⟩) w = (.ok (), w') ∧
      Script.compile {} (Graph.empty : Graph Float) Catalog.builtin = .ok bot ∧
      w.disk.kind? "build" = none ∧ w'.disk.read "build/bot.py" = .ok bot.source.toUTF8 ∧
      outcome (run ⟨"botwire.yaml", .compile none false false⟩) w' = (.ok (), w'') ∧ w''.disk = w'.disk := by
  intro w
  let w' := (outcome (run ⟨"botwire.yaml", .compile none false true⟩) w).2
  have ended : outcome (run ⟨"botwire.yaml", .compile none false true⟩) w = (.ok (), w') :=
    Result.end_of_result (by decide +kernel)
  obtain ⟨ws, bot, opened, compiled, rest⟩ := current_compile "botwire.yaml" none false true ended
  let small : Workspace := ⟨⟨⟨"small", "0.1.0", "layout.json", "build/bot.py", none, {}, .standard⟩, ""⟩,
    Session.new .builtin .standard⟩
  have held : w.disk.workspace "botwire.yaml" = .ok small := by decide +kernel
  obtain rfl : small = ws :=
    Except.ok.inj (held.symm.trans (congrArg Prod.fst ((tells_workspace "botwire.yaml").symm.trans opened.loaded)))
  have target : small.project.outputPath = "build/bot.py" := by decide +kernel
  have absent : w.disk.text "build/bot.py" = .error .notFound := by decide +kernel
  dsimp only [Option.getD_none] at rest
  rw [target] at rest
  obtain ⟨written, -, -, again⟩ := rest fun text read => by rw [absent] at read; cases read
  obtain ⟨w'', ended', same⟩ := again (by decide +kernel) fun _ => by decide +kernel
  exact ⟨w', w'', bot, ended, compiled, by decide +kernel, written, ended', same⟩

/-- The layout is not there, and the directory that is made for the output takes its place. -/
theorem Invocation.unreadable_after_compile :
    let w : World := ⟨⟨[(["botwire.yaml"], .file "name: small\nlayout: out\noutput: out/bot.py\n".toUTF8)], []⟩, []⟩
    let compile : Invocation := ⟨"botwire.yaml", .compile none false false⟩
    ∃ w' p, outcome compile.run w = (.ok (), w') ∧ w.disk.project "botwire.yaml" = .ok p ∧
      p.outputPath = "out/bot.py" ∧
      (∀ file ∈ w.disk.inputs "botwire.yaml" p, w'.disk.resolve file ≠ w'.disk.resolve "out/bot.py") ∧
      outcome compile.run w' = (.error (.error (some (.readLayout "out")) (.file .isDirectory)), w') := by
  intro w compile
  let p : Project := ⟨⟨"small", "0.1.0", "out", "out/bot.py", none, {}, .standard⟩, ""⟩
  have ended : outcome compile.run w = (.ok (), (outcome compile.run w).2) := Result.end_of_result (by decide +kernel)
  have read : w.disk.project "botwire.yaml" = .ok p := by decide +kernel
  refine ⟨_, p, ended, read, by decide +kernel, by decide +kernel, ?_⟩
  have unread : (outcome compile.run w).2.disk.workspace "botwire.yaml" =
    .error (.error (some (.readLayout "out")) (.file .isDirectory)) := by decide +kernel
  have loaded : outcome (Workspace.loadFrom "botwire.yaml") (outcome compile.run w).2 = _ :=
    tells_workspace "botwire.yaml"
  change outcome (Compilation.run "botwire.yaml" none false false) _ = _
  rw [Compilation.run, outcome_bind, loaded, unread]

end FlowScript
