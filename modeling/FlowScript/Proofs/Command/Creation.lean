import FlowScript.Command.Run
import FlowScript.Proofs.Command.Loading
import FlowScript.Proofs.Host.Directories
import FlowScript.Proofs.Host.Path
import FlowScript.Proofs.Project.Name

namespace FlowScript
open World

namespace Disk
variable {d d' : Disk} {path name : String} {top : Location} {bytes : ByteArray}

theorem placed_of_write {entry : DiskEntry} (found : d.find path = .ok (top, entry)) (proper : Path.IsName name)
    (written : d.write (Path.join path name) bytes = .ok d') :
    d'.find path = .ok (top, .directory) ∧ Apart (top ++ [name]) d d' ∧
      d'.lookup (top ++ [name]) = some (.file bytes) := by
  obtain ⟨place, there, apart, file⟩ := rewritten_of_write written
  obtain ⟨resolved, own⟩ := find_eq_ok.1 found
  have directory : d.lookup top = some .directory :=
    directory_of_enter ((resolve_join_eq resolved proper).symm.trans there)
  obtain rfl : top ++ [name] = place := Except.ok.inj ((resolve_join resolved directory proper).symm.trans there)
  exact ⟨apart.grown.find (find_eq_ok.2 ⟨resolved, directory⟩) (by simp), apart, file⟩

end Disk

namespace Creation
variable {path name : String} {given : Option String} {w w' : World}

/-! ## The parts of a run -/

def tellCreated (path absolute name : String) : ExceptT Failure (StateM World) Unit := do
  say ("✓ Created project '" ++ name ++ "' at " ++ absolute)
  say ""
  say "Next steps:"
  if path ≠ "." then say ("  cd " ++ path)
  say "  botwire show        # Inspect the layout"
  say "  botwire compile     # Write bot.py"

def fill (path : String) (given : Option String) : ExceptT Failure (StateM World) Unit := do
  let absolute ← fileWork (ExceptT.mk (Host.canonical path))
  let name ← nameFor absolute given
  if ← Host.exists? (Path.join path Project.fileName) then throw (.projectExists path Project.fileName)
  say ("Creating new Botwire project: " ++ name)
  writeFiles path name
  tellCreated path absolute name

theorem run_eq (path : String) (given : Option String) :
    run path given = (do
      unless ← Host.exists? path do fileWork (Host.makeDirectories path)
      fill path given) :=
  rfl

theorem disk_of_say {message : String}
    (ended : outcome (say message : ExceptT Failure (StateM World) Unit) w = (.ok (), w')) : w'.disk = w.disk := by
  cases ended
  rfl

theorem disk_of_tellCreated {absolute : String} (ended : outcome (tellCreated path absolute name) w = (.ok (), w')) :
    w'.disk = w.disk := by
  unfold tellCreated at ended
  by_cases here : path = "."
  · simp only [here, ne_eq, not_true_eq_false, if_false] at ended
    cases ended
    rfl
  · simp only [here, ne_eq, not_false_eq_true, if_true] at ended
    cases ended
    rfl

theorem filled_of_run (ended : outcome (run path given) w = (.ok (), w')) :
    ∃ v, outcome (fill path given) v = (.ok (), w') := by
  rw [run_eq] at ended
  obtain ⟨there, v, -, ended⟩ := outcome_bind_eq_ok.1 ended
  cases there with
  | true => exact ⟨v, ended⟩
  | false =>
      obtain ⟨⟨⟩, made, -, ended⟩ := outcome_bind_eq_ok.1 ended
      exact ⟨made, ended⟩

def Written (path name : String) (d d' : Disk) : Prop :=
  ∃ d₁ d₂, d.write (Path.join path Project.fileName) (ProjectFile.initialText name).toUTF8 = .ok d₁ ∧
    d₁.write (Path.join path "layout.json") sampleLayout.print.toUTF8 = .ok d₂ ∧
    d₂.write (Path.join path ".gitignore") ignored.toUTF8 = .ok d'

theorem written_of_writeFiles (ended : outcome (writeFiles path name) w = (.ok (), w')) :
    Written path name w.disk w'.disk := by
  obtain ⟨⟨⟩, v₁, first, ended⟩ := outcome_bind_eq_ok.1 ended
  obtain ⟨⟨⟩, v₂, second, third⟩ := outcome_bind_eq_ok.1 ended
  obtain ⟨d₁, written, rfl⟩ := outcome_writeText_eq_ok.1 (outcome_adapt_eq_ok.1 first)
  obtain ⟨d₂, written', rfl⟩ :=
    outcome_writeText_eq_ok.1 (outcome_adapt_eq_ok.1 (outcome_adapt_eq_ok.1 second))
  obtain ⟨d₃, written'', rfl⟩ := outcome_writeText_eq_ok.1 (outcome_adapt_eq_ok.1 third)
  exact ⟨d₁, d₂, written, written', written''⟩

theorem tells_canonical (path : String) :
    Tells w (fileWork (ExceptT.mk (Host.canonical path)) : ExceptT Failure (StateM World) String)
      ((w.disk.canonical path).mapError .file) := rfl

theorem tells_nameFor (absolute : String) :
    Tells w (nameFor absolute given : ExceptT Failure (StateM World) String)
      (match given <|> Path.fileName? absolute with
        | some name => .ok name
        | none => .error .nameless) := by
  unfold nameFor
  cases given <|> Path.fileName? absolute <;> rfl

theorem written_of_fill (ended : outcome (fill path given) w = (.ok (), w')) :
    ∃ top entry name, w.disk.find path = .ok (top, entry) ∧
      (given <|> Path.fileName? (Disk.pathOf top)) = some name ∧ Written path name w.disk w'.disk := by
  obtain ⟨absolute, canonical, ended⟩ := (tells_canonical path).bind_eq_ok ended
  obtain ⟨⟨top, entry⟩, there, root⟩ := Result.bind_eq_ok.1 (Result.mapError_eq_ok.1 canonical)
  cases root
  obtain ⟨name, named, ended⟩ := (tells_nameFor _).bind_eq_ok ended
  obtain ⟨taken, -, ended⟩ := (tells_exists? _).bind_eq_ok ended
  refine ⟨top, entry, name, there, ?_, ?_⟩
  · cases own : given <|> Path.fileName? (Disk.pathOf top) <;> rw [own] at named <;> cases named
    rfl
  · cases taken with
    | true =>
        obtain ⟨_, _, thrown, _⟩ := outcome_bind_eq_ok.1 ended
        cases thrown
    | false =>
        obtain ⟨⟨⟩, v, said, ended⟩ := outcome_bind_eq_ok.1 ended
        obtain ⟨⟨⟩, v', wrote, ended⟩ := outcome_bind_eq_ok.1 ended
        have written := written_of_writeFiles wrote
        rwa [disk_of_say said, ← disk_of_tellCreated ended] at written

/-! ## The project -/

variable {d d' : Disk} {top : Location} {entry : DiskEntry}

theorem Written.text (h : Written path name d d') (found : d.find path = .ok (top, entry)) :
    d'.find path = .ok (top, .directory) ∧
      d'.text (Path.join path Project.fileName) = .ok (ProjectFile.initialText name) := by
  obtain ⟨d₁, d₂, written, written', written''⟩ := h
  obtain ⟨found₁, -, file⟩ := Disk.placed_of_write found (by decide) written
  obtain ⟨found₂, apart, -⟩ := Disk.placed_of_write found₁ (by decide) written'
  obtain ⟨found₃, apart', -⟩ := Disk.placed_of_write found₂ (by decide) written''
  refine ⟨found₃, Disk.text_eq_ok.2 ⟨top ++ [Project.fileName],
    (ProjectFile.initialText name).toUTF8, Disk.find_eq_ok.2 ⟨?_, ?_⟩, ?_⟩⟩
  · obtain ⟨resolved, directory⟩ := Disk.find_eq_ok.1 found₃
    exact Disk.resolve_join resolved directory (by decide)
  · rw [apart'.elsewhere _ (by simp [Project.fileName]), apart.elsewhere _ (by simp [Project.fileName]), file]
  · exact dif_pos (ProjectFile.initialText name).isValidUTF8

theorem Written.project (h : Written path name d d') (found : d.find path = .ok (top, entry)) :
    d'.project path = (ProjectFile.parse (ProjectFile.initialText name)).map (⟨·, path⟩) := by
  obtain ⟨directory, text⟩ := h.text found
  have located : d'.locate path = (Path.join path Project.fileName, path) :=
    if_pos (Disk.kind?_of_find directory)
  simp only [Disk.project, located, Disk.settingsText_eq_ok.2 text, bind, Except.bind]
  generalize ProjectFile.parse (ProjectFile.initialText name) = parsed
  cases parsed <;> rfl

end Creation

/-! ## The statement -/

/-- A run that makes a project ends with a project file for its name, which is the given one or that of the directory.
The project is loaded with this name and the settings of a new project exactly if the name is empty or can be written
plainly on one line; nothing else is loaded with this name. -/
theorem Invocation.project_creation {project path : String} {given : Option String} {w w' : World}
    (ended : outcome (run ⟨project, .create path given⟩) w = (.ok (), w')) :
    ∃ top name, w'.disk.find path = .ok (top, .directory) ∧
      (given <|> Path.fileName? (Disk.pathOf top)) = some name ∧
      w'.disk.text (Path.join path Project.fileName) = .ok (ProjectFile.initialText name) ∧
      (outcome (Project.loadFrom path) w' = (.ok ⟨.initial name, path⟩, w') ↔
        name = "" ∨ Yaml.isPlainLine name.toList) ∧
      ∀ p : Project, outcome (Project.loadFrom path) w' = (.ok p, w') → p.file.name = name →
        p = ⟨.initial name, path⟩ := by
  obtain ⟨v, filled⟩ := Creation.filled_of_run ended
  obtain ⟨top, entry, name, found, named, written⟩ := Creation.written_of_fill filled
  obtain ⟨directory, text⟩ := written.text found
  -- What is loaded is what the text of the project file says.
  have loaded (p : Project) : outcome (Project.loadFrom path) w' = (.ok p, w') ↔
      ProjectFile.parse (ProjectFile.initialText name) = .ok p.file ∧ p.base = path := by
    rw [show outcome (Project.loadFrom path) w' = (w'.disk.project path, w') from tells_project path,
      written.project found]
    cases ProjectFile.parse (ProjectFile.initialText name) with
    | error => simp [Except.map]
    | ok file =>
        obtain ⟨file', base⟩ := p
        simp [Except.map, eq_comm]
  refine ⟨top, name, directory, named, text, ?_, fun p load same => ?_⟩
  · rw [loaded]
    exact (and_iff_left rfl).trans (ProjectFile.parse_initialText name)
  · obtain ⟨read, base⟩ := (loaded p).1 load
    have whole := (ProjectFile.parse_initialText name).2 (ProjectFile.isPlainLine_of_parse read same)
    obtain ⟨file, base'⟩ := p
    cases base
    cases read.symm.trans whole
    rfl

theorem Invocation.project_creation_words :
    let w : World := ⟨⟨[], []⟩, []⟩
    let create : Invocation := ⟨"botwire.yaml", .create "p" (some "my bot")⟩
    ∃ w', outcome create.run w = (.ok (), w') ∧
      outcome (Project.loadFrom "p") w' = (.ok ⟨.initial "my bot", "p"⟩, w') := by
  intro w create
  obtain ⟨w', ended⟩ : ∃ w', outcome create.run w = (.ok (), w') := ⟨_, Result.end_of_result (by decide +kernel)⟩
  obtain ⟨top, name, -, named, -, loads, -⟩ := project_creation ended
  cases named
  exact ⟨w', ended, loads.2 (.inr (by decide))⟩

/-- A colon and a blank in the name are taken for a key. -/
theorem Invocation.unread_after_creation :
    let w : World := ⟨⟨[], []⟩, []⟩
    let create : Invocation := ⟨"botwire.yaml", .create "p" (some "a: b")⟩
    ∃ w', outcome create.run w = (.ok (), w') ∧
      outcome (Project.loadFrom "p") w' = (.error .settingsUnreadable, w') := by
  intro w create
  obtain ⟨w', ended⟩ : ∃ w', outcome create.run w = (.ok (), w') := ⟨_, Result.end_of_result (by decide +kernel)⟩
  have unread : Yaml.tokenize? (ProjectFile.initialText "a: b") = none := by
    rw [ProjectFile.tokenize?_initialText]
    decide +kernel
  obtain ⟨v, filled⟩ := Creation.filled_of_run ended
  obtain ⟨top, entry, name, found, named, written⟩ := Creation.written_of_fill filled
  obtain rfl : "a: b" = name := Option.some.inj named
  refine ⟨w', ended, ?_⟩
  rw [show outcome (Project.loadFrom "p") w' = (w'.disk.project "p", w') from tells_project "p",
    written.project found, ProjectFile.parse_untokenized unread]
  rfl

end FlowScript
