import FlowScript.Proofs.Command.Loading
import FlowScript.Proofs.Host.Listing
import FlowScript.Script.File

namespace FlowScript
open World

/-- The tree has a file with these bytes at the place, and the file's name has the extension of layouts. -/
def FileTree.LayoutAt (tree : FileTree) (place : Location) (bytes : ByteArray) : Prop :=
  tree.find? place = some (.file bytes) ∧
    ∃ name, place.getLast? = some name ∧ Path.HasExtension Script.layoutExtension name

namespace Script
variable {w : World} {path : String} {top : Location} {tree : FileTree}

/-! ## One layout -/

def layoutOfBytes (bytes : ByteArray) : Except Error (Layout Float) :=
  match String.fromUTF8? bytes with
  | some text => Layout.parse text
  | none => .error (.file .invalidText)

def compileBytes (o : Options) (catalog : Catalog) (bytes : ByteArray) : Except Error Bot := do
  compile o (← (← layoutOfBytes bytes).toGraph catalog) catalog

theorem layout_of_find {d : Disk} {place : Location} {bytes : ByteArray}
    (found : d.find path = .ok (place, .file bytes)) : d.layout path = layoutOfBytes bytes := by
  rw [Disk.layout, Disk.text, Disk.read, found, layoutOfBytes]
  simp only [bind, Except.bind]
  cases String.fromUTF8? bytes <;> rfl

theorem tells_compileFile (o : Options) (catalog : Catalog) {place : Location} {bytes : ByteArray}
    (found : w.disk.find path = .ok (place, .file bytes)) :
    Tells w (compileFile o catalog path : ExceptT Error (StateM World) Bot) (compileBytes o catalog bytes) := by
  have loaded : Tells w (Layout.loadFrom path : ExceptT Error (StateM World) _) (layoutOfBytes bytes) :=
    layout_of_find found ▸ tells_layout path
  refine loaded.bind fun layout => ?_
  cases layout.toGraph catalog with
  | error e => rfl
  | ok g =>
      dsimp only [bind, Except.bind]
      cases compile o g catalog <;> rfl

/-! ## All of them -/

def layoutsBelow (path : String) (tree : FileTree) : List Location :=
  tree.walk.filter fun place => Path.extension? (Path.within path place) = some layoutExtension

theorem undotted_layoutExtension : '.' ∉ layoutExtension.toList := by decide

theorem mem_layoutsBelow (filled : path ≠ "") (directory : tree.find? [] = some .directory) {place : Location} :
    place ∈ layoutsBelow path tree ↔ ∃ bytes, tree.LayoutAt place bytes := by
  rw [layoutsBelow, List.mem_filter, FileTree.mem_walk, decide_eq_true_eq]
  have extension {bytes : ByteArray} (file : tree.find? place = some (.file bytes)) :
      Path.extension? (Path.within path place) = some layoutExtension ↔
        ∃ name, place.getLast? = some name ∧ Path.HasExtension layoutExtension name := by
    have below : place ≠ [] := by
      rintro rfl
      rw [directory] at file
      cases file
    exact Path.extension?_within undotted_layoutExtension (FileTree.names_proper file) below filled
  constructor
  · rintro ⟨⟨bytes, file⟩, has⟩
    exact ⟨bytes, file, (extension file).1 has⟩
  · rintro ⟨bytes, file, has⟩
    exact ⟨⟨bytes, file⟩, (extension file).2 has⟩

theorem layoutsBelow_ascending (path : String) (tree : FileTree) : (layoutsBelow path tree).Pairwise Location.Before :=
  tree.walk_ascending.filter _

theorem paths_ascending (filled : path ≠ "") (directory : tree.find? [] = some .directory) :
    ((layoutsBelow path tree).map (Path.within path)).Pairwise Path.Before := by
  obtain ⟨start, names⟩ := Path.names_within filled
  have named : ∀ place ∈ layoutsBelow path tree, Disk.namesOf (Path.within path place) = start ++ place := by
    intro place mem
    obtain ⟨bytes, file, name, last, -⟩ := (mem_layoutsBelow filled directory).1 mem
    exact names place (by rintro rfl; cases last) (FileTree.names_proper file)
  rw [List.pairwise_map]
  refine (layoutsBelow_ascending path tree).imp_of_mem fun {place other} mem mem' before => ?_
  rw [Path.Before, named place mem, named other mem']
  exact List.Lex.append_left _ before start

theorem tells_sortedFiles (single : w.disk.Single) (carried : w.disk.Carries path top tree) :
    Tells w (Host.sortedFilesBelow path : ExceptT Error (StateM World) (List String))
      (.ok (tree.walk.map (Path.within path))) := by
  rw [← carried.sorted_files single]
  rfl

theorem tells_compileBelow (o : Options) (catalog : Catalog) (single : w.disk.Single)
    (carried : w.disk.Carries path top tree) (directory : tree.find? [] = some .directory)
    {k : Location → Except Error Bot}
    (each : ∀ place bytes, tree.LayoutAt place bytes → k place = compileBytes o catalog bytes) :
    Tells w (compileBelow o catalog path : ExceptT Error (StateM World) _)
      ((layoutsBelow path tree).mapM fun place => (k place).map (Path.within path place, ·)) := by
  have filled := Disk.filled_of_resolve carried.resolved
  unfold compileBelow
  refine (tells_sortedFiles single carried).bind_ok ?_
  dsimp only
  rw [List.filter_map, List.mapM_map]
  refine tells_mapM fun place mem => ?_
  obtain ⟨bytes, layout⟩ := (mem_layoutsBelow filled directory).1 mem
  have compiled := tells_compileFile o catalog (carried.find_within layout.1)
  rw [← each place bytes layout] at compiled
  exact compiled.bind fun bot => tells_pure _

/-- The layouts below a directory are its files, at any depth, whose names have the extension. Compiling meets them on the
depth-first walk through the directory, which is in ascending order of the names in their paths, names being compared
byte by byte. It succeeds if it does for each of them, and gives the paths with their scripts; otherwise it ends with
the error of the first that fails. What else is in the directory has no influence. -/
theorem compileBelow_exact (o : Options) (catalog : Catalog) {w : World} {path : String} {top : Location}
    {tree : FileTree} (single : w.disk.Single) (carried : w.disk.Carries path top tree)
    (directory : tree.find? [] = some .directory) :
    let result (w : World) : Except Error (List (String × Bot)) := (outcome (compileBelow o catalog path) w).1
    let compiled (place : Location) : Except Error Bot := (outcome (compileFile o catalog (Path.within path place)) w).1
    ∃ layouts : List Location,
      layouts = (tree.walk.filter fun place => Path.extension? (Path.within path place) = some layoutExtension) ∧
      (∀ place, place ∈ layouts ↔ ∃ bytes, tree.LayoutAt place bytes) ∧
      (layouts.map (Path.within path)).Pairwise Path.Before ∧
      (∀ place bytes, tree.LayoutAt place bytes → compiled place = compileBytes o catalog bytes) ∧
      ((∃ scripts, result w = .ok scripts) ↔ ∀ place ∈ layouts, ∃ bot, compiled place = .ok bot) ∧
      (∀ scripts, result w = .ok scripts → List.Forall₂
        (fun place script => script.1 = Path.within path place ∧ compiled place = .ok script.2) layouts scripts) ∧
      (∀ e, result w = .error e → ∃ before place after, layouts = before ++ place :: after ∧
        (∀ earlier ∈ before, ∃ bot, compiled earlier = .ok bot) ∧ compiled place = .error e) ∧
      (∀ w' top' tree', w'.disk.Single → w'.disk.Carries path top' tree' → tree'.find? [] = some .directory →
        (∀ place bytes, tree'.LayoutAt place bytes ↔ tree.LayoutAt place bytes) → result w' = result w) := by
  intro result compiled
  have filled := Disk.filled_of_resolve carried.resolved
  have each : ∀ place bytes, tree.LayoutAt place bytes → compiled place = compileBytes o catalog bytes :=
    fun place bytes layout => congrArg Prod.fst (tells_compileFile o catalog (carried.find_within layout.1))
  let step (place : Location) : Except Error (String × Bot) := (compiled place).map (Path.within path place, ·)
  have run : result w = (layoutsBelow path tree).mapM step :=
    congrArg Prod.fst (tells_compileBelow o catalog single carried directory each)
  have step_ok (place : Location) (script : String × Bot) :
      step place = .ok script ↔ script.1 = Path.within path place ∧ compiled place = .ok script.2 := by
    rw [Result.map_eq_ok]
    constructor
    · rintro ⟨bot, own, rfl⟩
      exact ⟨rfl, own⟩
    · rintro ⟨named, own⟩
      exact ⟨script.2, own, by rw [← named]⟩
  have step_some (place : Location) : (∃ script, step place = .ok script) ↔ ∃ bot, compiled place = .ok bot := by
    simp [step_ok]
  refine ⟨layoutsBelow path tree, rfl, fun place => mem_layoutsBelow filled directory,
    paths_ascending filled directory, each, ?_, ?_, ?_, ?_⟩
  · rw [run]
    constructor
    · rintro ⟨scripts, succeeded⟩ place mem
      obtain ⟨script, -, own⟩ := Result.exists_related (Result.mapM_eq_ok.1 succeeded).flip mem
      exact (step_some place).1 ⟨script, own⟩
    · exact fun total => Result.mapM_ok fun place mem => (step_some place).2 (total place mem)
  · intro scripts succeeded
    rw [run] at succeeded
    exact (Result.mapM_eq_ok.1 succeeded).imp fun place script own => (step_ok place script).1 own
  · intro e failed
    rw [run] at failed
    obtain ⟨before, place, after, split, fine, wrong⟩ := Result.mapM_eq_error.1 failed
    exact ⟨before, place, after, split, fun earlier mem => (step_some earlier).1 (fine earlier mem),
      Result.map_eq_error.1 wrong⟩
  · intro w' top' tree' single' carried' directory' same
    have run' : result w' = (layoutsBelow path tree').mapM step :=
      congrArg Prod.fst (tells_compileBelow o catalog single' carried' directory' fun place bytes layout =>
        each place bytes ((same place bytes).1 layout))
    rw [run, run', Location.ascending_unique (layoutsBelow_ascending path tree') (layoutsBelow_ascending path tree)]
    intro place
    simp only [mem_layoutsBelow filled directory, mem_layoutsBelow filled directory', same]

def smallTree (bytes : ByteArray) : FileTree :=
  .directory ["a.json", "a"] (by decide) (by decide) fun name =>
    if name = "a" then .directory ["b.json"] (by decide) (by decide) fun _ => .file bytes else .file bytes

def smallWorld (bytes : ByteArray) : World :=
  ⟨⟨[(["flows"], .directory), (["flows", "a.json"], .file bytes), (["flows", "a"], .directory),
    (["flows", "a", "b.json"], .file bytes)], []⟩, []⟩

theorem carries_small (bytes : ByteArray) : (smallWorld bytes).disk.Carries "flows" ["flows"] (smallTree bytes) := by
  refine ⟨rfl, fun place => ?_⟩
  rcases place with _ | ⟨name, rest⟩
  · rfl
  · by_cases file : name = "a.json"
    · subst file
      cases rest <;> rfl
    · by_cases directory : name = "a"
      · subst directory
        rcases rest with _ | ⟨other, rest⟩
        · rfl
        · by_cases inner : other = "b.json"
          · subst inner
            cases rest <;> rfl
          · simp [smallWorld, smallTree, Disk.lookup, FileTree.find?, List.lookup_cons, beq_false_of_ne inner, inner]
      · simp [smallWorld, smallTree, Disk.lookup, FileTree.find?, List.lookup_cons, beq_false_of_ne file,
          beq_false_of_ne directory, file, directory]

theorem single_small (bytes : ByteArray) : (smallWorld bytes).disk.Single := by
  constructor <;> simp [smallWorld]

theorem walk_small (bytes : ByteArray) : (smallTree bytes).walk = [["a", "b.json"], ["a.json"]] := by
  have sorted : ["a.json", "a"].mergeSort (· ≤ ·) = ["a", "a.json"] := by
    simp [List.mergeSort, List.MergeSort.Internal.splitInTwo]
  rw [smallTree, FileTree.walk, sorted]
  simp [FileTree.walk]

theorem compileBelow_exact_nested :
    let bytes := "\x7b\"nodes\":[],\"connections\":[]\x7d".toUTF8
    let w := smallWorld bytes
    let tree := smallTree bytes
    w.disk.Single ∧ w.disk.Carries "flows" ["flows"] tree ∧ tree.find? [] = some .directory ∧
      (∃ layouts : List Location, layouts = [["a", "b.json"], ["a.json"]] ∧
        (∀ place, place ∈ layouts ↔ ∃ bytes, tree.LayoutAt place bytes) ∧
        (layouts.map (Path.within "flows")).Pairwise Path.Before) ∧
      ∃ scripts, (outcome (compileBelow {} Catalog.builtin "flows") w).1 = .ok scripts ∧
        scripts.map Prod.fst = ["flows/a/b.json", "flows/a.json"] := by
  intro bytes w tree
  have single := single_small bytes
  have carried := carries_small bytes
  obtain ⟨layouts, walked, members, ascending, each, succeeds, given, -⟩ :=
    compileBelow_exact {} Catalog.builtin single carried rfl
  have places : layouts = [["a", "b.json"], ["a.json"]] := by
    rw [walked, walk_small]
    decide +kernel
  have fine : (compileBytes {} Catalog.builtin bytes).toOption.isSome = true := by decide +kernel
  have total : ∀ place ∈ layouts, ∃ bot,
      (outcome (compileFile {} Catalog.builtin (Path.within "flows" place)) w).1 = .ok bot := by
    intro place mem
    obtain ⟨bytes', layout⟩ := (members place).1 mem
    have same : tree.find? place = some (.file bytes) := by
      rw [places] at mem
      rcases List.mem_pair.1 mem with rfl | rfl <;> rfl
    cases layout.1.symm.trans same
    cases compiled : compileBytes {} Catalog.builtin bytes with
    | ok bot => exact ⟨bot, (each place bytes layout).trans compiled⟩
    | error e =>
        rw [compiled] at fine
        cases fine
  obtain ⟨scripts, succeeded⟩ := succeeds.2 total
  refine ⟨single, carried, rfl, ⟨layouts, places, members, ascending⟩, scripts, succeeded, ?_⟩
  have related := given scripts succeeded
  rw [places] at related
  cases related with
  | cons first later => cases later with
    | cons second none =>
        cases none
        rw [List.map_cons, List.map_cons, first.1, second.1]
        decide +kernel

end Script
end FlowScript
