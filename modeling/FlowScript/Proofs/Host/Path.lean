import FlowScript.Proofs.Host.FileTree
import FlowScript.Proofs.Result

namespace FlowScript

namespace Path

/-- The path of what the names lead to from a directory's path. -/
def within (path : String) (place : Location) : String := place.foldl join path

@[simp] theorem within_nil (path : String) : within path [] = path := rfl

@[simp] theorem within_cons (path name : String) (rest : Location) :
    within path (name :: rest) = within (join path name) rest := rfl

def HasExtension (extension name : String) : Prop := ∃ stem, stem ≠ "" ∧ name = stem ++ "." ++ extension

def Before (path other : String) : Prop := Location.Before (Disk.namesOf path) (Disk.namesOf other)

variable {path name : String}

/-! ## Joining -/

theorem isAbsolute_name (proper : IsName name) : isAbsolute name = false := by
  cases start : name.toList.head? with
  | none => simp [isAbsolute, start]
  | some c =>
      have differs : c ≠ '/' := fun same => proper.plain.1 (same ▸ List.mem_of_head? start)
      simpa [isAbsolute, start] using differs

theorem join_eq (filled : path ≠ "") :
    ∃ above, (path.toList = above ∧ above.getLast? ≠ some '/' ∨ path.toList = above ++ ['/']) ∧
      ∀ name, IsName name → (join path name).toList = above ++ '/' :: name.toList := by
  by_cases ends : path.toList.getLast? = some '/'
  · obtain ⟨above, split⟩ := List.getLast?_eq_some_iff.1 ends
    refine ⟨above, .inr split, fun name proper => ?_⟩
    simp [join, isAbsolute_name proper, split]
  · refine ⟨path.toList, .inl ⟨rfl, ends⟩, fun name proper => ?_⟩
    simp [join, isAbsolute_name proper, ends, filled]

theorem join_filled (proper : IsName name) (filled : path ≠ "") : join path name ≠ "" := by
  obtain ⟨above, -, joined⟩ := join_eq filled
  intro empty
  have joined := joined name proper
  rw [empty] at joined
  simp at joined

theorem within_filled {place : Location} (proper : ∀ name ∈ place, IsName name) (filled : path ≠ "") :
    within path place ≠ "" := by
  induction place generalizing path with
  | nil => exact filled
  | cons name rest ih =>
      obtain ⟨properName, properRest⟩ := List.forall_mem_cons.1 proper
      exact ih properRest (join_filled properName filled)

theorem isAbsolute_join (proper : IsName name) (filled : path ≠ "") :
    isAbsolute (join path name) = isAbsolute path := by
  obtain ⟨above, split, joined⟩ := join_eq filled
  rw [isAbsolute, isAbsolute, joined name proper]
  have nonempty : path.toList ≠ [] := by simpa using filled
  rcases split with ⟨same, -⟩ | same
  · rw [same] at nonempty ⊢
    rw [List.head?_append_of_ne_nil _ nonempty]
  · rw [same]
    cases above <;> rfl

/-! ## Names in a path -/

def parts (text : List Char) : List String := ((text.splitOn '/').map String.ofList).filter (· ≠ "")

theorem parts_append (above below : List Char) : parts (above ++ '/' :: below) = parts above ++ parts below := by
  rw [parts, List.splitOn_append_cons_self, List.map_append, List.filter_append]
  rfl

theorem parts_name (proper : IsName name) : parts name.toList = [name] := by
  rw [parts, List.splitOn_eq_singleton proper.plain.1, List.map_singleton, String.ofList_toList,
    List.filter_cons_of_pos (by simpa using proper.named), List.filter_nil]

theorem last_part {text : List Char} (filled : text ≠ []) (unended : text.getLast? ≠ some '/') :
    ((text.splitOn '/').map String.ofList).getLast? ≠ some "" := by
  by_cases separated : '/' ∈ text
  · -- What follows the last separator is not empty.
    obtain ⟨back, front, split, last⟩ := List.eq_append_cons_of_mem (List.mem_reverse.2 separated)
    have split : text = front.reverse ++ '/' :: back.reverse := by
      rw [← List.reverse_reverse text, split]
      simp
    have nonempty : back ≠ [] := by
      rintro rfl
      exact unended (by simp [split])
    have whole : back.reverse.splitOn '/' = [back.reverse] := List.splitOn_eq_singleton (by simpa using last)
    rw [split, List.splitOn_append_cons_self, whole]
    simpa using nonempty
  · rw [List.splitOn_eq_singleton separated]
    simpa using filled

theorem namesOf_unended {text : List Char} (same : path.toList = text) (filled : text ≠ [])
    (unended : text.getLast? ≠ some '/') : Disk.namesOf path = parts text := by
  have last := last_part filled unended
  unfold Disk.namesOf
  dsimp only
  rw [same, if_neg last, List.append_nil, parts]

theorem namesOf_ended {text : List Char} (same : path.toList = text ++ ['/']) :
    Disk.namesOf path = parts text ++ ["."] := by
  unfold Disk.namesOf
  dsimp only
  rw [same, List.splitOn_append_cons_self]
  simp [parts]

theorem last_name (proper : IsName name) (above : List Char) : (above ++ '/' :: name.toList).getLast? ≠ some '/' := by
  have nonempty : name.toList ≠ [] := by simpa using proper.named
  rw [List.getLast?_append_of_ne_nil _ (List.cons_ne_nil _ _), List.getLast?_cons_of_ne_nil nonempty]
  exact fun last => proper.plain.1 (List.mem_of_getLast? last)

theorem namesOf_join (filled : path ≠ "") :
    ∃ start, (Disk.namesOf path = start ∨ Disk.namesOf path = start ++ ["."]) ∧
      ∀ name, IsName name → Disk.namesOf (join path name) = start ++ [name] := by
  obtain ⟨above, split, joined⟩ := join_eq filled
  refine ⟨parts above, ?_, fun name proper => ?_⟩
  · rcases split with ⟨same, unended⟩ | same
    · have nonempty : path.toList ≠ [] := by simpa using filled
      exact .inl (namesOf_unended same (same ▸ nonempty) unended)
    · exact .inr (namesOf_ended same)
  · rw [namesOf_unended (joined name proper) (by simp) (last_name proper above), parts_append, parts_name proper]

theorem namesOf_within {place : Location} (filled : path ≠ "") (unended : (Disk.namesOf path).getLast? ≠ some ".")
    (proper : ∀ name ∈ place, IsName name) : Disk.namesOf (within path place) = Disk.namesOf path ++ place := by
  induction place generalizing path with
  | nil => simp
  | cons name rest ih =>
      obtain ⟨properName, properRest⟩ := List.forall_mem_cons.1 proper
      obtain ⟨start, same | ended, joined⟩ := namesOf_join filled
      · have joined := joined name properName
        have := ih (join_filled properName filled) (by simpa [joined] using properName.proper.1) properRest
        rw [within_cons, this, joined, same, List.append_assoc, List.singleton_append]
      · exact absurd (by simp [ended]) unended

theorem names_within (filled : path ≠ "") :
    ∃ start, ∀ place, place ≠ [] → (∀ name ∈ place, IsName name) →
      Disk.namesOf (within path place) = start ++ place := by
  obtain ⟨start, -, joined⟩ := namesOf_join filled
  refine ⟨start, fun place below proper => ?_⟩
  cases place with
  | nil => exact absurd rfl below
  | cons name rest =>
      obtain ⟨properName, properRest⟩ := List.forall_mem_cons.1 proper
      have joined := joined name properName
      have := namesOf_within (join_filled properName filled) (by simpa [joined] using properName.proper.1) properRest
      rw [within_cons, this, joined, List.append_assoc, List.singleton_append]

/-! ## Extensions -/

theorem anchor_append (above text : List Char) :
    ∃ front, (anchor (above ++ '/' :: text)).2 = front ++ text ∧ (front = [] ∨ front.getLast? = some '/') := by
  unfold anchor
  split
  · rename_i rest split
    rcases List.append_eq_cons_iff.1 split with ⟨rfl, same⟩ | ⟨front, rfl, rfl⟩
    · cases same
      exact ⟨[], rfl, .inl rfl⟩
    · exact ⟨front ++ ['/'], by simp, .inr (by simp)⟩
  · rename_i split
    rcases List.append_eq_cons_iff.1 split with ⟨_, same⟩ | ⟨front, _, same⟩ <;> simp at same
  · rename_i rest split
    rcases List.append_eq_cons_iff.1 split with ⟨_, same⟩ | ⟨front, _, same⟩
    · simp at same
    · rw [same]
      exact ⟨front ++ ['/'], by simp, .inr (by simp)⟩
  · exact ⟨above ++ ['/'], by simp, .inr (by simp)⟩

theorem trimBack_name (proper : IsName name) (front : List Char) :
    trimBack (name.toList.reverse ++ front) = name.toList.reverse ++ front := by
  have plain : '/' ∉ name.toList.reverse := by simpa using proper.plain.1
  have named : name.toList.reverse ≠ [] := by simpa using proper.named
  have undotted : name.toList.reverse ≠ ['.'] := by
    intro same
    refine proper.proper.1 (String.toList_inj.1 ?_)
    simpa using congrArg List.reverse same
  generalize name.toList.reverse = back at *
  match back with
  | [] => exact absurd rfl named
  | [c] => rw [List.singleton_append, trimBack] <;> simp_all [Ne.symm]
  | c :: d :: rest => rw [List.cons_append, trimBack] <;> simp_all [Ne.symm]

theorem fileName?_join (proper : IsName name) (filled : path ≠ "") : fileName? (join path name) = some name := by
  obtain ⟨above, -, joined⟩ := join_eq filled
  obtain ⟨front, body, separated⟩ := anchor_append above name.toList
  have plain : ∀ c ∈ name.toList.reverse, decide (c ≠ '/') = true := by
    intro c mem
    have differs : c ≠ '/' := fun same => proper.plain.1 (same ▸ List.mem_reverse.1 mem)
    simpa using differs
  have last : (trimBack (anchor (join path name).toList).2.reverse).takeWhile (· ≠ '/') = name.toList.reverse := by
    rw [joined name proper, body, List.reverse_append, trimBack_name proper, List.takeWhile_append_of_pos plain]
    rcases separated with rfl | ends
    · simp
    · obtain ⟨start, rfl⟩ := List.getLast?_eq_some_iff.1 ends
      simp
  have upward : name.toList.reverse ≠ ['.', '.'] := by
    intro same
    refine proper.proper.2 (String.toList_inj.1 ?_)
    simpa using congrArg List.reverse same
  unfold fileName?
  dsimp only
  rw [last, List.reverse_reverse, String.ofList_toList]
  simp [proper.named, upward]

theorem extension?_join {extension : String} (undotted : '.' ∉ extension.toList) (proper : IsName name)
    (filled : path ≠ "") : extension? (join path name) = some extension ↔ HasExtension extension name := by
  unfold extension?
  rw [fileName?_join proper filled]
  dsimp only [bind, Option.bind]
  constructor
  · intro found
    split at found
    · rename_i c rest dotted
      have whole := List.takeWhile_append_dropWhile (p := (· ≠ '.')) (l := name.toList.reverse)
      rw [dotted] at whole
      refine ⟨String.ofList (c :: rest).reverse, by simp, String.toList_inj.1 ?_⟩
      rw [← List.reverse_reverse name.toList, ← whole, ← Option.some.inj found]
      simp
    · cases found
  · rintro ⟨stem, filledStem, rfl⟩
    have plain : ∀ c ∈ extension.toList.reverse, decide (c ≠ '.') = true := by
      intro c mem
      have differs : c ≠ '.' := fun same => undotted (same ▸ List.mem_reverse.1 mem)
      simpa using differs
    have back : (stem ++ "." ++ extension).toList.reverse = extension.toList.reverse ++ '.' :: stem.toList.reverse := by
      simp
    rw [back, List.dropWhile_append_of_pos plain, List.takeWhile_append_of_pos plain]
    have nonempty : stem.toList.reverse ≠ [] := by simpa using filledStem
    obtain ⟨c, rest, more⟩ := List.exists_cons_of_ne_nil nonempty
    simp [more]

theorem extension?_within {extension : String} (undotted : '.' ∉ extension.toList) {place : Location}
    (proper : ∀ name ∈ place, IsName name) (below : place ≠ []) (filled : path ≠ "") :
    extension? (within path place) = some extension ↔
      ∃ name, place.getLast? = some name ∧ HasExtension extension name := by
  obtain ⟨above, name, same⟩ := (List.eq_nil_or_concat place).resolve_left below
  rw [List.concat_eq_append] at same
  subst same
  obtain ⟨properAbove, properName⟩ := List.forall_mem_append.1 proper
  rw [within, List.foldl_append, List.foldl_cons, List.foldl_nil, ← within,
    extension?_join undotted (properName name (by simp)) (within_filled properAbove filled)]
  simp

end Path

/-! ## Resolving -/

namespace Disk
open FlowScript.Path (IsName)
variable {d : Disk} {path name : String} {top : Location}

theorem filled_of_resolve (resolved : d.resolve path = .ok top) : path ≠ "" := by
  rintro rfl
  cases resolved

theorem resolve_eq_ok : d.resolve path = .ok top ↔ path ≠ "" ∧ Char.ofNat 0 ∉ path.toList ∧
    (namesOf path).foldlM d.enter (if Path.isAbsolute path then [] else d.working) = .ok top := by
  unfold resolve
  by_cases empty : path = ""
  · simp [empty]
  · by_cases marked : Char.ofNat 0 ∈ path.toList
    · simp [empty, marked]
    · simp [empty, marked]

theorem enter_name (proper : IsName name) (directory : d.lookup top = some .directory) :
    d.enter top name = .ok (top ++ [name]) := by
  unfold enter
  rw [directory]
  dsimp only
  rw [if_neg proper.proper.1, if_neg proper.proper.2, if_neg (Nat.not_lt.2 proper.short)]

theorem enter_dot {place : Location} (entered : d.enter place "." = .ok top) : place = top := by
  unfold enter at entered
  split at entered
  · cases entered
  · cases entered
  · exact Except.ok.inj entered

theorem resolve_join_eq (resolved : d.resolve path = .ok top) (proper : IsName name) :
    d.resolve (Path.join path name) = d.enter top name := by
  obtain ⟨filled, unmarked, entered⟩ := resolve_eq_ok.1 resolved
  obtain ⟨above, split, text⟩ := Path.join_eq filled
  obtain ⟨start, names, joined⟩ := Path.namesOf_join filled
  have unmarked : Char.ofNat 0 ∉ (Path.join path name).toList := by
    have plain := proper.plain.2
    rw [text name proper]
    rcases split with ⟨same, -⟩ | same <;> rw [same] at unmarked <;> simp_all
  have reached : start.foldlM d.enter (if Path.isAbsolute path then [] else d.working) = .ok top := by
    rcases names with same | ended
    · exact same ▸ entered
    · rw [ended, List.foldlM_append] at entered
      obtain ⟨place, reached, last⟩ := Result.bind_eq_ok.1 entered
      obtain ⟨place', last, ended⟩ := Result.bind_eq_ok.1 last
      cases ended
      exact enter_dot last ▸ reached
  rw [resolve, if_neg (by simpa using Path.join_filled proper filled), if_neg (by simpa using unmarked),
    Path.isAbsolute_join proper filled, joined name proper, List.foldlM_append, reached]
  change List.foldlM d.enter top [name] = _
  rw [List.foldlM_cons]
  cases d.enter top name <;> rfl

theorem resolve_join (resolved : d.resolve path = .ok top) (directory : d.lookup top = some .directory)
    (proper : IsName name) : d.resolve (Path.join path name) = .ok (top ++ [name]) :=
  (resolve_join_eq resolved proper).trans (enter_name proper directory)

theorem directory_of_enter {place : Location} (entered : d.enter top name = .ok place) :
    d.lookup top = some .directory := by
  unfold enter at entered
  split at entered
  · cases entered
  · cases entered
  · assumption

end Disk
end FlowScript
