import FlowScript.Host.Disk
import FlowScript.Proofs.Text.Bytes

namespace FlowScript

/-! ## The order of names -/

/-- Name by name, and the names byte by byte, the first place comes before the second. A place comes before those
below it. -/
def Location.Before (a b : Location) : Prop := List.Lex Text.BytesBefore a b

namespace Location
variable {a b c : Location}

theorem before_irrefl (a : Location) : ¬ Before a a :=
  List.lex_irrefl (fun name => List.lex_irrefl Nat.lt_irrefl (Text.bytes name)) a

theorem Before.asymm (h : Before a b) : ¬ Before b a :=
  List.lex_asymm (r := Text.BytesBefore) (List.lex_asymm Nat.lt_asymm) h

theorem Before.trans (h : Before a b) (h' : Before b c) : Before a c :=
  List.lex_trans (List.lex_trans Nat.lt_trans) h h'

theorem noLater_iff : Path.noLater a b = true ↔ a = b ∨ Before a b := by
  induction a generalizing b with
  | nil =>
      cases b with
      | nil => simp [Path.noLater]
      | cons name rest => exact ⟨fun _ => .inr .nil, fun _ => rfl⟩
  | cons name rest ih =>
      cases b with
      | nil =>
          constructor
          · intro h
            cases h
          · rintro (h | h) <;> cases h
      | cons other others =>
          rw [Path.noLater, Bool.or_eq_true, Bool.and_eq_true, decide_eq_true_eq, decide_eq_true_eq, ih,
            Text.lt_iff_bytesBefore, List.cons.injEq]
          have compared : Before (name :: rest) (other :: others) ↔
              Text.BytesBefore name other ∨ name = other ∧ Before rest others := List.cons_lex_cons_iff
          grind

theorem before_total (a b : Location) : a = b ∨ Before a b ∨ Before b a := by
  induction a generalizing b with
  | nil =>
      cases b with
      | nil => exact .inl rfl
      | cons name rest => exact .inr (.inl .nil)
  | cons name rest ih =>
      cases b with
      | nil => exact .inr (.inr .nil)
      | cons other others =>
          by_cases less : name < other
          · exact .inr (.inl (.rel (Text.lt_iff_bytesBefore.1 less)))
          · by_cases greater : other < name
            · exact .inr (.inr (.rel (Text.lt_iff_bytesBefore.1 greater)))
            · obtain rfl : name = other := String.le_antisymm (String.not_lt.1 greater) (String.not_lt.1 less)
              rcases ih others with rfl | before | after
              · exact .inl rfl
              · exact .inr (.inl (.cons before))
              · exact .inr (.inr (.cons after))

theorem sorted_noLater (places : List Location) :
    (places.mergeSort Path.noLater).Pairwise fun a b => Path.noLater a b = true := by
  refine List.pairwise_mergeSort (fun a b c h h' => ?_) (fun a b => ?_) places
  · rw [noLater_iff] at h h' ⊢
    rcases h with rfl | h
    · exact h'
    · rcases h' with rfl | h'
      · exact .inr h
      · exact .inr (h.trans h')
  · rw [Bool.or_eq_true, noLater_iff, noLater_iff]
    have := before_total a b
    grind

theorem ascending_unique {places others : List Location} (ascending : places.Pairwise Before)
    (ascending' : others.Pairwise Before) (same : ∀ place, place ∈ places ↔ place ∈ others) : places = others := by
  have distinct {places : List Location} (ascending : places.Pairwise Before) : places.Nodup := by
    refine ascending.imp fun {a b} before => ?_
    rintro rfl
    exact before_irrefl a before
  have perm := (List.perm_ext_iff_of_nodup (distinct ascending) (distinct ascending')).2 same
  exact perm.eq_of_pairwise (fun a b _ _ before after => absurd after before.asymm) ascending ascending'

theorem mergeSort_eq {places sorted : List Location} (distinct : places.Nodup) (ascending : sorted.Pairwise Before)
    (same : ∀ place, place ∈ sorted ↔ place ∈ places) : places.mergeSort Path.noLater = sorted := by
  refine ascending_unique ?_ ascending fun place => ?_
  · have distinct' : (places.mergeSort Path.noLater).Nodup := (List.mergeSort_perm _ _).nodup_iff.2 distinct
    refine ((sorted_noLater places).and distinct').imp fun {a b} h => ?_
    exact (noLater_iff.1 h.1).resolve_left h.2
  · rw [List.mem_mergeSort, same]

end Location

/-! ## Trees -/

structure Path.IsName (name : String) : Prop where
  named : name ≠ ""
  proper : name ≠ "." ∧ name ≠ ".."
  plain : '/' ∉ name.toList ∧ Char.ofNat 0 ∉ name.toList
  short : name.utf8ByteSize ≤ Disk.longestName

instance (name : String) : Decidable (Path.IsName name) :=
  decidable_of_iff
    (name ≠ "" ∧ (name ≠ "." ∧ name ≠ "..") ∧ ('/' ∉ name.toList ∧ Char.ofNat 0 ∉ name.toList) ∧
      name.utf8ByteSize ≤ Disk.longestName)
    ⟨fun h => ⟨h.1, h.2.1, h.2.2.1, h.2.2.2⟩, fun h => ⟨h.named, h.proper, h.plain, h.short⟩⟩

/-- A file, or a directory with a file or directory under each of its names. -/
inductive FileTree where
  | file (bytes : ByteArray)
  | directory (names : List String) (proper : ∀ name ∈ names, Path.IsName name) (distinct : names.Nodup)
      (inside : String → FileTree)

namespace FileTree

def find? : FileTree → Location → Option DiskEntry
  | .file bytes, [] => some (.file bytes)
  | .file _, _ :: _ => none
  | .directory .., [] => some .directory
  | .directory names _ _ inside, name :: rest => if name ∈ names then (inside name).find? rest else none

/-- The files, depth first. The entries of a directory are visited in the order of their names. -/
def walk : FileTree → List Location
  | .file _ => [[]]
  | .directory names _ _ inside =>
      (names.mergeSort (· ≤ ·)).flatMap fun name => (inside name).walk.map (name :: ·)

theorem sorted_names {names : List String} (distinct : names.Nodup) :
    (names.mergeSort (· ≤ ·)).Pairwise Text.BytesBefore := by
  have sorted : (names.mergeSort fun a b => decide (a ≤ b)).Pairwise fun a b => decide (a ≤ b) = true :=
    List.pairwise_mergeSort (by simpa using fun a b c => String.le_trans) (by simpa using String.le_total) names
  have distinct' : (names.mergeSort fun a b => decide (a ≤ b)).Nodup := (List.mergeSort_perm _ _).nodup_iff.2 distinct
  refine (sorted.and distinct').imp fun {a b} h => Text.lt_iff_bytesBefore.1 ?_
  by_cases less : a < b
  · exact less
  · exact absurd (String.le_antisymm (of_decide_eq_true h.1) (String.not_lt.1 less)) h.2

theorem walk_ascending (tree : FileTree) : tree.walk.Pairwise Location.Before := by
  induction tree with
  | file bytes => exact List.pairwise_singleton _ _
  | directory names _ distinct inside ih =>
      rw [walk, List.pairwise_flatMap]
      constructor
      · -- Below one name, the places compare as they do inside.
        intro name _
        exact List.pairwise_map.2 ((ih name).imp .cons)
      · -- Everything below a name comes before everything below a later name, `a/…` before `a.json`.
        refine (sorted_names distinct).imp fun {name other} before place mem place' mem' => ?_
        obtain ⟨rest, -, rfl⟩ := List.mem_map.1 mem
        obtain ⟨rest', -, rfl⟩ := List.mem_map.1 mem'
        exact .rel before

theorem mem_walk {tree : FileTree} {place : Location} :
    place ∈ tree.walk ↔ ∃ bytes, tree.find? place = some (.file bytes) := by
  induction tree generalizing place with
  | file bytes => cases place <;> simp [walk, find?]
  | directory names _ _ inside ih =>
      rw [walk, List.mem_flatMap]
      simp only [List.mem_mergeSort, List.mem_map, ih]
      cases place with
      | nil => simp [find?]
      | cons name rest =>
          rw [find?]
          split
          · rename_i listed
            refine ⟨?_, fun file => ⟨name, listed, rest, file, rfl⟩⟩
            rintro ⟨_, -, _, file, same⟩
            cases same
            exact file
          · rename_i unlisted
            refine ⟨?_, fun ⟨_, missing⟩ => nomatch missing⟩
            rintro ⟨_, listed, _, -, same⟩
            cases same
            exact absurd listed unlisted

theorem names_proper {tree : FileTree} {place : Location} {entry : DiskEntry} (there : tree.find? place = some entry) :
    ∀ name ∈ place, Path.IsName name := by
  induction tree generalizing place with
  | file bytes =>
      cases place with
      | nil => simp
      | cons => cases there
  | directory names proper _ inside ih =>
      cases place with
      | nil => simp
      | cons name rest =>
          rw [find?] at there
          split at there
          · rename_i listed
            exact List.forall_mem_cons.2 ⟨proper name listed, ih name there⟩
          · cases there

end FileTree
end FlowScript
