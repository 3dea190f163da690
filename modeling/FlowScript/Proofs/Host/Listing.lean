import FlowScript.Proofs.Host.Disk
import FlowScript.Proofs.Host.Path

namespace FlowScript.Disk

structure Single (d : Disk) : Prop where
  distinct : (d.entries.map Prod.fst).Nodup
  rootless : [] ∉ d.entries.map Prod.fst

/-- The path leads to a place, and the tree is what is there and below. -/
structure Carries (d : Disk) (path : String) (top : Location) (tree : FileTree) : Prop where
  resolved : d.resolve path = .ok top
  below : ∀ place, d.lookup (top ++ place) = tree.find? place

variable {d : Disk} {path : String} {top : Location} {tree : FileTree}

theorem Single.mem_entries (h : d.Single) {place : Location} {entry : DiskEntry} :
    (place, entry) ∈ d.entries ↔ place ≠ [] ∧ d.lookup place = some entry := by
  have listed : (place, entry) ∈ d.entries ↔ d.entries.lookup place = some entry := by
    have distinct := h.distinct
    generalize d.entries = entries at distinct
    induction entries with
    | nil => simp
    | cons first rest ih =>
        obtain ⟨key, e⟩ := first
        rw [List.map_cons, List.nodup_cons] at distinct
        have unlisted : place = key → (place, entry) ∉ rest := by
          rintro rfl mem
          exact distinct.1 (List.mem_map.2 ⟨_, mem, rfl⟩)
        have := ih distinct.2
        grind
  rw [listed, lookup]
  constructor
  · intro there
    have named : place ≠ [] := by
      rintro rfl
      exact h.rootless (List.mem_map_of_mem (listed.2 there))
    exact ⟨named, by rwa [if_neg named]⟩
  · rintro ⟨named, there⟩
    rwa [if_neg named] at there

theorem below?_eq_some {above place names : Location} : below? above place = some names ↔ place = above ++ names := by
  unfold below?
  constructor
  · intro h
    split at h
    · rename_i before
      obtain ⟨rest, rfl⟩ := List.isPrefixOf_iff_prefix.1 before
      cases h
      rw [List.drop_left]
    · cases h
  · rintro rfl
    rw [if_pos (List.isPrefixOf_iff_prefix.2 (List.prefix_append _ _)), List.drop_left]

/-! ## A tree on a disk -/

namespace Carries

theorem root (h : d.Carries path top tree) {entry : DiskEntry} (root : tree.find? [] = some entry) :
    d.find path = .ok (top, entry) :=
  find_eq_ok.2 ⟨h.resolved, by simpa [root] using h.below []⟩

theorem join {names : List String} {proper : ∀ name ∈ names, Path.IsName name} {distinct : names.Nodup}
    {inside : String → FileTree} (h : d.Carries path top (.directory names proper distinct inside)) {name : String}
    (listed : name ∈ names) : d.Carries (Path.join path name) (top ++ [name]) (inside name) := by
  have directory : d.lookup top = some .directory := by simpa [FileTree.find?] using h.below []
  refine ⟨resolve_join h.resolved directory (proper name listed), fun place => ?_⟩
  rw [List.append_assoc, List.singleton_append, h.below, FileTree.find?, if_pos listed]

theorem find_within (h : d.Carries path top tree) {place : Location} {entry : DiskEntry}
    (there : tree.find? place = some entry) : d.find (Path.within path place) = .ok (top ++ place, entry) := by
  induction tree generalizing path top place with
  | file bytes =>
      cases place with
      | nil => simpa using h.root there
      | cons => cases there
  | directory names proper distinct inside ih =>
      cases place with
      | nil => simpa using h.root there
      | cons name rest =>
          rw [FileTree.find?] at there
          split at there
          · rename_i listed
            simpa using ih name (h.join listed) there
          · cases there

/-! ## Listing -/

theorem filesBelow_eq (h : d.Carries path top tree) : d.filesBelow path =
    d.entries.filterMap fun (place, entry) => match entry with
      | .file _ => below? top place
      | .directory => none := by
  have root : ∃ entry, tree.find? [] = some entry := by cases tree <;> exact ⟨_, rfl⟩
  obtain ⟨entry, root⟩ := root
  have found := h.root root
  unfold filesBelow
  generalize d.find path = result at found ⊢
  cases found
  rfl

theorem mem_filesBelow (h : d.Carries path top tree) (single : d.Single) {place : Location} :
    place ∈ d.filesBelow path ↔ ∃ bytes, tree.find? place = some (.file bytes) := by
  rw [h.filesBelow_eq, List.mem_filterMap]
  constructor
  · rintro ⟨⟨whole, entry⟩, mem, own⟩
    cases entry with
    | directory => cases own
    | file bytes =>
        obtain rfl := below?_eq_some.1 own
        exact ⟨bytes, by rw [← h.below, (single.mem_entries.1 mem).2]⟩
  · rintro ⟨bytes, there⟩
    rw [← h.below] at there
    have named : top ++ place ≠ [] := by
      intro root
      rw [root] at there
      cases there
    exact ⟨(top ++ place, .file bytes), single.mem_entries.2 ⟨named, there⟩, below?_eq_some.2 rfl⟩

theorem nodup_filesBelow (h : d.Carries path top tree) (single : d.Single) : (d.filesBelow path).Nodup := by
  rw [h.filesBelow_eq, List.Nodup, List.pairwise_filterMap]
  have distinct := single.distinct
  rw [List.Nodup, List.pairwise_map] at distinct
  refine distinct.imp ?_
  rintro ⟨whole, entry⟩ ⟨whole', entry'⟩ differs place own place' own' rfl
  cases entry with
  | directory => cases own
  | file bytes =>
      cases entry' with
      | directory => cases own'
      | file bytes' => exact differs ((below?_eq_some.1 own).trans (below?_eq_some.1 own').symm)

theorem sorted_files (h : d.Carries path top tree) (single : d.Single) :
    (d.filesBelow path).mergeSort Path.noLater = tree.walk := by
  refine Location.mergeSort_eq (h.nodup_filesBelow single) tree.walk_ascending fun place => ?_
  rw [FileTree.mem_walk, h.mem_filesBelow single]

end Carries
end FlowScript.Disk
