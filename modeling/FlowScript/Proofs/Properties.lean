import FlowScript.Catalog.Basic

namespace FlowScript

namespace Properties
variable {p : Properties} {key value other : String}

theorem lookup_insertEntry (entries : List (String × String)) :
    (insertEntry key value entries).lookup other =
      if other = key then some value else entries.lookup other := by
  fun_induction insertEntry key value entries with
  | case1 => grind
  | case2 => grind
  | case3 k v rest _ lt ih =>
      have apart : k ≠ key := by
        rintro rfl
        exact String.lt_irrefl _ lt
      grind
  | case4 k v rest notBefore notAfter =>
      obtain rfl : key = k := String.le_antisymm notAfter notBefore
      grind

theorem get?_insert : (p.insert key value).get? other = if other = key then some value else p.get? other :=
  lookup_insertEntry p.entries

theorem contains_insert : (p.insert key value).contains other = (decide (other = key) || p.contains other) := by
  rw [contains, get?_insert]
  by_cases same : other = key
  · simp [same]
  · simp [same, contains]

theorem contains_insert_of_contains (has : p.contains key) :
    (p.insert key value).contains other = p.contains other := by
  rw [contains_insert]
  by_cases same : other = key
  · simp [same, has]
  · simp [same]

theorem contains_ofList (entries : List (String × String)) :
    (ofList entries).contains key = true ↔ ∃ entry ∈ entries, entry.1 = key := by
  have gathered : ∀ p : Properties, (entries.foldl (fun p entry => p.insert entry.1 entry.2) p).contains key =
      true ↔ p.contains key = true ∨ ∃ entry ∈ entries, entry.1 = key := by
    induction entries with
    | nil => simp
    | cons entry rest ih =>
        intro p
        rw [List.foldl_cons, ih, contains_insert]
        simp only [Bool.or_eq_true, decide_eq_true_eq, List.mem_cons, exists_eq_or_imp, eq_comm (a := key)]
        rw [or_assoc, or_left_comm]
  exact (gathered empty).trans (or_iff_right Bool.false_ne_true)

end Properties

theorem NodeType.contains_initialProperties (t : NodeType) (key : String) :
    t.initialProperties.contains key = true ↔ ∃ spec ∈ t.properties, spec.key = key := by
  rw [initialProperties, Properties.contains_ofList]
  constructor
  · rintro ⟨entry, mem, rfl⟩
    obtain ⟨spec, declared, rfl⟩ := List.mem_map.1 mem
    exact ⟨spec, declared, rfl⟩
  · rintro ⟨spec, mem, rfl⟩
    exact ⟨_, List.mem_map_of_mem mem, rfl⟩

end FlowScript
