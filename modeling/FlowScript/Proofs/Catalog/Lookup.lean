import FlowScript.Catalog.Basic

namespace FlowScript.Catalog

variable {catalog : Catalog} {name : String}

theorem place_eq_some_iff {place : Nat} : catalog.index[name]? = some place ↔
    ∃ t, catalog.types[place]? = some t ∧ t.name = name := by
  rw [catalog.faithful name place, List.getElem?_map, Option.map_eq_some_iff]

theorem place_unique {place other : Nat} {t u : NodeType} (ht : catalog.types[place]? = some t)
    (hu : catalog.types[other]? = some u) (same : t.name = u.name) : place = other := by
  have found := place_eq_some_iff.2 ⟨t, ht, rfl⟩
  rw [same, place_eq_some_iff.2 ⟨u, hu, rfl⟩] at found
  exact (Option.some.inj found).symm

theorem find?_eq_some_iff {t : NodeType} :
    catalog.find? name = some t ↔ t ∈ catalog.types ∧ t.name = name := by
  unfold find?
  split
  · rename_i place found
    obtain ⟨u, isType, named⟩ := place_eq_some_iff.1 found
    have here : catalog.types.get ⟨place, catalog.place_lt found⟩ = u :=
      (List.getElem?_eq_some_iff.1 isType).2
    rw [here, Option.some.injEq]
    constructor
    · rintro rfl
      exact ⟨List.mem_of_getElem? isType, named⟩
    · rintro ⟨mem, same⟩
      obtain ⟨other, isOther⟩ := List.mem_iff_getElem?.1 mem
      obtain rfl := place_unique isType isOther (named.trans same.symm)
      exact Option.some.inj (isType.symm.trans isOther)
  · rename_i missing
    refine ⟨nofun, fun ⟨mem, same⟩ => ?_⟩
    obtain ⟨place, isType⟩ := List.mem_iff_getElem?.1 mem
    rw [place_eq_some_iff.2 ⟨t, isType, same⟩] at missing
    cases missing

theorem contains_iff : catalog.contains name = true ↔ ∃ t ∈ catalog.types, t.name = name := by
  rw [contains, Std.ExtTreeMap.contains_iff_mem, catalog.faithful.mem_iff, List.mem_map]

theorem find_eq_ok {t : NodeType} : catalog.find name = .ok t ↔ t ∈ catalog.types ∧ t.name = name := by
  rw [← find?_eq_some_iff]
  unfold find
  split <;> simp_all

theorem find_ok {t : NodeType} (h : catalog.find name = .ok t) : t ∈ catalog.types ∧ t.name = name :=
  find_eq_ok.1 h

theorem find?_of_find {t : NodeType} (h : catalog.find name = .ok t) : catalog.find? name = some t :=
  find?_eq_some_iff.2 (find_ok h)

theorem find_error {e : Error} (h : catalog.find name = .error e) :
    e = .unknownType name ∧ ∀ t ∈ catalog.types, t.name ≠ name := by
  refine ⟨?_, fun t mem same => ?_⟩
  · unfold find at h
    split at h
    · cases h
    · exact (Except.error.inj h).symm
  · rw [find_eq_ok.2 ⟨mem, same⟩] at h
    cases h

theorem find_of_mem (h : ∃ t ∈ catalog.types, t.name = name) : ∃ t, catalog.find name = .ok t := by
  obtain ⟨t, named⟩ := h
  exact ⟨t, find_eq_ok.2 named⟩

end FlowScript.Catalog
