import FlowScript.Catalog.Builtin
import FlowScript.Proofs.Catalog.Lookup

namespace FlowScript

namespace Index

theorem Faithful.nodup {index : Index} {names : List String} (h : index.Faithful names) : names.Nodup := by
  rw [List.Nodup, List.pairwise_iff_getElem]
  intro i j inside inside' less same
  have first := (h names[i] i).2 (List.getElem?_eq_getElem inside)
  have second := (h names[j] j).2 (List.getElem?_eq_getElem inside')
  rw [same, second] at first
  exact Nat.ne_of_gt less (Option.some.inj first)

theorem buildFrom_eq_error_iff {index : Index} {seen names : List String} (h : index.Faithful seen)
    {name : String} : buildFrom seen.length index names = .error name ↔
      ∃ before after, names = before ++ name :: after ∧ (seen ++ before).Nodup ∧ name ∈ seen ++ before := by
  -- With each fresh name the index becomes faithful to one name more.
  induction names generalizing index seen with
  | nil => simp [buildFrom]
  | cons first rest ih =>
      rw [buildFrom_cons h]
      split
      · rename_i again
        constructor
        · intro stopped
          obtain rfl := Except.error.inj stopped
          exact ⟨[], rest, rfl, by simpa using h.nodup, by simpa using again⟩
        · rintro ⟨before, after, split, distinct, -⟩
          cases before with
          | nil => rw [(List.cons.inj split).1]
          | cons other before =>
              obtain rfl := (List.cons.inj split).1
              exact absurd rfl ((List.nodup_append.1 distinct).2.2 first again first (by simp))
      · rename_i fresh
        rw [ih (h.snoc fresh)]
        constructor
        · rintro ⟨before, after, rfl, distinct, again⟩
          exact ⟨first :: before, after, rfl, by simpa using distinct, by simpa using again⟩
        · rintro ⟨before, after, split, distinct, again⟩
          cases before with
          | nil =>
              rw [← (List.cons.inj split).1, List.append_nil] at again
              exact absurd again fresh
          | cons other before =>
              obtain ⟨rfl, rfl⟩ := List.cons.inj split
              exact ⟨before, after, rfl, by simpa using distinct, by simpa using again⟩

theorem exists_buildFrom_iff {index : Index} {seen names : List String} (h : index.Faithful seen) :
    (∃ index', buildFrom seen.length index names = .ok index') ↔ (seen ++ names).Nodup := by
  constructor
  · rintro ⟨index', built⟩
    exact (h.buildFrom built).nodup
  · intro distinct
    cases built : buildFrom seen.length index names with
    | ok index' => exact ⟨index', rfl⟩
    | error name =>
        obtain ⟨before, after, rfl, -, again⟩ := (buildFrom_eq_error_iff h).1 built
        rw [← List.append_assoc] at distinct
        exact absurd rfl ((List.nodup_append.1 distinct).2.2 name again name (by simp))

end Index

namespace Catalog

/-- A catalog looks names up as the list of its types would. The index leads to places in the list only; a name
is found where exactly one of the types has it, and is unknown where none has it. -/
structure Represents (catalog : Catalog) (types : List NodeType) : Prop where
  types_eq : catalog.types = types
  place_iff : ∀ (name : String) (place : Nat),
    catalog.index[name]? = some place ↔ ∃ t, types[place]? = some t ∧ t.name = name
  within : ∀ (name : String) (place : Nat), catalog.index[name]? = some place → place < types.length
  contains_iff : ∀ name, catalog.contains name = true ↔ ∃ t ∈ types, t.name = name
  exists_find_iff : ∀ name, (∃ t, catalog.find name = .ok t) ↔ ∃ t ∈ types, t.name = name
  find_iff : ∀ name t, catalog.find name = .ok t ↔ types.filter (·.name = name) = [t]
  unknown_iff : ∀ name e, catalog.find name = .error e ↔ e = .unknownType name ∧ ∀ t ∈ types, t.name ≠ name

theorem distinct (catalog : Catalog) : (catalog.types.map NodeType.name).Nodup := catalog.faithful.nodup

theorem filter_named {types : List NodeType} (distinct : (types.map NodeType.name).Nodup) {t : NodeType}
    (mem : t ∈ types) : types.filter (·.name = t.name) = [t] := by
  obtain ⟨before, after, rfl⟩ := List.append_of_mem mem
  rw [List.map_append, List.map_cons, List.nodup_append, List.nodup_cons] at distinct
  obtain ⟨-, ⟨notAfter, -⟩, apart⟩ := distinct
  have none_before : before.filter (·.name = t.name) = [] := by
    rw [List.filter_eq_nil_iff]
    intro u inside same
    exact apart u.name (List.mem_map_of_mem inside) t.name (by simp) (by simpa using same)
  have none_after : after.filter (·.name = t.name) = [] := by
    rw [List.filter_eq_nil_iff]
    intro u inside same
    exact notAfter (List.mem_map.2 ⟨u, inside, by simpa using same⟩)
  rw [List.filter_append, none_before, List.filter_cons_of_pos (by simp), none_after, List.nil_append]

theorem find_eq_ok_iff_filter {catalog : Catalog} {name : String} {t : NodeType} :
    catalog.find name = .ok t ↔ catalog.types.filter (·.name = name) = [t] := by
  rw [find_eq_ok]
  constructor
  · rintro ⟨mem, rfl⟩
    exact filter_named catalog.distinct mem
  · intro only
    have mem : t ∈ catalog.types.filter (·.name = name) := by rw [only]; exact List.mem_singleton_self t
    simpa using mem

theorem represents_types (catalog : Catalog) : catalog.Represents catalog.types where
  types_eq := rfl
  place_iff _ _ := place_eq_some_iff
  within _ _ := catalog.place_lt
  contains_iff _ := contains_iff
  exists_find_iff name := exists_congr fun t => find_eq_ok
  find_iff _ _ := find_eq_ok_iff_filter
  unknown_iff name e := by
    refine ⟨find_error, ?_⟩
    rintro ⟨rfl, unknown⟩
    cases found : catalog.find name with
    | ok t => exact absurd (find_ok found).2 (unknown t (find_ok found).1)
    | error e => rw [(find_error found).1]

theorem ofTypes_eq_ok_iff {types : List NodeType} {catalog : Catalog} : ofTypes types = .ok catalog ↔
    catalog.types = types ∧ Index.buildFrom 0 ∅ (types.map NodeType.name) = .ok catalog.index := by
  unfold ofTypes
  split
  · rename_i name stopped
    simp [stopped]
  · rename_i index built
    cases catalog
    simp [built, eq_comm]

theorem ofTypes_eq_error_iff {types : List NodeType} {e : Error} : ofTypes types = .error e ↔
    ∃ before t after, types = before ++ t :: after ∧ (before.map NodeType.name).Nodup ∧
      t.name ∈ before.map NodeType.name ∧ e = .settingsInvalid (.repeatedType t.name) := by
  have stopped_iff (name : String) : Index.buildFrom 0 ∅ (types.map NodeType.name) = .error name ↔
      ∃ before after, types.map NodeType.name = before ++ name :: after ∧ before.Nodup ∧ name ∈ before :=
    Index.buildFrom_eq_error_iff Index.faithful_empty
  constructor
  · intro failed
    unfold ofTypes at failed
    split at failed
    · rename_i name stopped
      cases failed
      obtain ⟨before, after, split, distinct, again⟩ := (stopped_iff name).1 stopped
      obtain ⟨first, rest, rfl, rfl, behind⟩ := List.map_eq_append_iff.1 split
      obtain ⟨t, later, rfl, rfl, rfl⟩ := List.map_eq_cons_iff.1 behind
      exact ⟨first, t, later, rfl, distinct, again, rfl⟩
    · cases failed
  · rintro ⟨before, t, after, rfl, distinct, again, rfl⟩
    have split : (before ++ t :: after).map NodeType.name =
        before.map NodeType.name ++ t.name :: after.map NodeType.name := by
      rw [List.map_append, List.map_cons]
    have stopped := (stopped_iff t.name).2 ⟨_, _, split, distinct, again⟩
    unfold ofTypes
    split
    · rename_i name stopped'
      obtain rfl := Except.error.inj (stopped.symm.trans stopped')
      rfl
    · rename_i index built
      cases stopped.symm.trans built

theorem exists_ofTypes_iff {types : List NodeType} :
    (∃ catalog, ofTypes types = .ok catalog) ↔ (types.map NodeType.name).Nodup := by
  have built_iff : (∃ index, Index.buildFrom 0 ∅ (types.map NodeType.name) = .ok index) ↔
      (types.map NodeType.name).Nodup := Index.exists_buildFrom_iff Index.faithful_empty
  rw [← built_iff]
  constructor
  · rintro ⟨catalog, made⟩
    exact ⟨catalog.index, (ofTypes_eq_ok_iff.1 made).2⟩
  · rintro ⟨index, built⟩
    exact ⟨⟨types, index, Index.faithful_empty.buildFrom built⟩, ofTypes_eq_ok_iff.2 ⟨rfl, built⟩⟩

/-- A catalog is made of a list of types exactly if their names are distinct; otherwise the failure names the
first type whose name one of the types before has. Either way of making a catalog, the other being the one of
the built-in types, leaves an index by which names are looked up as in the list. -/
theorem ofTypes_exact :
    (∀ types : List NodeType,
      ((∃ catalog, ofTypes types = .ok catalog) ↔ (types.map NodeType.name).Nodup) ∧
      (∀ e, ofTypes types = .error e ↔ ∃ before t after, types = before ++ t :: after ∧
        (before.map NodeType.name).Nodup ∧ t.name ∈ before.map NodeType.name ∧
        e = .settingsInvalid (.repeatedType t.name)) ∧
      ∀ catalog, ofTypes types = .ok catalog → catalog.Represents types) ∧
    builtin.Represents builtinTypes := by
  refine ⟨fun types => ⟨exists_ofTypes_iff, fun e => ofTypes_eq_error_iff, fun catalog made => ?_⟩,
    builtin.represents_types⟩
  rw [← (ofTypes_eq_ok_iff.1 made).1]
  exact catalog.represents_types

theorem ofTypes_exact_two_repeats :
    let named (name : String) : NodeType := ⟨name, .action, [], [], [], none, none⟩
    ofTypes [named "A", named "B", named "B", named "A"] = .error (.settingsInvalid (.repeatedType "B")) ∧
      ∃ catalog, ofTypes [named "A", named "B"] = .ok catalog ∧ catalog.find "B" = .ok (named "B") ∧
        catalog.find "C" = .error (.unknownType "C") := by
  intro named
  have refused := ((ofTypes_exact.1 [named "A", named "B", named "B", named "A"]).2.1 _).2
    ⟨[named "A", named "B"], named "B", [named "A"], rfl, by decide, by decide, rfl⟩
  obtain ⟨made, -, represents⟩ := ofTypes_exact.1 [named "A", named "B"]
  obtain ⟨catalog, isMade⟩ := made.2 (by decide)
  have lookups := represents catalog isMade
  exact ⟨refused, catalog, isMade, (lookups.find_iff "B" _).2 rfl, (lookups.unknown_iff "C" _).2 ⟨rfl, by decide⟩⟩

end Catalog
end FlowScript
