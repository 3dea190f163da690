namespace FlowScript

/-- Property values by key, in ascending key order. -/
structure Properties where
  entries : List (String × String)
  sorted : entries.Pairwise (·.1 < ·.1)
  deriving DecidableEq

namespace Properties

def empty : Properties := ⟨[], .nil⟩

instance : Inhabited Properties := ⟨empty⟩

def get? (p : Properties) (key : String) : Option String := p.entries.lookup key

def contains (p : Properties) (key : String) : Bool := (p.get? key).isSome

def insertEntry (key value : String) : List (String × String) → List (String × String)
  | [] => [(key, value)]
  | (k, v) :: rest =>
      if key < k then (key, value) :: (k, v) :: rest
      else if k < key then (k, v) :: insertEntry key value rest
      else (key, value) :: rest

theorem mem_insertEntry {key value : String} {entries : List (String × String)}
    {entry : String × String} (h : entry ∈ insertEntry key value entries) :
    entry = (key, value) ∨ entry ∈ entries := by
  fun_induction insertEntry key value entries with
  | case1 => simpa using h
  | case2 => simpa using h
  | case3 k v rest _ _ ih =>
      rcases List.mem_cons.1 h with rfl | h
      · simp
      · rcases ih h with rfl | h
        · simp
        · simp [h]
  | case4 => rcases List.mem_cons.1 h with rfl | h <;> simp_all

theorem sorted_insertEntry {key value : String} {entries : List (String × String)}
    (h : entries.Pairwise (·.1 < ·.1)) :
    (insertEntry key value entries).Pairwise (·.1 < ·.1) := by
  fun_induction insertEntry key value entries with
  | case1 => simp
  | case2 k v rest lt =>
      rw [List.pairwise_cons] at h ⊢
      refine ⟨fun entry mem => ?_, List.pairwise_cons.2 h⟩
      rcases List.mem_cons.1 mem with rfl | mem
      · exact lt
      · exact String.lt_trans lt (h.1 entry mem)
  | case3 k v rest _ lt ih =>
      rw [List.pairwise_cons] at h ⊢
      refine ⟨fun entry mem => ?_, ih h.2⟩
      rcases mem_insertEntry mem with rfl | mem
      · exact lt
      · exact h.1 entry mem
  | case4 k v rest notBefore notAfter =>
      rw [List.pairwise_cons] at h ⊢
      obtain rfl : key = k := String.le_antisymm notAfter notBefore
      exact h

def insert (p : Properties) (key value : String) : Properties :=
  ⟨insertEntry key value p.entries, sorted_insertEntry p.sorted⟩

def ofList (entries : List (String × String)) : Properties :=
  entries.foldl (fun p entry => p.insert entry.1 entry.2) empty

end Properties
end FlowScript
