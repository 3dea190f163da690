import Mathlib.Data.List.Forall2

namespace FlowScript.Result
variable {ε α β : Type}

theorem bind_ok {x : Except ε α} {f : α → Except ε β} {a : α} (first : x = .ok a)
    (second : ∃ b, f a = .ok b) : ∃ b, (x >>= f) = .ok b := by
  rw [first]
  exact second

theorem bind_eq_ok {x : Except ε α} {f : α → Except ε β} {b : β} :
    (x >>= f) = .ok b ↔ ∃ a, x = .ok a ∧ f a = .ok b := by
  constructor
  · intro h
    cases first : x with
    | error e =>
        rw [first] at h
        cases h
    | ok a =>
        rw [first] at h
        exact ⟨a, rfl, h⟩
  · rintro ⟨a, rfl, second⟩
    exact second

theorem map_eq_ok {x : Except ε α} {f : α → β} {b : β} : x.map f = .ok b ↔ ∃ a, x = .ok a ∧ f a = b := by
  cases x <;> simp [Except.map]

theorem map_eq_error {x : Except ε α} {f : α → β} {e : ε} : x.map f = .error e ↔ x = .error e := by
  cases x <;> simp [Except.map]

theorem mapError_eq_ok {ε' : Type} {x : Except ε α} {f : ε → ε'} {a : α} : x.mapError f = .ok a ↔ x = .ok a := by
  cases x <;> simp [Except.mapError]

theorem mapM_eq_ok {f : α → Except ε β} {items : List α} {results : List β} :
    items.mapM f = .ok results ↔ List.Forall₂ (fun a b => f a = .ok b) items results := by
  induction items generalizing results with
  | nil =>
      rw [List.forall₂_nil_left_iff]
      exact ⟨fun h => (Except.ok.inj h).symm, fun h => h ▸ rfl⟩
  | cons a rest ih =>
      rw [List.mapM_cons, bind_eq_ok, List.forall₂_cons_left_iff]
      constructor
      · rintro ⟨b, first, h⟩
        obtain ⟨later, others, h⟩ := bind_eq_ok.1 h
        cases h
        exact ⟨b, later, first, ih.1 others, rfl⟩
      · rintro ⟨b, later, first, others, rfl⟩
        exact ⟨b, first, bind_eq_ok.2 ⟨later, ih.2 others, rfl⟩⟩

theorem exists_related {r : α → β → Prop} {items : List α} {results : List β} {b : β}
    (h : List.Forall₂ r items results) (mem : b ∈ results) : ∃ a ∈ items, r a b := by
  induction h with
  | nil => cases mem
  | cons related _ ih =>
      rcases List.mem_cons.1 mem with rfl | mem
      · exact ⟨_, List.mem_cons_self, related⟩
      · obtain ⟨a, own, related⟩ := ih mem
        exact ⟨a, List.mem_cons_of_mem _ own, related⟩

theorem mapM_ok {f : α → Except ε β} {items : List α} (total : ∀ a ∈ items, ∃ b, f a = .ok b) :
    ∃ results, items.mapM f = .ok results := by
  induction items with
  | nil => exact ⟨[], rfl⟩
  | cons a rest ih =>
      obtain ⟨b, first⟩ := total a (by simp)
      obtain ⟨results, later⟩ := ih fun a mem => total a (by simp [mem])
      exact ⟨b :: results, mapM_eq_ok.2 (.cons first (mapM_eq_ok.1 later))⟩

theorem mapM_eq_error {f : α → Except ε β} {items : List α} {e : ε} :
    items.mapM f = .error e ↔
      ∃ before a after, items = before ++ a :: after ∧ (∀ b ∈ before, ∃ c, f b = .ok c) ∧ f a = .error e := by
  constructor
  · intro failed
    induction items with
    | nil => cases failed
    | cons a rest ih =>
        rw [List.mapM_cons] at failed
        cases first : f a with
        | error e' =>
            rw [first] at failed
            cases failed
            exact ⟨[], a, rest, rfl, by simp, first⟩
        | ok c =>
            rw [first] at failed
            cases later : rest.mapM f with
            | ok cs =>
                rw [later] at failed
                cases failed
            | error e' =>
                rw [later] at failed
                cases failed
                obtain ⟨before, b, after, rfl, fine, wrong⟩ := ih later
                exact ⟨a :: before, b, after, rfl, by simpa [first] using fine, wrong⟩
  · rintro ⟨before, a, after, rfl, fine, wrong⟩
    obtain ⟨results, succeeded⟩ := mapM_ok fine
    rw [List.mapM_append, succeeded, List.mapM_cons, wrong]
    rfl

theorem end_of_result {ended : α × β} {a : α} (result : ended.1 = a) : ended = (a, ended.2) := Prod.ext result rfl

/-! ## Two computations -/

/-- Two computations fail alike, or give results that are related. -/
inductive Agree (r : α → β → Prop) : Except ε α → Except ε β → Prop
  | failed (e : ε) : Agree r (.error e) (.error e)
  | both {a : α} {b : β} (related : r a b) : Agree r (.ok a) (.ok b)

variable {γ δ : Type}

theorem Agree.same (x : Except ε α) : Agree (· = ·) x x := by
  cases x with
  | error e => exact .failed e
  | ok a => exact .both rfl

theorem Agree.eq {x y : Except ε α} (h : Agree (· = ·) x y) : x = y := by
  cases h with
  | failed e => rfl
  | both related => rw [related]

theorem Agree.imp {r s : α → β → Prop} {x : Except ε α} {y : Except ε β} (h : Agree r x y)
    (weaker : ∀ a b, r a b → s a b) : Agree s x y := by
  cases h with
  | failed e => exact .failed e
  | both related => exact .both (weaker _ _ related)

theorem Agree.exists_ok {r : α → β → Prop} {a : α} {y : Except ε β} (h : Agree r (.ok a) y) :
    ∃ b, y = .ok b ∧ r a b := by
  cases h with
  | both related => exact ⟨_, rfl, related⟩

theorem Agree.bind {r : α → β → Prop} {s : γ → δ → Prop} {x : Except ε α} {y : Except ε β}
    {f : α → Except ε γ} {g : β → Except ε δ} (first : Agree r x y)
    (second : ∀ a b, r a b → Agree s (f a) (g b)) : Agree s (x >>= f) (y >>= g) := by
  cases first with
  | failed e => exact .failed e
  | both related => exact second _ _ related

theorem Agree.mapM {r : α → β → Prop} {s : γ → δ → Prop} {f : α → Except ε γ} {g : β → Except ε δ}
    (each : ∀ a b, r a b → Agree s (f a) (g b)) {items : List α} {others : List β}
    (related : List.Forall₂ r items others) :
    Agree (List.Forall₂ s) (items.mapM f) (others.mapM g) := by
  induction related with
  | nil => exact .both .nil
  | cons head _ ih =>
      rw [List.mapM_cons, List.mapM_cons]
      exact (each _ _ head).bind fun c d first => ih.bind fun cs ds later => .both (.cons first later)

end FlowScript.Result
