import FlowScript.Error

namespace FlowScript.Edit
variable {σ α β : Type}

@[simp] theorem outcome_throw (e : Error) (s : σ) :
    (throw e : Edit σ α).outcome s = (.error e, s) := rfl

@[simp] theorem outcome_modifyGet (f : σ → α × σ) (s : σ) :
    (modifyGet f : Edit σ α).outcome s = (.ok (f s).1, (f s).2) := rfl

theorem outcome_bind (e : Edit σ α) (f : α → Edit σ β) (s : σ) :
    (e >>= f).outcome s = match e.outcome s with
      | (.ok a, t) => (f a).outcome t
      | (.error failure, t) => (.error failure, t) := by
  simp only [outcome, ExceptT.run_bind, StateT.run_bind]
  cases e.run.run s with
  | mk result t => cases result <;> rfl

theorem outcome_bind_eq_ok {e : Edit σ α} {f : α → Edit σ β} {s t : σ} {b : β} :
    (e >>= f).outcome s = (.ok b, t) ↔ ∃ a u, e.outcome s = (.ok a, u) ∧ (f a).outcome u = (.ok b, t) := by
  rw [outcome_bind]
  constructor
  · intro done
    cases first : e.outcome s with
    | mk result u =>
        rw [first] at done
        cases result with
        | error failure => cases done
        | ok a => exact ⟨a, u, rfl, done⟩
  · rintro ⟨a, u, first, second⟩
    rw [first]
    exact second

theorem state_bind {e : Edit σ α} {f : α → Edit σ β} (answers : ∀ a t, ((f a).outcome t).2 = t) (s : σ) :
    ((e >>= f).outcome s).2 = (e.outcome s).2 := by
  rw [outcome_bind]
  cases e.outcome s with
  | mk result t =>
      cases result with
      | error failure => rfl
      | ok a => exact answers a t

@[simp] theorem outcome_get_bind (f : σ → Edit σ β) (s : σ) :
    (get >>= f).outcome s = (f s).outcome s := rfl

@[simp] theorem outcome_lift_bind (r : Except Error α) (f : α → Edit σ β) (s : σ) :
    ((liftM r : Edit σ α) >>= f).outcome s = match r with
      | .ok a => (f a).outcome s
      | .error failure => (.error failure, s) := by
  cases r <;> rfl

@[simp] theorem outcome_map (f : α → β) (e : Edit σ α) (s : σ) :
    (f <$> e).outcome s = ((e.outcome s).1.map f, (e.outcome s).2) := by
  simp only [outcome, ExceptT.run_map, StateT.run_map]
  cases e.run.run s with
  | mk result t => cases result <;> rfl

theorem outcome_discard_bind (e : Edit σ α) (f : PUnit → Edit σ β) (s : σ) :
    (discard e >>= f).outcome s = match e.outcome s with
      | (.ok _, t) => (f ⟨⟩).outcome t
      | (.error failure, t) => (.error failure, t) := by
  change (((fun _ => PUnit.unit) <$> e) >>= f).outcome s = _
  rw [outcome_bind, outcome_map]
  cases e.outcome s with
  | mk result t => cases result <;> rfl

@[simp] theorem outcome_tryCatch (e : Edit σ α) (handle : Error → Edit σ α) (s : σ) :
    (tryCatch e handle).outcome s = match e.outcome s with
      | (.ok a, t) => (.ok a, t)
      | (.error failure, t) => (handle failure).outcome t := by
  change (ExceptT.run (ExceptT.tryCatch e handle)).run s = _
  simp only [outcome, ExceptT.tryCatch, ExceptT.run, ExceptT.mk, StateT.run_bind]
  cases StateT.run e s with
  | mk result t => cases result <;> rfl

/-! ## Edits for all items of a list -/

@[simp] theorem outcome_forM_nil (f : β → Edit σ PUnit) (s : σ) :
    (([] : List β).forM f).outcome s = (.ok ⟨⟩, s) := rfl

theorem outcome_forM_cons (f : β → Edit σ PUnit) (b : β) (rest : List β) (s : σ) :
    ((b :: rest).forM f).outcome s = match (f b).outcome s with
      | (.ok _, t) => (rest.forM f).outcome t
      | (.error failure, t) => (.error failure, t) := by
  rw [List.forM, outcome_bind]
  cases (f b).outcome s with
  | mk result t => cases result <;> rfl

theorem outcome_forM_append (f : β → Edit σ PUnit) (items others : List β) (s : σ) :
    ((items ++ others).forM f).outcome s = match (items.forM f).outcome s with
      | (.ok _, t) => (others.forM f).outcome t
      | (.error failure, t) => (.error failure, t) := by
  induction items generalizing s with
  | nil => rfl
  | cons b rest ih =>
      rw [List.cons_append, outcome_forM_cons, outcome_forM_cons]
      cases (f b).outcome s with
      | mk result t =>
          cases result with
          | error failure => rfl
          | ok _ => exact ih t

end FlowScript.Edit
