import FlowScript.Proofs.Host.Disk

namespace FlowScript.World
variable {ε ε' α β : Type}

def outcome (x : ExceptT ε (StateM World) α) (w : World) : Except ε α × World := (ExceptT.run x).run w

theorem outcome_bind (x : ExceptT ε (StateM World) α) (f : α → ExceptT ε (StateM World) β) (w : World) :
    outcome (x >>= f) w = match outcome x w with
      | (.ok a, w') => outcome (f a) w'
      | (.error e, w') => (.error e, w') := by
  simp only [outcome, ExceptT.run_bind, StateT.run_bind]
  cases x.run.run w with
  | mk result w' => cases result <;> rfl

theorem outcome_bind_eq_ok {x : ExceptT ε (StateM World) α} {f : α → ExceptT ε (StateM World) β} {b : β} {w w' : World} :
    outcome (x >>= f) w = (.ok b, w') ↔ ∃ a v, outcome x w = (.ok a, v) ∧ outcome (f a) v = (.ok b, w') := by
  rw [outcome_bind]
  cases outcome x w with
  | mk result v => cases result <;> simp

theorem outcome_adapt (f : ε → ε') (x : ExceptT ε (StateM World) α) (w : World) :
    outcome (x.adapt f) w = ((outcome x w).1.mapError f, (outcome x w).2) := rfl

theorem outcome_adapt_eq_ok {f : ε → ε'} {x : ExceptT ε (StateM World) α} {a : α} {w w' : World} :
    outcome (x.adapt f) w = (.ok a, w') ↔ outcome x w = (.ok a, w') := by
  simp [outcome_adapt, Prod.ext_iff, Result.mapError_eq_ok]

/-- The computation has this result in the world, and leaves the world as it is. -/
def Tells (w : World) (x : ExceptT ε (StateM World) α) (r : Except ε α) : Prop := outcome x w = (r, w)

variable {w : World}

theorem tells_pure (a : α) : Tells w (pure a : ExceptT ε (StateM World) α) (.ok a) := rfl

theorem Tells.bind_ok {x : ExceptT ε (StateM World) α} {a : α} {f : α → ExceptT ε (StateM World) β} {r : Except ε β}
    (first : Tells w x (.ok a)) (second : Tells w (f a) r) : Tells w (x >>= f) r := by
  rw [Tells, outcome_bind, first]
  exact second

theorem Tells.bind {x : ExceptT ε (StateM World) α} {r : Except ε α} {f : α → ExceptT ε (StateM World) β}
    {k : α → Except ε β} (first : Tells w x r) (second : ∀ a, Tells w (f a) (k a)) : Tells w (x >>= f) (r >>= k) := by
  rw [Tells, outcome_bind, first]
  cases r with
  | error e => rfl
  | ok a => exact second a

theorem Tells.adapt {x : ExceptT ε (StateM World) α} {r : Except ε α} (f : ε → ε') (h : Tells w x r) :
    Tells w (x.adapt f) (r.mapError f) := by
  rw [Tells, outcome_adapt, h]

theorem Tells.bind_eq_ok {x : ExceptT ε (StateM World) α} {r : Except ε α} {f : α → ExceptT ε (StateM World) β} {b : β}
    {w' : World} (first : Tells w x r) (ended : outcome (x >>= f) w = (.ok b, w')) :
    ∃ a, r = .ok a ∧ outcome (f a) w = (.ok b, w') := by
  obtain ⟨a, v, got, ended⟩ := outcome_bind_eq_ok.1 ended
  cases first.symm.trans got
  exact ⟨a, rfl, ended⟩

theorem tells_mapM {items : List α} {f : α → ExceptT ε (StateM World) β} {k : α → Except ε β}
    (each : ∀ a ∈ items, Tells w (f a) (k a)) : Tells w (items.mapM f) (items.mapM k) := by
  induction items with
  | nil => rfl
  | cons a rest ih =>
      rw [List.mapM_cons, List.mapM_cons]
      obtain ⟨first, later⟩ := List.forall_mem_cons.1 each
      exact first.bind fun b => (ih later).bind fun bs => tells_pure _

theorem tells_exists? (path : String) :
    Tells w (Host.exists? path : ExceptT ε (StateM World) Bool) (.ok (w.disk.kind? path).isSome) := rfl

theorem tells_isDirectory (path : String) :
    Tells w (Host.isDirectory path : ExceptT ε (StateM World) Bool)
      (.ok (w.disk.kind? path = some .directory)) := rfl

theorem tells_readText (path : String) :
    Tells w (Host.readText path : ExceptT FileError (StateM World) String) (w.disk.text path) := by
  unfold Host.readText Disk.text
  refine Tells.bind rfl fun bytes => ?_
  cases String.fromUTF8? bytes <;> rfl

theorem run_change (f : Disk → Except FileError Disk) (w : World) :
    (World.change f).run w = match f w.disk with
      | .ok disk => (.ok (), { w with disk })
      | .error e => (.error e, w) := by
  simp only [World.change, StateT.run_bind, StateT.run_get, pure_bind]
  cases f w.disk <;> rfl

theorem outcome_writeText (path text : String) (w : World) :
    outcome (Host.writeText path text : ExceptT FileError (StateM World) Unit) w =
      match w.disk.write path text.toUTF8 with
      | .ok disk => (.ok (), { w with disk })
      | .error e => (.error e, w) :=
  run_change (·.write path text.toUTF8) w

theorem outcome_writeText_eq_ok {path text : String} {w w' : World} :
    outcome (Host.writeText path text : ExceptT FileError (StateM World) Unit) w = (.ok (), w') ↔
      ∃ disk, w.disk.write path text.toUTF8 = .ok disk ∧ w' = { w with disk } := by
  rw [outcome_writeText]
  cases w.disk.write path text.toUTF8 <;> simp [eq_comm]

end FlowScript.World
