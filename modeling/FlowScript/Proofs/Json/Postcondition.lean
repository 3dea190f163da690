import FlowScript.Json.Reader
import FlowScript.Proofs.Json.Number

namespace FlowScript.Json.Reader
variable {α β σ : Type} {read : Reader α} {P : α → Prop} {Q : β → Prop} {I : σ → Prop}

def Yields (read : Reader α) (P : α → Prop) : Prop :=
  ∀ cs a rest, read.run cs = .ok (a, rest) → P a

theorem yields_true (read : Reader α) : Yields read fun _ => True := fun _ _ _ _ => trivial

theorem yields_pure {a : α} (h : P a) : Yields (pure a) P := by
  intro cs b rest done
  cases done
  exact h

theorem yields_throw (e : LayoutFault) : Yields (throw e : Reader α) P := by
  intro cs a rest done
  cases done

theorem Yields.bind {next : α → Reader β} (h : Yields read P) (later : ∀ a, P a → Yields (next a) Q) :
    Yields (read >>= next) Q := by
  intro cs b rest done
  rw [StateT.run_bind] at done
  cases first : read.run cs with
  | error e =>
      rw [first] at done
      cases done
  | ok result =>
      rw [first] at done
      exact later result.1 (h cs result.1 result.2 first) result.2 b rest done

theorem Yields.after {next : α → Reader β} (later : ∀ a, Yields (next a) Q) :
    Yields (read >>= next) Q :=
  (yields_true read).bind fun a _ => later a

theorem Yields.map {f : α → β} (h : Yields read P) (image : ∀ a, P a → Q (f a)) :
    Yields (f <$> read) Q := by
  rw [map_eq_pure_bind]
  exact h.bind fun a holds => yields_pure (image a holds)

theorem yields_ofFront {front : List Char → Option (α × List Char)}
    (h : ∀ cs a rest, front cs = some (a, rest) → P a) : Yields (ofFront front) P := by
  apply Yields.after
  intro cs
  split
  · rename_i a rest taken
    exact Yields.after fun _ => yields_pure (h _ a rest taken)
  · exact yields_throw _

theorem Yields.nullable (h : Yields read P) : Yields (nullable read) fun o => ∀ a ∈ o, P a := by
  apply Yields.after
  intro c
  split
  · apply yields_ofFront
    intro cs o rest taken
    obtain ⟨_, _, same⟩ := Option.map_eq_some_iff.1 taken
    cases same
    simp
  · exact h.bind fun a holds => yields_pure (by simpa using holds)

theorem Yields.field (h : Yields read P) : Yields (field read) P := Yields.after fun _ => h

theorem Yields.item? (h : Yields read P) (first : Bool) :
    Yields (item? first read) fun o => ∀ a ∈ o, P a := by
  have taken : Yields (some <$> read) fun o => ∀ a ∈ o, P a := h.map fun a holds => by simpa using holds
  rw [map_eq_pure_bind] at taken
  apply Yields.after
  intro c
  split
  · exact yields_pure (by simp)
  · cases first with
    | true => exact taken
    | false => exact Yields.after fun _ => taken

theorem Yields.item (h : Yields read P) (first : Bool) : Yields (item first read) P := by
  refine (h.item? first).bind ?_
  intro o holds
  cases o with
  | none => exact yields_throw _
  | some a => exact yields_pure (holds a rfl)

theorem Yields.itemsOnto (h : Yields read P) (fuel : Nat) {earlier : List α} (old : ∀ a ∈ earlier, P a) :
    Yields (itemsOnto read fuel earlier) fun items => ∀ a ∈ items, P a := by
  induction fuel generalizing earlier with
  | zero => exact yields_throw _
  | succ fuel ih =>
      refine (h.item? _).bind ?_
      intro o holds
      cases o with
      | none => exact Yields.after fun _ => yields_pure (by simpa using old)
      | some a => exact ih (List.forall_mem_cons.2 ⟨holds a rfl, old⟩)

theorem Yields.list (h : Yields read P) : Yields (list read) fun items => ∀ a ∈ items, P a :=
  Yields.after fun _ => Yields.after fun _ => h.itemsOnto _ (by simp)

section
variable {take : σ → String → Reader σ}

theorem yields_fieldsInto (step : ∀ s name, I s → Yields (take s name) I) (fuel : Nat) (first : Bool)
    {s : σ} (start : I s) : Yields (fieldsInto take fuel first s) I := by
  induction fuel generalizing first s with
  | zero => exact yields_throw _
  | succ fuel ih =>
      apply Yields.after
      intro c
      split
      · exact yields_pure start
      · have further : Yields (do
            let name ← string
            fieldsInto take fuel false (← take s name)) I :=
          Yields.after fun name => (step s name start).bind fun s' holds => ih false holds
        cases first with
        | true => exact further
        | false => exact Yields.after fun _ => further

theorem yields_object {start : σ} {finish : σ → Except LayoutFault α} (initial : I start)
    (step : ∀ s name, I s → Yields (take s name) I)
    (final : ∀ s a, I s → finish s = .ok a → P a) : Yields (object take start finish) P := by
  refine Yields.after fun _ => Yields.after fun cs => ?_
  refine (yields_fieldsInto step _ true initial).bind ?_
  intro s holds
  cases finished : finish s with
  | error e => exact yields_throw e
  | ok a =>
      have closed : Yields (do expect '}'; return a) P :=
        Yields.after fun _ => yields_pure (final s a holds finished)
      exact closed

end

theorem Yields.record {asList : Reader α} (h : Yields read P) (other : Yields asList P) :
    Yields (record read asList) P := by
  apply Yields.after
  intro c
  split
  · exact Yields.after fun _ => other.bind fun a holds => Yields.after fun _ => yields_pure holds
  · exact h

theorem yields_whole {cs : List Char} {a : α} (h : Yields read P) (done : whole read cs = .ok a) : P a := by
  unfold whole at done
  cases taken : read.run cs with
  | error e =>
      rw [taken] at done
      cases done
  | ok result =>
      rw [taken] at done
      have same : result.1 = a := by
        change (if (dropSpace result.2).isEmpty then .ok result.1 else .error LayoutFault.malformed) =
          Except.ok a at done
        split at done <;> cases done
        rfl
      exact same ▸ h cs result.1 result.2 taken

/-! ## Numbers -/

theorem yields_word : Yields word (· < UInt64.size) := by
  apply yields_ofFront
  intro cs n rest taken
  obtain ⟨t, -, value⟩ := readNumber_eq_some.1 taken
  unfold NumberText.toWord? at value
  simp only [Option.ite_none_left_eq_some, Option.ite_none_right_eq_some, Option.some.injEq] at value
  obtain ⟨-, bound, rfl⟩ := value
  exact bound

end FlowScript.Json.Reader
