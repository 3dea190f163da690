import FlowScript.Proofs.Host.World

namespace FlowScript

namespace Disk
variable {d d' : Disk} {path : String}

structure Furnished (d d' : Disk) : Prop where
  working : d'.working = d.working
  places : ∀ place, d'.lookup place = d.lookup place ∨ d.lookup place = none ∧ d'.lookup place = some .directory

theorem Furnished.refl (d : Disk) : Furnished d d := ⟨rfl, fun _ => .inl rfl⟩

theorem Furnished.trans {d'' : Disk} (h : Furnished d d') (h' : Furnished d' d'') : Furnished d d'' := by
  refine ⟨h'.working.trans h.working, fun place => ?_⟩
  rcases h.places place with same | ⟨absent, made⟩
  · exact same ▸ h'.places place
  · refine .inr ⟨absent, ?_⟩
    rcases h'.places place with same | ⟨gone, -⟩
    · exact same.trans made
    · rw [made] at gone
      cases gone

theorem furnished_of_makeDirectory (made : d.makeDirectory path = .ok d') : Furnished d d' := by
  unfold makeDirectory at made
  dsimp only at made
  split at made
  · cases made
  · obtain ⟨place, -, made⟩ := Result.bind_eq_ok.1 made
    split at made
    · cases made
    · rename_i free
      cases made
      have named : place ≠ [] := by
        rintro rfl
        cases free
      refine ⟨rfl, fun other => ?_⟩
      rw [lookup_put named]
      split
      · rename_i same
        exact .inr ⟨same ▸ free, rfl⟩
      · exact .inl rfl

structure Saved (path : String) (bytes : ByteArray) (place : Location) (d d' : Disk) : Prop where
  resolved : d'.resolve path = .ok place
  grown : Grown place d d'
  there : d'.lookup place = some (.file bytes)

theorem Furnished.saved {d'' : Disk} {bytes : ByteArray} (h : Furnished d d') (written : d'.write path bytes = .ok d'') :
    ∃ place, Saved path bytes place d d'' := by
  obtain ⟨place, resolved, apart, there⟩ := rewritten_of_write written
  refine ⟨place, apart.grown.resolve resolved, ⟨apart.working.trans h.working, fun other differs => ?_, ?_⟩, there⟩
  · rw [apart.elsewhere other differs]
    exact h.places other
  · intro directory
    rcases h.places place with same | ⟨absent, -⟩
    · exact apart.before (same.trans directory)
    · rw [directory] at absent
      cases absent

theorem Saved.read {bytes : ByteArray} {place : Location} (h : Saved path bytes place d d') :
    d'.read path = .ok bytes := by
  rw [Disk.read, find_eq_ok.2 ⟨h.resolved, h.there⟩]
  rfl

end Disk

namespace World

theorem outcome_lift {ε α : Type} (x : StateM World α) (w : World) :
    outcome (ExceptT.lift x : ExceptT ε (StateM World) α) w = (.ok (x.run w).1, (x.run w).2) := rfl

theorem outcome_makeDirectory {ε : Type} (path : String) (w : World) :
    outcome (Host.makeDirectory path : ExceptT ε (StateM World) _) w =
      match w.disk.makeDirectory path with
      | .ok disk => (.ok (.ok ()), { w with disk })
      | .error e => (.ok (.error e), w) := by
  refine (outcome_lift (World.change (·.makeDirectory path)) w).trans ?_
  rw [run_change]
  cases w.disk.makeDirectory path <;> rfl

def Builds (w w' : World) : Prop := ∃ disk, w' = { w with disk } ∧ Disk.Furnished w.disk disk

variable {w w' : World}

theorem Builds.refl (w : World) : Builds w w := ⟨w.disk, rfl, .refl _⟩

theorem Builds.trans {w'' : World} (h : Builds w w') (h' : Builds w' w'') : Builds w w'' := by
  obtain ⟨disk, rfl, furnished⟩ := h
  obtain ⟨disk', rfl, furnished'⟩ := h'
  exact ⟨disk', rfl, furnished.trans furnished'⟩

theorem builds_of_makeDirectory {disk : Disk} {path : String} (made : w.disk.makeDirectory path = .ok disk) :
    Builds w { w with disk } :=
  ⟨disk, rfl, Disk.furnished_of_makeDirectory made⟩

theorem builds_ensureDirectory (path : String) (w : World) :
    Builds w (outcome (Host.ensureDirectory path : ExceptT FileError (StateM World) Unit) w).2 := by
  rw [Host.ensureDirectory, outcome_bind, outcome_makeDirectory]
  cases made : w.disk.makeDirectory path with
  | ok disk => exact builds_of_makeDirectory made
  | error e =>
      dsimp only
      rw [outcome_bind, tells_isDirectory path]
      cases decide (w.disk.kind? path = some .directory) <;> exact .refl w

theorem builds_makeDirectoriesWithin (fuel : Nat) (path : String) (w : World) :
    Builds w (outcome (Host.makeDirectoriesWithin fuel path : ExceptT FileError (StateM World) Unit) w).2 := by
  induction fuel generalizing path w with
  | zero => exact .refl w
  | succ fuel ih =>
      rw [Host.makeDirectoriesWithin]
      split
      · exact .refl w
      · have lifted : outcome (ExceptT.lift (Host.makeDirectory path) : ExceptT FileError (StateM World) _) w = _ :=
          outcome_makeDirectory path w
        rw [outcome_bind, lifted]
        cases made : w.disk.makeDirectory path with
        | ok disk => exact builds_of_makeDirectory made
        | error e =>
            cases e with
            | notFound =>
                dsimp only
                cases Path.parent? path with
                | none => exact .refl w
                | some above =>
                    -- First the directories above it, and then the one itself, if all went well so far.
                    dsimp only
                    rw [outcome_bind]
                    have first := ih above w
                    cases ended : outcome (Host.makeDirectoriesWithin fuel above) w with
                    | mk result w' =>
                        rw [ended] at first
                        cases result with
                        | error e => exact first
                        | ok _ => exact first.trans (builds_ensureDirectory path w')
            | _ =>
                dsimp only
                rw [outcome_bind, tells_isDirectory path]
                cases decide (w.disk.kind? path = some .directory) <;> exact .refl w

end World
end FlowScript
