import Mathlib.Tactic.FieldSimp
import Mathlib.Tactic.Linarith
import Mathlib.Tactic.Ring
import FlowScript.Proofs.Exact
import FlowScript.Proofs.Session.Operation

namespace FlowScript

namespace Viewport

section Motions
variable {α : Type} [Scalar α]

def after (v : Viewport α) (motions : List (Motion α)) : Viewport α := motions.foldl (fun v m => m.apply v) v

def Motion.ZoomsAt (anchor : Point α) : Motion α → Prop
  | .zoomBy a _ | .zoomTo a _ => a = anchor
  | _ => False

theorem after_invariant {P : Viewport α → Prop} {motions : List (Motion α)}
    (step : ∀ m ∈ motions, ∀ v, P v → P (m.apply v)) {v : Viewport α} (start : P v) : P (v.after motions) := by
  induction motions generalizing v with
  | nil => exact start
  | cons m rest ih => exact ih (fun m mem => step m (List.mem_cons_of_mem _ mem)) (step m (by simp) v start)

end Motions

variable {K : Type} [Field K] [LinearOrder K] [Length K] {v : Viewport K}

/-! ## The arithmetic of a view -/

def allowed (scale : K) : K := Scalar.clamp minScale maxScale scale

theorem toCanvas_eq (v : Viewport K) (p : Point K) :
    v.toCanvas p = ⟨(p.x - v.origin.x + v.scroll.x) / v.scale, (p.y - v.origin.y + v.scroll.y) / v.scale⟩ := rfl

theorem toWindow_eq (v : Viewport K) (p : Point K) :
    v.toWindow p = ⟨p.x * v.scale - v.scroll.x + v.origin.x, p.y * v.scale - v.scroll.y + v.origin.y⟩ := rfl

theorem zoomTo_eq (v : Viewport K) (anchor : Point K) (scale : K) :
    v.zoomTo anchor scale =
      ⟨allowed scale, ⟨(v.toCanvas anchor).x * allowed scale - (anchor.x - v.origin.x),
        (v.toCanvas anchor).y * allowed scale - (anchor.y - v.origin.y)⟩, v.origin⟩ := rfl

theorem maxScale_eq : (maxScale : K) = 2 := Nat.cast_ofNat

theorem minScale_eq : (minScale : K) = 1 / 2 := by
  have one : ((1 : ℕ) : K) = 1 := Nat.cast_one
  have two : ((2 : ℕ) : K) = 2 := Nat.cast_ofNat
  change ((1 : ℕ) : K) / ((2 : ℕ) : K) = 1 / 2
  rw [one, two]

def Scaled (v : Viewport K) : Prop := 1 / 2 ≤ v.scale ∧ v.scale ≤ 2

variable [IsStrictOrderedRing K]

theorem allowed_mem (scale : K) : 1 / 2 ≤ allowed scale ∧ allowed scale ≤ 2 := by
  rw [allowed, minScale_eq, maxScale_eq]
  apply Scalar.clamp_mem
  norm_num

theorem pos_of_half_le {scale : K} (h : 1 / 2 ≤ scale) : 0 < scale := by
  have half : (0 : K) < 1 / 2 := by norm_num
  exact half.trans_le h

theorem toWindow_toCanvas (h : v.Scaled) (p : Point K) : v.toWindow (v.toCanvas p) = p := by
  have nonzero : v.scale ≠ 0 := (pos_of_half_le h.1).ne'
  rw [toCanvas_eq, toWindow_eq]
  ext <;> field_simp <;> ring

theorem toCanvas_toWindow (h : v.Scaled) (p : Point K) : v.toCanvas (v.toWindow p) = p := by
  have nonzero : v.scale ≠ 0 := (pos_of_half_le h.1).ne'
  rw [toWindow_eq, toCanvas_eq]
  ext <;> field_simp <;> ring

theorem toCanvas_zoomTo (v : Viewport K) (anchor : Point K) (scale : K) :
    (v.zoomTo anchor scale).toCanvas anchor = v.toCanvas anchor := by
  have nonzero : allowed scale ≠ 0 := (pos_of_half_le (allowed_mem scale).1).ne'
  rw [toCanvas_eq, zoomTo_eq]
  ext <;> field_simp <;> ring

theorem zoomTo_zoomTo (v : Viewport K) (anchor : Point K) (first second : K) :
    (v.zoomTo anchor first).zoomTo anchor second = v.zoomTo anchor second := by
  rw [zoomTo_eq (v.zoomTo anchor first), toCanvas_zoomTo]
  rfl

/-! ## Sequences of motions -/

theorem scaled_atOrigin (origin : Point K) : (atOrigin origin).Scaled := by
  have one : (atOrigin origin).scale = 1 := Nat.cast_one
  rw [Scaled, one]
  norm_num

theorem scaled_apply (m : Motion K) (h : v.Scaled) : (m.apply v).Scaled := by
  cases m with
  | pan dx dy => exact h
  | zoomBy anchor factor => exact allowed_mem _
  | zoomTo anchor scale => exact allowed_mem _
  | moveOrigin origin => exact h
  | restart origin => exact scaled_atOrigin origin

theorem toCanvas_apply {anchor : Point K} {m : Motion K} (zoom : m.ZoomsAt anchor) (v : Viewport K) :
    (m.apply v).toCanvas anchor = v.toCanvas anchor := by
  cases m with
  | zoomBy a factor =>
      obtain rfl : a = anchor := zoom
      exact toCanvas_zoomTo v a (v.scale * factor)
  | zoomTo a scale =>
      obtain rfl : a = anchor := zoom
      exact toCanvas_zoomTo v a scale
  | _ => exact zoom.elim

theorem toCanvas_after {anchor : Point K} {zooms : List (Motion K)} (all : ∀ m ∈ zooms, m.ZoomsAt anchor)
    (v : Viewport K) : (v.after zooms).toCanvas anchor = v.toCanvas anchor :=
  after_invariant (P := fun w => w.toCanvas anchor = v.toCanvas anchor)
    (fun m mem w kept => (toCanvas_apply (all m mem) w).trans kept) rfl

/-- The scale of a view stays between a half and two, so that window and canvas positions stand for each other, and
zooming keeps the canvas point under its anchor. -/
theorem laws_after (motions : List (Motion K)) :
    let v : Viewport K := Viewport.initial.after motions
    (1 / 2 ≤ v.scale ∧ v.scale ≤ 2) ∧
      (∀ p, v.toWindow (v.toCanvas p) = p ∧ v.toCanvas (v.toWindow p) = p) ∧
      (∀ anchor factor, (v.zoomBy anchor factor).toCanvas anchor = v.toCanvas anchor) ∧
      (∀ anchor scale, (v.zoomTo anchor scale).toCanvas anchor = v.toCanvas anchor) ∧
      (∀ anchor zooms, (∀ m ∈ zooms, m.ZoomsAt anchor) → (v.after zooms).toCanvas anchor = v.toCanvas anchor) ∧
      ∀ anchor first second, (v.zoomTo anchor first).zoomTo anchor second = v.zoomTo anchor second := by
  intro v
  have scaled : v.Scaled := after_invariant (fun m _ _ h => scaled_apply m h) (scaled_atOrigin _)
  exact ⟨scaled, fun p => ⟨toWindow_toCanvas scaled p, toCanvas_toWindow scaled p⟩,
    fun anchor factor => toCanvas_zoomTo v anchor _, toCanvas_zoomTo v, fun anchor zooms all => toCanvas_after all v,
    zoomTo_zoomTo v⟩

theorem laws_after_clamped_zoom :
    let v : Viewport ℚ := Viewport.initial.after
      [.restart ⟨180, 40⟩, .pan 55 (-20), .zoomBy ⟨300, 300⟩ 8, .moveOrigin ⟨7, 9⟩]
    v.scale = 2 ∧ (v.zoomTo ⟨123, 77⟩ 0).scale = 1 / 2 ∧
      (v.after [.zoomTo ⟨123, 77⟩ 0, .zoomBy ⟨123, 77⟩ 3, .zoomBy ⟨123, 77⟩ (-1)]).toCanvas ⟨123, 77⟩ =
        v.toCanvas ⟨123, 77⟩ := by
  -- The first zoom is cut to two, and the later ones have their anchor where the origin has moved away.
  intro v
  obtain ⟨-, -, -, -, zooms, -⟩ := laws_after (K := ℚ)
    [.restart ⟨180, 40⟩, .pan 55 (-20), .zoomBy ⟨300, 300⟩ 8, .moveOrigin ⟨7, 9⟩]
  exact ⟨by decide +kernel, by decide +kernel, zooms _ _ (by simp [Motion.ZoomsAt])⟩

end Viewport

/-! ## The view and the shape of a session -/

theorem Operation.view_next {α : Type} [Scalar α] (op : Operation α) (s : Session α) :
    (op.next s).view = s.view ∨ ∃ motion : Viewport.Motion α, (op.next s).view = motion.apply s.view := by
  cases op with
  | look motion => exact .inr ⟨motion, rfl⟩
  | connectAtWindow source sourcePort window radius =>
      simp only [next, run, Edit.outcome_map, Session.outcome_connectAtWindow]
      cases s.hitTest (s.view.toCanvas window) .input radius <;> exact .inl rfl
  | _ =>
      simp only [next, run, Edit.outcome_map]
      exact .inl rfl

theorem Session.shape_after {α : Type} [Scalar α] (catalog : Catalog) (shape : NodeShape α)
    (history : List (Operation α)) : ((Session.new catalog shape).after history).shape = shape :=
  after_invariant (P := fun s => s.shape = shape) (fun op s same => (op.next_frame s).2.trans same) history rfl

theorem Session.scaled_after {K : Type} [Field K] [LinearOrder K] [IsStrictOrderedRing K] [Length K]
    (catalog : Catalog) (shape : NodeShape K) (history : List (Operation K)) :
    ((Session.new catalog shape).after history).view.Scaled := by
  refine after_invariant (P := fun s => s.view.Scaled) (fun op s h => ?_) history (Viewport.scaled_atOrigin _)
  rcases op.view_next s with same | ⟨motion, moved⟩
  · exact same ▸ h
  · exact moved ▸ Viewport.scaled_apply motion h

end FlowScript
