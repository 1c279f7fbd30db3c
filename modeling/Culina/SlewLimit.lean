import Mathlib.Algebra.Order.Archimedean.Basic
import Mathlib.Tactic.Linarith

/-!
Slew-limited tracking. A value follows its target by bounded steps, which may be larger
downwards than upwards; it never passes the target and reaches it in finitely many steps.
-/
namespace Culina.SlewLimit

variable {α : Type*} [Field α] [LinearOrder α]

/-- One step towards the target, at most `up` upwards or `down` downwards. -/
def approach (up down target x : α) : α :=
  if x < target then min target (x + up) else max target (x - down)

variable {up down target x : α}

theorem approach_of_lt (h : x < target) : approach up down target x = min target (x + up) := if_pos h

theorem approach_of_le (h : target ≤ x) : approach up down target x = max target (x - down) :=
  if_neg (not_lt.mpr h)

variable [IsStrictOrderedRing α]

theorem approach_target (hdown : 0 ≤ down) : approach up down target target = target := by
  rw [approach_of_le le_rfl]
  exact max_eq_left (sub_le_self target hdown)

/-- A step does not pass the target. -/
theorem approach_between (hup : 0 ≤ up) (hdown : 0 ≤ down) :
    min x target ≤ approach up down target x ∧ approach up down target x ≤ max x target := by
  rcases lt_or_ge x target with hbelow | habove
  · rw [approach_of_lt hbelow, min_eq_left hbelow.le, max_eq_right hbelow.le]
    exact ⟨le_min hbelow.le (le_add_of_nonneg_right hup), min_le_left _ _⟩
  · rw [approach_of_le habove, min_eq_right habove, max_eq_left habove]
    exact ⟨le_max_left _ _, max_le habove (sub_le_self x hdown)⟩

theorem approach_le_add (target x : α) (hup : 0 ≤ up) (hdown : 0 ≤ down) :
    approach up down target x ≤ x + up := by
  rcases lt_or_ge x target with hbelow | habove
  · rw [approach_of_lt hbelow]
    exact min_le_right _ _
  · rw [approach_of_le habove]
    exact max_le (by linarith) (by linarith)

theorem sub_le_approach (target x : α) (hup : 0 ≤ up) (hdown : 0 ≤ down) :
    x - down ≤ approach up down target x := by
  rcases lt_or_ge x target with hbelow | habove
  · rw [approach_of_lt hbelow]
    exact le_min (by linarith) (by linarith)
  · rw [approach_of_le habove]
    exact le_max_right _ _

/-- A step shortens the distance by the smaller of the two limits, or to nothing. -/
theorem approach_distance {step : α} (hup : step ≤ up) (hdown : step ≤ down) :
    |approach up down target x - target| ≤ max 0 (|x - target| - step) := by
  rcases lt_or_ge x target with hbelow | habove
  · rw [approach_of_lt hbelow, abs_of_neg (sub_neg.mpr hbelow)]
    rcases le_total target (x + up) with hreached | hshort
    · rw [min_eq_left hreached, sub_self, abs_zero]
      exact le_max_left _ _
    · rw [min_eq_right hshort, abs_of_nonpos (sub_nonpos.mpr hshort)]
      exact le_max_of_le_right (by linarith)
  · rw [approach_of_le habove, abs_of_nonneg (sub_nonneg.mpr habove)]
    rcases le_total (x - down) target with hreached | hshort
    · rw [max_eq_left hreached, sub_self, abs_zero]
      exact le_max_left _ _
    · rw [max_eq_right hshort, abs_of_nonneg (sub_nonneg.mpr hshort)]
      exact le_max_of_le_right (by linarith)

theorem iterate_distance (target x : α) {step : α} (hup : step ≤ up) (hdown : step ≤ down)
    (hstep : 0 ≤ step) (n : ℕ) :
    |(approach up down target)^[n] x - target| ≤ max 0 (|x - target| - n * step) := by
  induction n with
  | zero => simp
  | succ n ih =>
    rw [Function.iterate_succ_apply']
    refine (approach_distance hup hdown).trans (max_le (le_max_left _ _) ?_)
    rw [Nat.cast_succ, add_mul, one_mul]
    rcases le_total (|x - target| - n * step) 0 with hnear | hfar
    · rw [max_eq_left hnear] at ih
      exact le_max_of_le_left (by linarith)
    · rw [max_eq_right hfar] at ih
      exact le_max_of_le_right (by linarith)

/-- The target is reached, and kept. -/
theorem exists_reached [Archimedean α] (target x : α) (hup : 0 < up) (hdown : 0 < down) :
    ∃ n, ∀ m, n ≤ m → (approach up down target)^[m] x = target := by
  have hstep : 0 < min up down := lt_min hup hdown
  obtain ⟨n, hn⟩ := Archimedean.arch |x - target| hstep
  rw [nsmul_eq_mul] at hn
  refine ⟨n, fun m hm => ?_⟩
  have hdistance := iterate_distance target x (min_le_left up down)
    (min_le_right up down) hstep.le m
  have henough : (n : α) * min up down ≤ m * min up down :=
    mul_le_mul_of_nonneg_right (Nat.cast_le.mpr hm) hstep.le
  rw [max_eq_left (by linarith)] at hdistance
  exact sub_eq_zero.mp (abs_eq_zero.mp (le_antisymm hdistance (abs_nonneg _)))

end Culina.SlewLimit
