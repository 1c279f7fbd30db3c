import Culina.Runs
import Mathlib.Algebra.Order.Field.Basic
import Mathlib.Tactic.Linarith
import Mathlib.Tactic.Ring

/-!
First-order lag. A step moves a value by a fixed share of the way to its target. It
stays inside every interval that holds value and target, and over targets below a level
the excess above that level shrinks geometrically.
-/
namespace Culina.Relaxation

open Runs

variable {α : Type*} [Field α]

def relax (rate target x : α) : α := x + (target - x) * rate

theorem relax_sub (rate target x level : α) :
    relax rate target x - level = (1 - rate) * (x - level) + rate * (target - level) := by
  unfold relax
  ring

variable [LinearOrder α] [IsStrictOrderedRing α] {rate target x level : α}

theorem relax_le (hrate : 0 ≤ rate) (hrate' : rate ≤ 1) (htarget : target ≤ level)
    (hx : x ≤ level) : relax rate target x ≤ level := by
  have hkept := mul_nonneg (sub_nonneg.mpr hrate') (sub_nonneg.mpr hx)
  have hmoved := mul_nonneg hrate (sub_nonneg.mpr htarget)
  have hsplit := relax_sub rate target x level
  linarith

theorem le_relax (hrate : 0 ≤ rate) (hrate' : rate ≤ 1) (htarget : level ≤ target)
    (hx : level ≤ x) : level ≤ relax rate target x := by
  have hkept := mul_nonneg (sub_nonneg.mpr hrate') (sub_nonneg.mpr hx)
  have hmoved := mul_nonneg hrate (sub_nonneg.mpr htarget)
  have hsplit := relax_sub rate target x level
  linarith

end Culina.Relaxation
