import Culina.Drives
import Culina.SlewLimit

/-!
The drive envelope. Whatever calls the motor controller gets, in whatever order, its speed and
duty stay in range, only a burst makes it faster than the ramp allows, and a ramp ends at its
target.
-/
namespace Culina.DriveEnvelope

open Wire Drives MotorController SlewLimit

/-- The ramp of every controller is one of the profiles, and its last duty is in range. -/
structure InEnvelope (motor : MotorController) : Prop where
  inRange : motor.InRange
  ramp : motor.rampRpmPerS ≤ 2500
  duty : 0 ≤ motor.duty ∧ motor.duty ≤ 1

/-! One tick. -/

section Tick

variable {motor : MotorController}

/-- The ramp is slew-limited, four times faster downwards. -/
theorem rampStep_eq (h : 0 < motor.rampRpmPerS) :
    motor.rampStep = approach (motor.rampRpmPerS / 1000) (motor.rampRpmPerS / 1000 * 4)
      (motor.targetRpm : ℚ) motor.commandedRpm := by
  unfold rampStep
  dsimp only
  rcases lt_trichotomy motor.commandedRpm motor.targetRpm with hbelow | hequal | habove
  · rw [if_pos hbelow, approach_of_lt hbelow]
    split_ifs with hpast
    · exact (min_eq_left hpast.le).symm
    · exact (min_eq_right (not_lt.mp hpast)).symm
  · rw [if_neg hequal.not_lt, if_neg hequal.not_gt, hequal]
    exact (approach_target (by linarith)).symm
  · rw [if_neg habove.not_gt, if_pos habove, approach_of_le habove.le]
    split_ifs with hpast
    · exact (max_eq_left hpast.le).symm
    · exact (max_eq_right (not_lt.mp hpast)).symm

/-- A tick stays between the old speed and the target, and within the limits of the ramp. -/
theorem tick1ms_limits (h : InEnvelope motor) :
    (min motor.commandedRpm motor.targetRpm ≤ motor.tick1ms.commandedRpm ∧
        motor.tick1ms.commandedRpm ≤ max motor.commandedRpm motor.targetRpm) ∧
      motor.tick1ms.commandedRpm ≤ motor.commandedRpm + 5 / 2 ∧
      motor.commandedRpm - 10 ≤ motor.tick1ms.commandedRpm := by
  have hpos := h.inRange.ramp
  have hfast := h.ramp
  have hup : 0 ≤ motor.rampRpmPerS / 1000 := by linarith
  have hdown : 0 ≤ motor.rampRpmPerS / 1000 * 4 := by linarith
  have hrise := approach_le_add (motor.targetRpm : ℚ) motor.commandedRpm hup hdown
  have hfall := sub_le_approach (motor.targetRpm : ℚ) motor.commandedRpm hup hdown
  have htick : motor.tick1ms.commandedRpm = approach (motor.rampRpmPerS / 1000)
      (motor.rampRpmPerS / 1000 * 4) (motor.targetRpm : ℚ) motor.commandedRpm := rampStep_eq hpos
  rw [htick]
  exact ⟨approach_between hup hdown, by linarith, by linarith⟩

/-- Ticks alone iterate the ramp towards the same target. -/
theorem iterate_tick1ms (h : 0 < motor.rampRpmPerS) (n : ℕ) :
    (tick1ms^[n] motor).targetRpm = motor.targetRpm ∧
      (tick1ms^[n] motor).rampRpmPerS = motor.rampRpmPerS ∧
      (tick1ms^[n] motor).commandedRpm = (approach (motor.rampRpmPerS / 1000)
        (motor.rampRpmPerS / 1000 * 4) (motor.targetRpm : ℚ))^[n] motor.commandedRpm := by
  induction n with
  | zero => exact ⟨rfl, rfl, rfl⟩
  | succ n ih =>
    obtain ⟨htarget, hramp, hcommanded⟩ := ih
    rw [Function.iterate_succ_apply', Function.iterate_succ_apply', ← hcommanded]
    refine ⟨htarget, hramp, ?_⟩
    have hpos : 0 < (tick1ms^[n] motor).rampRpmPerS := by rwa [hramp]
    have hstep := rampStep_eq hpos
    rw [htarget, hramp] at hstep
    exact hstep

theorem tick1ms_settles (h : 0 < motor.rampRpmPerS) :
    ∃ n, ∀ m, n ≤ m → (tick1ms^[m] motor).commandedRpm = motor.targetRpm := by
  have hup : 0 < motor.rampRpmPerS / 1000 := by linarith
  have hdown : 0 < motor.rampRpmPerS / 1000 * 4 := by linarith
  obtain ⟨n, hn⟩ := exists_reached (motor.targetRpm : ℚ) motor.commandedRpm hup hdown
  refine ⟨n, fun m hm => ?_⟩
  rw [(iterate_tick1ms h m).2.2]
  exact hn m hm

end Tick

/-! Calls in any order. -/

inductive Call where
  | setTarget (rpm : ℕ) (rampProfile : Byte)
  | burst (rpm : ℕ)
  | stop
  | enforceCap (cap : ℕ)
  | tick

def perform (motor : MotorController) : Call → MotorController
  | .setTarget rpm rampProfile => motor.setTarget rpm rampProfile
  | .burst rpm => motor.burst rpm
  | .stop => motor.stop
  | .enforceCap cap => motor.enforceCap cap
  | .tick => motor.tick1ms

theorem rampRateFor_le (profile : Byte) : rampRateFor profile ≤ 2500 := by
  unfold rampRateFor
  split_ifs <;> norm_num

/-- Step lemma. -/
theorem perform_inEnvelope {motor : MotorController} (h : InEnvelope motor) (call : Call) :
    InEnvelope (perform motor call) := by
  cases call with
  | setTarget rpm rampProfile =>
    exact ⟨setTarget_inRange h.inRange rpm rampProfile, rampRateFor_le rampProfile, h.duty⟩
  | burst rpm => exact ⟨burst_inRange h.inRange rpm, h.ramp, h.duty⟩
  | stop => exact ⟨stop_inRange h.inRange, h.ramp, le_rfl, zero_le_one⟩
  | enforceCap cap => exact ⟨enforceCap_inRange h.inRange cap, h.ramp, h.duty⟩
  | tick =>
    have hrange := tick1ms_inRange h.inRange
    have hmax : (0 : ℚ) < kMaxRpm := by norm_num [kMaxRpm]
    refine ⟨hrange, h.ramp, ?_, ?_⟩
    · exact div_nonneg hrange.nonneg hmax.le
    · exact (div_le_one hmax).mpr hrange.commanded

theorem run_inEnvelope {motor : MotorController} (h : InEnvelope motor) (calls : List Call) :
    InEnvelope (calls.foldl perform motor) := by
  induction calls generalizing motor with
  | nil => exact h
  | cons call rest ih => exact ih (perform_inEnvelope h call)

theorem inEnvelope_initial : InEnvelope {} := by
  refine ⟨inRange_initial, ?_, le_rfl, zero_le_one⟩
  norm_num

/-- Neither a tick nor a burst. -/
def Between (call : Call) : Prop := call ≠ .tick ∧ ∀ rpm, call ≠ .burst rpm

/-- Such calls never make the motor faster. -/
theorem between_le {motor : MotorController} (h : InEnvelope motor) {calls : List Call}
    (hcalls : ∀ call ∈ calls, Between call) :
    (calls.foldl perform motor).commandedRpm ≤ motor.commandedRpm := by
  induction calls generalizing motor with
  | nil => exact le_rfl
  | cons call rest ih =>
    obtain ⟨hcall, hrest⟩ := List.forall_mem_cons.mp hcalls
    refine (ih (perform_inEnvelope h call) hrest).trans ?_
    cases call with
    | setTarget rpm rampProfile => exact le_rfl
    | burst rpm => exact absurd rfl (hcall.2 rpm)
    | stop => exact h.inRange.nonneg
    | enforceCap cap =>
      change (if motor.commandedRpm > cap then (cap : ℚ) else motor.commandedRpm) ≤ _
      split_ifs with hcap
      · exact hcap.le
      · exact le_rfl
    | tick => exact absurd rfl hcall.1

/-- After any calls speed and duty are in range, the next two ticks without a burst between them
respect both acceleration limits, a ramp step falls by no more than the drive allows and stays on
its side of the target, and ticks alone bring the speed to its target and keep it there. -/
theorem drive_envelope (calls : List Call) :
    let motor := calls.foldl perform {}
    (0 ≤ motor.commandedRpm ∧ motor.commandedRpm ≤ 10700 ∧ 0 ≤ motor.duty ∧ motor.duty ≤ 1) ∧
      (∀ between : List Call, (∀ call ∈ between, Between call) →
        (between.foldl perform motor.tick1ms).tick1ms.commandedRpm ≤
          motor.tick1ms.commandedRpm + 5 / 2) ∧
      motor.commandedRpm - 14 ≤ motor.tick1ms.commandedRpm ∧
      (min motor.commandedRpm motor.targetRpm ≤ motor.tick1ms.commandedRpm ∧
        motor.tick1ms.commandedRpm ≤ max motor.commandedRpm motor.targetRpm) ∧
      ∃ n, ∀ m, n ≤ m → (tick1ms^[m] motor).commandedRpm = motor.targetRpm := by
  intro motor
  have h : InEnvelope motor := run_inEnvelope inEnvelope_initial calls
  obtain ⟨hbetween, hrise, hfall⟩ := tick1ms_limits h
  have hspeed : motor.commandedRpm ≤ 10700 := by
    have hcommanded := h.inRange.commanded
    norm_num [kMaxRpm] at hcommanded
    exact hcommanded
  refine ⟨⟨h.inRange.nonneg, hspeed, h.duty⟩, fun between hcalls => ?_, by linarith, hbetween,
    tick1ms_settles h.inRange.ramp⟩
  have hticked : InEnvelope motor.tick1ms := perform_inEnvelope h .tick
  obtain ⟨-, hrise, -⟩ := tick1ms_limits (run_inEnvelope hticked between)
  have hslower := between_le hticked hcalls
  linarith

end Culina.DriveEnvelope
