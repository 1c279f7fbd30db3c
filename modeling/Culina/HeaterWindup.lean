import Culina.Drives
import Mathlib.Tactic.Linarith
import Mathlib.Tactic.NormNum
import Mathlib.Tactic.Ring

/-!
The integral of the heater controller over whole histories. It gathers the errors
inside the band for as long as one target stays in force and nothing bounds it, so
whether the heater rests above the band is a question about what has been gathered.
-/
namespace Culina.HeaterWindup

open Wire Drives

inductive Command where
  | setTarget (target : DeciCelsius)
  | disable
  | update (measuredC : ℚ)
deriving DecidableEq, Repr

/-- One millisecond. -/
def kStepSeconds : ℚ := 1 / 1000

def apply (pid : HeaterPid) : Command → HeaterPid
  | .setTarget target => pid.setTarget target
  | .disable => pid.disable
  | .update measuredC => (pid.update measuredC kStepSeconds).2

/-- The controller after its past commands, newest first. -/
def after : List Command → HeaterPid
  | [] => {}
  | command :: past => apply (after past) command

/-- The target in force, if the heater is enabled. -/
def setting : List Command → Option DeciCelsius
  | [] => none
  | .setTarget target :: _ => some target
  | .disable :: _ => none
  | .update _ :: past => setting past

/-- What one update adds for this target. -/
def gain (measuredC : ℚ) (target : DeciCelsius) : ℚ :=
  if |toCelsius target - measuredC| < kIntegralBandC then
    (toCelsius target - measuredC) * kStepSeconds
  else 0

/-- The errors inside the band, summed since the target in force was first set. -/
def windup : List Command → ℚ
  | [] => 0
  | .setTarget target :: past => if setting past = some target then windup past else 0
  | .disable :: _ => 0
  | .update measuredC :: past => windup past + (setting past).elim 0 (gain measuredC)

/-! The controller holds what its past says. -/

structure Tracks (pid : HeaterPid) (past : List Command) : Prop where
  enabled : pid.enabled = (setting past).isSome
  target : ∀ target, setting past = some target → pid.targetDeci = target
  integral : pid.integral = windup past

theorem Tracks.setTarget {pid : HeaterPid} {past : List Command} (h : Tracks pid past)
    (target : DeciCelsius) : Tracks (pid.setTarget target) (.setTarget target :: past) := by
  refine ⟨rfl, fun _ hsetting => Option.some.inj hsetting, ?_⟩
  have henabled := h.enabled
  rw [windup, HeaterPid.setTarget]
  cases hsetting : setting past with
  | none =>
    rw [hsetting] at henabled
    simp [henabled]
  | some current =>
    rw [hsetting] at henabled
    have htarget := h.target current hsetting
    by_cases hsame : current = target
    · simp [henabled, htarget, hsame, h.integral]
    · have hother : target ≠ current := fun heq => hsame heq.symm
      simp [henabled, htarget, hsame, hother]

theorem Tracks.update {pid : HeaterPid} {past : List Command} (h : Tracks pid past)
    (measuredC : ℚ) :
    Tracks (pid.update measuredC kStepSeconds).2 (.update measuredC :: past) := by
  have henabled := h.enabled
  have hintegral := h.integral
  cases hsetting : setting past with
  | none =>
    rw [hsetting] at henabled
    have hsame : (pid.update measuredC kStepSeconds).2 = pid := by
      simp [HeaterPid.update, henabled]
    rw [hsame]
    refine ⟨?_, h.target, ?_⟩
    · rw [setting, hsetting, henabled]
    · rw [windup, hsetting, hintegral, Option.elim_none, add_zero]
  | some target =>
    rw [hsetting] at henabled
    have htarget := h.target target hsetting
    have hupdate : (pid.update measuredC kStepSeconds).2 =
        { pid with integral := pid.integral + gain measuredC target } := by
      unfold HeaterPid.update gain
      rw [henabled, htarget]
      by_cases hband : |toCelsius target - measuredC| < kIntegralBandC
      · simp [hband]
      · simp [hband]
    rw [hupdate]
    refine ⟨?_, h.target, ?_⟩
    · rw [setting, hsetting, henabled]
    · rw [windup, hsetting, hintegral, Option.elim_some]

theorem after_tracks (past : List Command) : Tracks (after past) past := by
  induction past with
  | nil => exact ⟨rfl, fun _ h => (by cases h), rfl⟩
  | cons command past ih =>
    cases command with
    | setTarget target => exact ih.setTarget target
    | disable => exact ⟨rfl, fun _ h => (by cases h), rfl⟩
    | update measuredC => exact ih.update measuredC

/-! Above the band. -/

/-- Outside the band the heater rests exactly when the error outweighs the gathered integral. -/
theorem rests_above_iff {past : List Command} {target : DeciCelsius}
    (hsetting : setting past = some target) {measuredC : ℚ}
    (habove : toCelsius target + kIntegralBandC ≤ measuredC) :
    ((after past).update measuredC kStepSeconds).1 = 0 ↔
      kKi * windup past ≤ kKp * (measuredC - toCelsius target) := by
  have htracks := after_tracks past
  have henabled : (after past).enabled = true := by
    rw [htracks.enabled, hsetting]
    rfl
  have hband : ¬ |toCelsius target - measuredC| < kIntegralBandC := by
    unfold kIntegralBandC at habove ⊢
    rw [not_lt, abs_of_nonpos (by linarith)]
    linarith
  simp only [HeaterPid.update, henabled, htracks.target target hsetting, hband, htracks.integral,
    Bool.not_true, Bool.false_eq_true, if_false]
  have hflip : kKp * (toCelsius target - measuredC) = -(kKp * (measuredC - toCelsius target)) := by
    ring
  rw [hflip]
  by_cases hnegative : -(kKp * (measuredC - toCelsius target)) + kKi * windup past < 0
  · rw [if_pos hnegative, if_neg (by norm_num [kMaxWatts])]
    exact iff_of_true rfl (by linarith)
  · rw [if_neg hnegative]
    by_cases hfull : -(kKp * (measuredC - toCelsius target)) + kKi * windup past > kMaxWatts
    · have hpositive : (0 : ℚ) < kMaxWatts := by norm_num [kMaxWatts]
      rw [if_pos hfull]
      exact iff_of_false hpositive.ne' (by linarith)
    · rw [if_neg hfull]
      constructor
      · intro hzero
        linarith
      · intro hle
        linarith

theorem rests_disabled {past : List Command} (hsetting : setting past = none) (measuredC : ℚ) :
    ((after past).update measuredC kStepSeconds).1 = 0 := by
  have henabled : (after past).enabled = false := by
    rw [(after_tracks past).enabled, hsetting]
    rfl
  simp [HeaterPid.update, henabled]

/-! Runs, newest command first. -/

/-- No update of the run heats at 5 °C or more above the target. -/
def NeverHeatsAbove (run : List Command) : Prop :=
  ∀ later measuredC past, run = later ++ .update measuredC :: past →
    toCelsius (after past).targetDeci + kIntegralBandC ≤ measuredC →
    ((after past).update measuredC kStepSeconds).1 = 0

/-- At every such update of an enabled heater the proportional part outweighs the sum of the errors
gathered inside the band. -/
def Outweighed (run : List Command) : Prop :=
  ∀ later measuredC past target, run = later ++ .update measuredC :: past →
    setting past = some target → toCelsius target + kIntegralBandC ≤ measuredC →
    kKi * windup past ≤ kKp * (measuredC - toCelsius target)

/-- A run never heats above the band exactly when nothing too large has been gathered inside it. -/
theorem never_heats_above_iff (run : List Command) : NeverHeatsAbove run ↔ Outweighed run := by
  constructor
  · intro h later measuredC past target hsplit hsetting habove
    refine (rests_above_iff hsetting habove).mp (h later measuredC past hsplit ?_)
    rwa [(after_tracks past).target target hsetting]
  · intro h later measuredC past hsplit habove
    cases hsetting : setting past with
    | none => exact rests_disabled hsetting measuredC
    | some target =>
      rw [(after_tracks past).target target hsetting] at habove
      exact (rests_above_iff hsetting habove).mpr (h later measuredC past target hsplit hsetting habove)

/-! A dish held below its target. -/

theorem setting_held {past : List Command} {target : DeciCelsius} (h : setting past = some target)
    (measuredC : ℚ) (steps : ℕ) :
    setting (List.replicate steps (.update measuredC) ++ past) = some target := by
  induction steps with
  | zero => exact h
  | succ steps ih => exact ih

/-- Held at one temperature, the controller gathers the same error at each step. -/
theorem windup_held {past : List Command} {target : DeciCelsius} (h : setting past = some target)
    (measuredC : ℚ) (steps : ℕ) :
    windup (List.replicate steps (.update measuredC) ++ past) =
      windup past + steps * gain measuredC target := by
  induction steps with
  | zero => simp
  | succ steps ih =>
    rw [List.replicate_succ, List.cons_append, windup, ih, setting_held h]
    rw [Option.elim_some, Nat.cast_succ]
    ring

/-- 100 °C are set, 95.1 °C measured for seventy seconds. -/
def simmered : List Command := List.replicate 70000 (.update 95.1) ++ [.setTarget 1000]

/-- At 105 °C the heater is still on. -/
theorem heats_above : ¬ NeverHeatsAbove (.update 105 :: simmered) := by
  intro h
  have hset : setting [.setTarget 1000] = some 1000 := rfl
  have hsetting : setting simmered = some 1000 := setting_held hset _ _
  have habove : toCelsius 1000 + kIntegralBandC ≤ 105 := by norm_num [toCelsius, kIntegralBandC]
  have hrests := h [] 105 simmered rfl (by rwa [(after_tracks simmered).target 1000 hsetting])
  have houtweighed := (rests_above_iff hsetting habove).mp hrests
  have hgain : gain 95.1 1000 = 49 / 10000 := by
    norm_num [gain, toCelsius, kIntegralBandC, kStepSeconds, abs_of_pos]
  have hfresh : windup [.setTarget 1000] = 0 := ite_self 0
  have hwindup : windup simmered = 343 := by
    rw [simmered, windup_held hset, hgain, hfresh]
    norm_num
  rw [hwindup] at houtweighed
  norm_num [kKi, kKp, toCelsius] at houtweighed

end Culina.HeaterWindup
