import Culina.Wire

/-!
The pure control logic of the safety processor: the limits, the interlocks that
bound a requested speed, the motor ramp and the heater controller. The last duty
written to the motor is kept in the motor controller.
-/
namespace Culina.Drives

open Wire

def kMaxRpm : ℕ := 10700
def kLidOpenMaxRpm : ℕ := 500
def kUnlockedMaxRpm : ℕ := 6400
def kUnlockMaxRpm : ℕ := 100
def kSpillGuardTempC : ℚ := 60
def kSpillGuardMaxRpm : ℕ := 6400
def kTareMaxRpm : ℕ := 50
def kOvertempCutoffC : ℚ := 165
def kHeaterMinTargetDeci : DeciCelsius := 370
def kHeaterMaxTargetDeci : DeciCelsius := 1600
def kLinkTimeoutMs : Millis := 5000

/-! Interlocks. -/

structure Inputs where
  tempC : ℚ := 20
  rpm : ℕ := 0
  lidClosed : Bool := true
  lidLocked : Bool := false
  motorStalled : Bool := false
deriving DecidableEq, Repr

namespace Inputs

def clampSpeedRequest (requested : ℕ) (inputs : Inputs) : ℕ :=
  let allowed := requested
  let allowed := if !inputs.lidClosed && decide (allowed > kLidOpenMaxRpm) then kLidOpenMaxRpm
    else allowed
  let allowed := if inputs.lidClosed && !inputs.lidLocked && decide (allowed > kUnlockedMaxRpm) then
    kUnlockedMaxRpm else allowed
  if inputs.tempC > kSpillGuardTempC ∧ allowed > kSpillGuardMaxRpm then kSpillGuardMaxRpm
  else allowed

def continuousCap (inputs : Inputs) : ℕ :=
  let cap := if inputs.tempC > kSpillGuardTempC then kSpillGuardMaxRpm else kMaxRpm
  if !inputs.lidClosed && decide (cap > kLidOpenMaxRpm) then kLidOpenMaxRpm
  else if !inputs.lidLocked && decide (cap > kUnlockedMaxRpm) then kUnlockedMaxRpm
  else cap

def evaluate (inputs : Inputs) : FaultCode :=
  if inputs.tempC ≥ kOvertempCutoffC then .overtemp
  else if inputs.motorStalled then .motorStall
  else .none

theorem continuousCap_le (inputs : Inputs) : inputs.continuousCap ≤ kMaxRpm := by
  unfold continuousCap kMaxRpm kSpillGuardMaxRpm kLidOpenMaxRpm kUnlockedMaxRpm
  dsimp only
  split_ifs <;> omega

theorem continuousCap_open {inputs : Inputs} (h : inputs.lidClosed = false) :
    inputs.continuousCap ≤ kLidOpenMaxRpm := by
  unfold continuousCap kMaxRpm kSpillGuardMaxRpm kLidOpenMaxRpm kUnlockedMaxRpm
  simp only [h, Bool.not_false, Bool.true_and]
  split_ifs <;> simp_all

theorem continuousCap_unlocked {inputs : Inputs} (h : inputs.lidLocked = false) :
    inputs.continuousCap ≤ kUnlockedMaxRpm := by
  unfold continuousCap kMaxRpm kSpillGuardMaxRpm kLidOpenMaxRpm kUnlockedMaxRpm
  simp only [h, Bool.not_false, Bool.true_and]
  split_ifs <;> simp_all

theorem continuousCap_hot {inputs : Inputs} (h : inputs.tempC > kSpillGuardTempC) :
    inputs.continuousCap ≤ kSpillGuardMaxRpm := by
  unfold continuousCap kMaxRpm kSpillGuardMaxRpm kLidOpenMaxRpm kUnlockedMaxRpm
  simp only [h, if_true]
  split_ifs <;> omega

/-- With the lid closed and locked and the bowl cool nothing limits the speed. -/
theorem continuousCap_free {inputs : Inputs} (hclosed : inputs.lidClosed = true)
    (hlocked : inputs.lidLocked = true) (hcool : inputs.tempC ≤ kSpillGuardTempC) :
    inputs.continuousCap = kMaxRpm := by
  simp [continuousCap, hclosed, hlocked, not_lt.mpr hcool]

theorem clampSpeedRequest_free {inputs : Inputs} (hclosed : inputs.lidClosed = true)
    (hlocked : inputs.lidLocked = true) (hcool : inputs.tempC ≤ kSpillGuardTempC) (rpm : ℕ) :
    inputs.clampSpeedRequest rpm = rpm := by
  simp [clampSpeedRequest, hclosed, hlocked, not_lt.mpr hcool]

theorem clampSpeedRequest_le (rpm : ℕ) (inputs : Inputs) :
    inputs.clampSpeedRequest rpm ≤ rpm := by
  unfold clampSpeedRequest
  simp only [Bool.and_eq_true, Bool.not_eq_true', decide_eq_true_eq]
  split_ifs <;> omega

theorem evaluate_none {inputs : Inputs} (h : inputs.evaluate = .none) :
    inputs.tempC < kOvertempCutoffC ∧ inputs.motorStalled = false := by
  unfold evaluate at h
  split at h
  · cases h
  · rename_i htemp
    split at h
    · cases h
    · rename_i hstall
      exact ⟨not_le.mp htemp, Bool.not_eq_true _ ▸ hstall⟩

end Inputs

/-! Motor ramp. -/

structure MotorController where
  commandedRpm : ℚ := 0
  targetRpm : ℕ := 0
  rampRpmPerS : ℚ := 500
  duty : ℚ := 0
deriving DecidableEq, Repr

namespace MotorController

def rampRateFor (profile : Byte) : ℚ :=
  if profile = kRampGentle then 500
  else if profile = kRampNormal then 1500
  else if profile = kRampFast then 2500
  else 1500

def setTarget (motor : MotorController) (rpm : ℕ) (rampProfile : Byte) : MotorController :=
  { motor with
    targetRpm := if rpm > kMaxRpm then kMaxRpm else rpm
    rampRpmPerS := rampRateFor rampProfile }

def burst (motor : MotorController) (rpm : ℕ) : MotorController :=
  let rpm := if rpm > kMaxRpm then kMaxRpm else rpm
  { motor with targetRpm := rpm, commandedRpm := rpm }

def stop (motor : MotorController) : MotorController :=
  { motor with targetRpm := 0, commandedRpm := 0, duty := 0 }

def enforceCap (motor : MotorController) (cap : ℕ) : MotorController :=
  { motor with
    targetRpm := if motor.targetRpm > cap then cap else motor.targetRpm
    commandedRpm := if motor.commandedRpm > cap then cap else motor.commandedRpm }

/-- The commanded speed after one ramp step towards the target. -/
def rampStep (motor : MotorController) : ℚ :=
  let target : ℚ := motor.targetRpm
  let maxStep := motor.rampRpmPerS / 1000
  if motor.commandedRpm < target then
    if motor.commandedRpm + maxStep > target then target else motor.commandedRpm + maxStep
  else if motor.commandedRpm > target then
    -- Deceleration is four times faster.
    if motor.commandedRpm - maxStep * 4 < target then target else motor.commandedRpm - maxStep * 4
  else motor.commandedRpm

def tick1ms (motor : MotorController) : MotorController :=
  { motor with commandedRpm := motor.rampStep, duty := motor.rampStep / kMaxRpm }

def active (motor : MotorController) : Bool :=
  decide (motor.targetRpm > 0) || decide (motor.commandedRpm > 0)

/-- What every controller reached by its operations satisfies. -/
structure InRange (motor : MotorController) : Prop where
  nonneg : 0 ≤ motor.commandedRpm
  commanded : motor.commandedRpm ≤ kMaxRpm
  target : motor.targetRpm ≤ kMaxRpm
  ramp : 0 < motor.rampRpmPerS

def Stopped (motor : MotorController) : Prop :=
  motor.targetRpm = 0 ∧ motor.commandedRpm = 0 ∧ motor.duty = 0

theorem active_eq_false {motor : MotorController} (h : motor.InRange) :
    motor.active = false ↔ motor.targetRpm = 0 ∧ motor.commandedRpm = 0 := by
  simp only [active, Bool.or_eq_false_iff, decide_eq_false_iff_not, not_lt]
  constructor
  · rintro ⟨htarget, hcommanded⟩
    exact ⟨Nat.le_zero.mp htarget, le_antisymm hcommanded h.nonneg⟩
  · rintro ⟨htarget, hcommanded⟩
    exact ⟨Nat.le_of_eq htarget, le_of_eq hcommanded⟩

theorem Stopped.not_active {motor : MotorController} (h : motor.Stopped) :
    motor.active = false := by
  obtain ⟨htarget, hcommanded, _⟩ := h
  simp [active, htarget, hcommanded]

theorem stop_stopped (motor : MotorController) : motor.stop.Stopped := ⟨rfl, rfl, rfl⟩

theorem rampRateFor_pos (profile : Byte) : 0 < rampRateFor profile := by
  unfold rampRateFor
  split_ifs <;> norm_num

/-- A ramp step stays between the old speed and the target. -/
theorem rampStep_le {motor : MotorController} {bound : ℚ} (hramp : 0 < motor.rampRpmPerS)
    (htarget : (motor.targetRpm : ℚ) ≤ bound) (hcommanded : motor.commandedRpm ≤ bound) :
    motor.rampStep ≤ bound := by
  unfold rampStep
  dsimp only
  split_ifs <;> linarith

theorem rampStep_nonneg {motor : MotorController} (h : motor.InRange) : 0 ≤ motor.rampStep := by
  have htarget : (0 : ℚ) ≤ motor.targetRpm := Nat.cast_nonneg _
  have hramp := h.ramp
  have hnonneg := h.nonneg
  unfold rampStep
  dsimp only
  split_ifs <;> linarith

theorem inRange_initial : InRange {} := by
  constructor <;> norm_num [kMaxRpm]

theorem setTarget_inRange {motor : MotorController} (h : motor.InRange) (rpm : ℕ)
    (rampProfile : Byte) : (motor.setTarget rpm rampProfile).InRange := by
  refine ⟨h.nonneg, h.commanded, ?_, rampRateFor_pos rampProfile⟩
  unfold setTarget
  dsimp only
  split_ifs <;> omega

theorem burst_inRange {motor : MotorController} (h : motor.InRange) (rpm : ℕ) :
    (motor.burst rpm).InRange := by
  have hbound : (if rpm > kMaxRpm then kMaxRpm else rpm) ≤ kMaxRpm := by
    split_ifs <;> omega
  exact ⟨Nat.cast_nonneg _, Nat.cast_le.mpr hbound, hbound, h.ramp⟩

theorem stop_inRange {motor : MotorController} (h : motor.InRange) : motor.stop.InRange :=
  ⟨le_refl _, Nat.cast_nonneg _, Nat.zero_le _, h.ramp⟩

theorem enforceCap_le (motor : MotorController) (cap : ℕ) :
    (motor.enforceCap cap).targetRpm ≤ cap ∧ (motor.enforceCap cap).commandedRpm ≤ cap := by
  unfold enforceCap
  constructor
  · dsimp only
    split_ifs <;> omega
  · dsimp only
    split_ifs with h
    · exact le_refl _
    · exact not_lt.mp h

theorem enforceCap_inRange {motor : MotorController} (h : motor.InRange) (cap : ℕ) :
    (motor.enforceCap cap).InRange := by
  refine ⟨?_, ?_, ?_, h.ramp⟩
  · unfold enforceCap
    dsimp only
    split_ifs
    · exact Nat.cast_nonneg _
    · exact h.nonneg
  · unfold enforceCap
    dsimp only
    split_ifs with hcap
    · exact le_trans (le_of_lt hcap) h.commanded
    · exact h.commanded
  · have htarget := h.target
    unfold enforceCap
    dsimp only
    split_ifs <;> omega

/-- A cap at or above every speed changes nothing. -/
theorem enforceCap_eq {motor : MotorController} (h : motor.InRange) :
    motor.enforceCap kMaxRpm = motor := by
  simp [enforceCap, not_lt.mpr h.target, not_lt.mpr h.commanded]

theorem tick1ms_inRange {motor : MotorController} (h : motor.InRange) : motor.tick1ms.InRange :=
  ⟨rampStep_nonneg h, rampStep_le h.ramp (Nat.cast_le.mpr h.target) h.commanded, h.target, h.ramp⟩

theorem tick1ms_duty (motor : MotorController) : motor.tick1ms.duty * kMaxRpm = motor.rampStep :=
  div_mul_cancel₀ motor.rampStep (by norm_num [kMaxRpm])

/-- A cap and a tick leave an inactive motor at rest. -/
theorem rest_of_inactive {motor : MotorController} (h : motor.InRange)
    (hactive : motor.active = false) (cap : ℕ) : (motor.enforceCap cap).tick1ms.Stopped := by
  obtain ⟨htarget, hcommanded⟩ := (active_eq_false h).mp hactive
  have hcap : ¬ (cap : ℚ) < 0 := not_lt.mpr (Nat.cast_nonneg cap)
  simp [Stopped, tick1ms, rampStep, enforceCap, htarget, hcommanded, hcap]

/-- The duty after a capped tick stays below the cap. -/
theorem capped_duty {motor : MotorController} (h : motor.InRange) (cap : ℕ) :
    (motor.enforceCap cap).tick1ms.duty * kMaxRpm ≤ cap := by
  obtain ⟨htarget, hcommanded⟩ := enforceCap_le motor cap
  rw [tick1ms_duty]
  exact rampStep_le (enforceCap_inRange h cap).ramp (Nat.cast_le.mpr htarget) hcommanded

end MotorController

/-! Heater controller. -/

def kKp : ℚ := 130
def kKi : ℚ := 2
def kMaxWatts : ℚ := 1200
def kIntegralBandC : ℚ := 5

structure HeaterPid where
  enabled : Bool := false
  targetDeci : DeciCelsius := 0
  integral : ℚ := 0
deriving DecidableEq, Repr

namespace HeaterPid

def setTarget (pid : HeaterPid) (target : DeciCelsius) : HeaterPid where
  integral := if !pid.enabled || decide (target ≠ pid.targetDeci) then 0 else pid.integral
  targetDeci := target
  enabled := true

def disable (_ : HeaterPid) : HeaterPid where
  enabled := false
  targetDeci := 0
  integral := 0

/-- The commanded power in watts, and the controller with its integral updated. -/
def update (pid : HeaterPid) (measuredC dtSeconds : ℚ) : ℚ × HeaterPid :=
  if !pid.enabled then (0, pid)
  else
    let error := toCelsius pid.targetDeci - measuredC
    let integral := if |error| < kIntegralBandC then pid.integral + error * dtSeconds
      else pid.integral
    let watts := kKp * error + kKi * integral
    let watts := if watts < 0 then 0 else watts
    let watts := if watts > kMaxWatts then kMaxWatts else watts
    (watts, { pid with integral })

theorem update_enabled (pid : HeaterPid) (measuredC dtSeconds : ℚ) :
    (pid.update measuredC dtSeconds).2.enabled = pid.enabled := by
  unfold update
  split <;> rfl

end HeaterPid

end Culina.Drives
