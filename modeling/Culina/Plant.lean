import Culina.Lid
import Culina.Relaxation
import Mathlib.Tactic.NormNum

/-!
The physical models behind the simulated board: motor, scale, bowl, heater, temperature
sensor, and the watchdog of the application. The noise of a sensor is a stream that its
readings consume. The lid of the board stands in front of its models.
-/
namespace Culina.Plant

open Wire Ports Lid Relaxation

/-! The motor. -/

structure MotorModel where
  duty : ℚ := 0
  rpm : ℚ := 0
  viscosity : ℚ := 1
  stalled : Bool := false
  currentMa : ℕ := 0
deriving DecidableEq, Repr

namespace MotorModel

def kMaxRpm : ℚ := 10700
def kSpeedTauSeconds : ℚ := 2 / 5
def kIdleCurrentMa : ℚ := 150
def kCurrentPerRpmMa : ℚ := 1 / 20
def kStallLoadLimit : ℚ := 9000

def setDuty (motor : MotorModel) (duty : ℚ) : MotorModel :=
  let duty := if duty < 0 then 0 else duty
  let duty := if duty > 1 then 1 else duty
  { motor with duty, stalled := if duty = 0 then false else motor.stalled }

/-- The speed of a motor that turns freely. -/
def turned (motor : MotorModel) (dtSeconds : ℚ) : ℚ :=
  motor.rpm + (motor.duty * kMaxRpm - motor.rpm) * dtSeconds / kSpeedTauSeconds

def step (motor : MotorModel) (dtSeconds contentsGrams : ℚ) : MotorModel :=
  if motor.stalled then { motor with rpm := 0, currentMa := 2500 }
  else
    let rpm := motor.turned dtSeconds
    let load := rpm / kMaxRpm * motor.viscosity * (500 + contentsGrams)
    if load > kStallLoadLimit then { motor with stalled := true, rpm := 0, currentMa := 2500 }
    else
      { motor with
        rpm
        currentMa := if motor.duty > 0 then ⌊kIdleCurrentMa + kCurrentPerRpmMa * rpm + load / 10⌋.toNat
          else 0 }

/-- The speed is shown without its fraction. -/
def shownRpm (motor : MotorModel) : ℕ := if motor.rpm < 0 then 0 else ⌊motor.rpm⌋.toNat

end MotorModel

/-! The scale. -/

structure ScaleModel where
  trueMassG : ℚ := 0
  driftG : ℚ := 0
  vibrationRpm : ℚ := 0
  noise : ℕ → ℚ
  draws : ℕ := 0

namespace ScaleModel

def kDriftGramsPerMinute : ℚ := 1 / 20
def kMaxRpm : ℚ := 10700
def kVibrationAmplitudeG : ℚ := 90
def kCountsPerGram : ℚ := 10

def step (scale : ScaleModel) (dtSeconds motorRpm : ℚ) : ScaleModel :=
  { scale with
    driftG := scale.driftG + kDriftGramsPerMinute * dtSeconds / 60
    vibrationRpm := motorRpm }

/-- A reading draws twice: for the vibration, then for the cell. -/
def readRawCounts (scale : ScaleModel) : ℤ × ScaleModel :=
  let speedRatio := scale.vibrationRpm / kMaxRpm
  let vibration := kVibrationAmplitudeG * speedRatio * speedRatio * scale.noise scale.draws
  let gauss := scale.noise (scale.draws + 1)
  let counts := (scale.trueMassG + scale.driftG + gauss + vibration) * kCountsPerGram
  (if 0 ≤ counts then ⌊counts⌋ else ⌈counts⌉, { scale with draws := scale.draws + 2 })

end ScaleModel

/-! The bowl. -/

structure ThermalModel where
  temperatureC : ℚ := 20
  ambientC : ℚ := 20
deriving DecidableEq, Repr

namespace ThermalModel

def kBowlHeatCapacityJPerK : ℚ := 500
def kContentsHeatCapacityJPerGK : ℚ := 209 / 50
def kLossWPerK : ℚ := 5

def capacity (contentsGrams : ℚ) : ℚ :=
  kBowlHeatCapacityJPerK + kContentsHeatCapacityJPerGK * contentsGrams

def heated (bowl : ThermalModel) (dtSeconds heaterWatts contentsGrams : ℚ) : ℚ :=
  let lossWatts := kLossWPerK * (bowl.temperatureC - bowl.ambientC)
  bowl.temperatureC + (heaterWatts - lossWatts) * dtSeconds / capacity contentsGrams

def step (bowl : ThermalModel) (dtSeconds heaterWatts contentsGrams : ℚ) : ThermalModel :=
  let temperatureC := bowl.heated dtSeconds heaterWatts contentsGrams
  { bowl with
    temperatureC := if temperatureC < bowl.ambientC - 40 then bowl.ambientC - 40 else temperatureC }

end ThermalModel

/-! The drivers of the board. -/

structure HeaterHal where
  watts : ℚ := 0
deriving DecidableEq, Repr

namespace HeaterHal

def kMaxWatts : ℚ := 1200

def setPowerW (_ : HeaterHal) (watts : ℚ) : HeaterHal :=
  let watts := if watts < 0 then 0 else watts
  ⟨if watts > kMaxWatts then kMaxWatts else watts⟩

end HeaterHal

structure TempSensorHal where
  noise : ℕ → ℚ
  draws : ℕ := 0
  failed : Bool := false

def TempSensorHal.readDeciCelsius (sensor : TempSensorHal) (bowl : ThermalModel) :
    Except Status DeciCelsius × TempSensorHal :=
  if sensor.failed then (.error .hardwareFault, sensor)
  else
    (.ok (fromCelsius (bowl.temperatureC + sensor.noise sensor.draws)),
      { sensor with draws := sensor.draws + 1 })

structure Watchdog where
  lastFeedMs : Millis := 0
  armed : Bool := false
  tripped : Bool := false
deriving DecidableEq, Repr

namespace Watchdog

def kTimeoutMs : Millis := 500

def feed (watchdog : Watchdog) (now : Millis) : Watchdog :=
  { watchdog with armed := true, lastFeedMs := now }

def check (watchdog : Watchdog) (now : Millis) : Watchdog :=
  if watchdog.armed && decide (now - watchdog.lastFeedMs > kTimeoutMs) then
    { watchdog with tripped := true }
  else watchdog

end Watchdog

/-! The board. -/

/-- All of a simulated board but its lid. -/
structure Models where
  nowUs : ℕ := 0
  thermal : ThermalModel := {}
  motor : MotorModel := {}
  scale : ScaleModel
  heater : HeaterHal := {}
  tempSensor : TempSensorHal
  watchdog : Watchdog := {}

namespace Models

def kDtSeconds : ℚ := 1 / 1000

def nowMs (models : Models) : Millis := BitVec.ofNat 32 (models.nowUs / 1000)

/-- The loop body of `step_ms`. -/
def step (models : Models) : Models :=
  let nowUs := models.nowUs + 1000
  let motor := models.motor.step kDtSeconds models.scale.trueMassG
  let scale := models.scale.step kDtSeconds motor.shownRpm
  let thermal := models.thermal.step kDtSeconds models.heater.watts scale.trueMassG
  { models with
    nowUs
    motor
    scale
    thermal
    watchdog := models.watchdog.check (BitVec.ofNat 32 (nowUs / 1000)) }

end Models

/-- The lid of the models is never looked at. -/
instance : Board Models where
  readDeciCelsius models :=
    ((models.tempSensor.readDeciCelsius models.thermal).1,
      { models with tempSensor := (models.tempSensor.readDeciCelsius models.thermal).2 })
  rpm models := models.motor.shownRpm
  stalled models := models.motor.stalled
  isClosed _ := true
  isLocked _ := false
  setLock models _ := models
  readRaw models := (.ok models.scale.readRawCounts.1, { models with scale := models.scale.readRawCounts.2 })

/-- A working sensor reads the bowl. -/
theorem readDeciCelsius_working {board : SimBoard Models} (h : board.sensors.tempSensor.failed = false) :
    Board.readDeciCelsius board =
      (.ok (fromCelsius (board.sensors.thermal.temperatureC +
          board.sensors.tempSensor.noise board.sensors.tempSensor.draws)),
        { board with
          sensors :=
            { board.sensors with
              tempSensor := { board.sensors.tempSensor with draws := board.sensors.tempSensor.draws + 1 } } }) := by
  have hread : board.sensors.tempSensor.readDeciCelsius board.sensors.thermal =
      (.ok (fromCelsius (board.sensors.thermal.temperatureC +
          board.sensors.tempSensor.noise board.sensors.tempSensor.draws)),
        { board.sensors.tempSensor with draws := board.sensors.tempSensor.draws + 1 }) := by
    unfold TempSensorHal.readDeciCelsius
    exact if_neg (Bool.not_eq_true _ ▸ h)
  change ((board.sensors.tempSensor.readDeciCelsius board.sensors.thermal).1,
    { board with
      sensors :=
        { board.sensors with
          tempSensor := (board.sensors.tempSensor.readDeciCelsius board.sensors.thermal).2 } }) = _
  rw [hread]

/-! One millisecond of the motor. -/

namespace MotorModel

variable {motor : MotorModel} {level grams : ℚ}

/-- What every motor reached by its operations satisfies. -/
structure InRange (motor : MotorModel) : Prop where
  duty_nonneg : 0 ≤ motor.duty
  duty_le : motor.duty ≤ 1
  rpm_nonneg : 0 ≤ motor.rpm
  rpm_le : motor.rpm ≤ kMaxRpm

/-- A millisecond takes the speed a four hundredth of the way to the driven one. -/
theorem turned_eq (motor : MotorModel) :
    motor.turned Models.kDtSeconds = relax (1 / 400) (motor.duty * kMaxRpm) motor.rpm := by
  unfold turned relax Models.kDtSeconds kSpeedTauSeconds
  ring

/-- A step turns the motor freely or stops it. -/
theorem step_cases (motor : MotorModel) (grams : ℚ) :
    let after := motor.step Models.kDtSeconds grams
    after.duty = motor.duty ∧ after.viscosity = motor.viscosity ∧
      ((motor.stalled = false ∧ after.stalled = false ∧ after.rpm = motor.turned Models.kDtSeconds) ∨
        (after.stalled = true ∧ after.rpm = 0)) := by
  unfold step
  cases motor.stalled with
  | true => exact ⟨rfl, rfl, Or.inr ⟨rfl, rfl⟩⟩
  | false =>
    dsimp only
    rw [if_neg Bool.false_ne_true]
    split
    · exact ⟨rfl, rfl, Or.inr ⟨rfl, rfl⟩⟩
    · exact ⟨rfl, rfl, Or.inl ⟨rfl, rfl, rfl⟩⟩

theorem step_rpm_le (hlevel : 0 ≤ level) (hduty : motor.duty * kMaxRpm ≤ level)
    (hrpm : motor.rpm ≤ level) : (motor.step Models.kDtSeconds grams).rpm ≤ level := by
  obtain ⟨-, -, hturned | hstopped⟩ := step_cases motor grams
  · rw [hturned.2.2, turned_eq]
    exact relax_le (by norm_num) (by norm_num) hduty hrpm
  · rw [hstopped.2]
    exact hlevel

theorem step_inRange (h : motor.InRange) : (motor.step Models.kDtSeconds grams).InRange := by
  obtain ⟨hduty, -, hspeed⟩ := step_cases motor grams
  have hmax : (0 : ℚ) ≤ kMaxRpm := by norm_num [kMaxRpm]
  have hdriven : motor.duty * kMaxRpm ≤ kMaxRpm := by
    have := mul_le_mul_of_nonneg_right h.duty_le hmax
    linarith
  refine ⟨hduty ▸ h.duty_nonneg, hduty ▸ h.duty_le, ?_, step_rpm_le hmax hdriven h.rpm_le⟩
  rcases hspeed with hturned | hstopped
  · rw [hturned.2.2, turned_eq]
    exact le_relax (by norm_num) (by norm_num) (mul_nonneg h.duty_nonneg hmax) h.rpm_nonneg
  · rw [hstopped.2]

theorem setDuty_inRange (h : motor.InRange) (duty : ℚ) : (motor.setDuty duty).InRange := by
  refine ⟨?_, ?_, h.rpm_nonneg, h.rpm_le⟩
  · unfold setDuty
    dsimp only
    split_ifs <;> linarith
  · unfold setDuty
    dsimp only
    split_ifs <;> linarith

/-- A duty in range is taken as it is. -/
theorem setDuty_duty {duty : ℚ} (hnonneg : 0 ≤ duty) (hle : duty ≤ 1) :
    (motor.setDuty duty).duty = duty := by
  simp [setDuty, not_lt.mpr hnonneg, not_lt.mpr hle]

theorem setDuty_stalled (duty : ℚ) (h : motor.stalled = false) : (motor.setDuty duty).stalled = false := by
  unfold setDuty
  simp only [h, ite_self]

theorem setDuty_zero_stalled : (motor.setDuty 0).stalled = false := by
  simp [setDuty]

/-- The shown speed is the true one without its fraction. -/
theorem rpm_lt_of_shownRpm_lt {motor : MotorModel} {bound : ℕ} (h : motor.shownRpm < bound) :
    motor.rpm < bound := by
  have hbound : (0 : ℚ) < bound := by
    exact_mod_cast lt_of_le_of_lt (Nat.zero_le _) h
  unfold shownRpm at h
  split_ifs at h with hneg
  · exact hneg.trans hbound
  · have hfloor : ⌊motor.rpm⌋ < (bound : ℤ) := by omega
    exact_mod_cast Int.floor_lt.mp hfloor

end MotorModel

/-! One millisecond of the bowl. -/

namespace ThermalModel

variable {bowl : ThermalModel} {watts grams : ℚ}

/-- The share of the way to its resting temperature that a bowl moves in a millisecond. -/
def coolingRate (grams : ℚ) : ℚ := kLossWPerK * Models.kDtSeconds / capacity grams

theorem capacity_pos (hgrams : 0 ≤ grams) : kBowlHeatCapacityJPerK ≤ capacity grams := by
  unfold capacity kContentsHeatCapacityJPerGK
  linarith

theorem coolingRate_nonneg (hgrams : 0 ≤ grams) : 0 ≤ coolingRate grams := by
  have hcapacity := capacity_pos hgrams
  refine div_nonneg (by norm_num [kLossWPerK, Models.kDtSeconds]) (le_trans ?_ hcapacity)
  norm_num [kBowlHeatCapacityJPerK]

theorem coolingRate_le (hgrams : 0 ≤ grams) : coolingRate grams ≤ 1 / 100000 := by
  have hcapacity := capacity_pos hgrams
  unfold kBowlHeatCapacityJPerK at hcapacity
  unfold coolingRate kLossWPerK Models.kDtSeconds
  rw [div_le_iff₀ (by linarith)]
  linarith

/-- A bowl moves towards the temperature at which it loses what the heater supplies. -/
theorem heated_eq (bowl : ThermalModel) (watts grams : ℚ) :
    bowl.heated Models.kDtSeconds watts grams =
      relax (coolingRate grams) (bowl.ambientC + watts / kLossWPerK) bowl.temperatureC := by
  unfold heated relax coolingRate kLossWPerK
  ring

/-- The floor below the ambient temperature is never reached. -/
theorem step_eq (hgrams : 0 ≤ grams) (hwatts : 0 ≤ watts) (hwarm : bowl.ambientC ≤ bowl.temperatureC) :
    bowl.step Models.kDtSeconds watts grams =
      { bowl with
        temperatureC :=
          relax (coolingRate grams) (bowl.ambientC + watts / kLossWPerK) bowl.temperatureC } ∧
      bowl.ambientC ≤ (bowl.step Models.kDtSeconds watts grams).temperatureC := by
  have hrate := coolingRate_le hgrams
  have hrest : bowl.ambientC ≤ bowl.ambientC + watts / kLossWPerK := by
    have := div_nonneg hwatts (show (0 : ℚ) ≤ kLossWPerK by norm_num [kLossWPerK])
    linarith
  have hlow := le_relax (coolingRate_nonneg hgrams) (by linarith) hrest hwarm
  have hstep : bowl.step Models.kDtSeconds watts grams =
      { bowl with
        temperatureC :=
          relax (coolingRate grams) (bowl.ambientC + watts / kLossWPerK) bowl.temperatureC } := by
    unfold step
    rw [heated_eq]
    dsimp only
    rw [if_neg (by linarith)]
  refine ⟨hstep, ?_⟩
  rw [hstep]
  exact hlow

end ThermalModel

end Culina.Plant
