import Culina.MainLoop

/-!
The bowl in the closed loop. The heater gets power in a millisecond only if the reading of the last
tick was below the cutoff, so the bowl ends at most one millisecond of full power above it, whatever
the link and the control socket bring.
-/
namespace Culina.BowlTemperature

open Wire Drives Ports Lid Plant Relaxation MainLoop MainLoop.Rig Runs

/-- A reading below a whole number of degrees was one before it lost its fraction. -/
theorem lt_of_reading_lt {celsius : ℚ} {limit : ℕ} (h : toCelsius (fromCelsius celsius) < limit) :
    celsius < limit := by
  by_cases hnonneg : 0 ≤ celsius
  · rw [fromCelsius, if_pos hnonneg, toCelsius, div_lt_iff₀ (by norm_num)] at h
    have hfloor : ⌊celsius * 10⌋ < (limit * 10 : ℤ) := by exact_mod_cast h
    have hshown := Int.floor_lt.mp hfloor
    push_cast at hshown
    linarith
  · exact (not_le.mp hnonneg).trans_le (Nat.cast_nonneg limit)

/-- A millisecond heats the bowl by no more than it would heat the empty one without losses. -/
theorem heated_le {bowl : ThermalModel} {watts grams : ℚ} (hgrams : 0 ≤ grams) (hwatts : 0 ≤ watts)
    (hwarm : bowl.ambientC ≤ bowl.temperatureC) :
    (bowl.step Models.kDtSeconds watts grams).temperatureC ≤ bowl.temperatureC + watts / 500000 := by
  obtain ⟨hstep, -⟩ := ThermalModel.step_eq hgrams hwatts hwarm
  have hnonneg := ThermalModel.coolingRate_nonneg hgrams
  have hrate := mul_le_mul_of_nonneg_left (ThermalModel.coolingRate_le hgrams) hwatts
  have hloss := mul_nonneg (sub_nonneg.mpr hwarm) hnonneg
  rw [hstep]
  dsimp only
  unfold relax ThermalModel.kLossWPerK
  linarith

/-- Below the cutoff even full power leaves the bowl close to it. -/
theorem heated_below {bowl : ThermalModel} {watts grams level : ℚ} (hgrams : 0 ≤ grams)
    (hwatts : 0 ≤ watts) (hfull : watts ≤ HeaterHal.kMaxWatts) (hambient : bowl.ambientC = 20)
    (hwarm : bowl.ambientC ≤ bowl.temperatureC) (hlevel : 165 ≤ level) (hbelow : bowl.temperatureC ≤ level) :
    (bowl.step Models.kDtSeconds watts grams).temperatureC ≤ level + 19 / 20000 := by
  obtain ⟨hstep, -⟩ := ThermalModel.step_eq hgrams hwatts hwarm
  have hnonneg := ThermalModel.coolingRate_nonneg hgrams
  have hrate := ThermalModel.coolingRate_le hgrams
  -- Full power would hold the bowl at 260 degrees.
  have htarget : bowl.ambientC + watts / ThermalModel.kLossWPerK ≤ level + 95 := by
    unfold ThermalModel.kLossWPerK
    unfold HeaterHal.kMaxWatts at hfull
    linarith
  rw [hstep]
  calc
    relax (ThermalModel.coolingRate grams) (bowl.ambientC + watts / ThermalModel.kLossWPerK)
        bowl.temperatureC ≤ level + 95 * ThermalModel.coolingRate grams := by
      have hsplit := relax_sub (ThermalModel.coolingRate grams)
        (bowl.ambientC + watts / ThermalModel.kLossWPerK) bowl.temperatureC level
      have hkept := mul_nonneg (show 0 ≤ 1 - ThermalModel.coolingRate grams by linarith)
        (sub_nonneg.mpr hbelow)
      have hmoved := mul_le_mul_of_nonneg_left (sub_le_iff_le_add'.mpr htarget) hnonneg
      linarith
    _ ≤ level + 19 / 20000 := by linarith

/-- What the last tick let the heater do, and what has come of it. -/
structure Ceiling (level : ℚ) (r : Rig) : Prop where
  sound : Sound r
  noise : ∀ n, 165 - level ≤ r.board.sensors.tempSensor.noise n
  heating : 0 < r.board.sensors.heater.watts → r.board.sensors.thermal.temperatureC < level
  ceiling : r.board.sensors.thermal.temperatureC ≤ level + 19 / 20000

/-- The thermal model that a tick finds. -/
theorem stepped_thermal {r : Rig} (h : Sound r) (arrivals : Arrivals) :
    (r.pass arrivals).board.sensors.thermal = r.board.sensors.thermal.step Models.kDtSeconds
        r.board.sensors.heater.watts r.board.sensors.scale.trueMassG ∧
      (r.stepped arrivals).sensors.thermal = (r.pass arrivals).board.sensors.thermal := by
  obtain ⟨trueMassG, viscosity, -, -, hserved⟩ := (stepped_served h arrivals).sensors
  have hthermal := (pass_driven h arrivals).thermal
  refine ⟨?_, hthermal.symm⟩
  rw [hthermal, hserved]
  rfl

/-- The noise is a matter of the sensor alone. -/
theorem pass_noise {r : Rig} (h : Sound r) (arrivals : Arrivals) :
    (r.stepped arrivals).sensors.tempSensor.noise = r.board.sensors.tempSensor.noise ∧
      (r.pass arrivals).board.sensors.tempSensor.noise = r.board.sensors.tempSensor.noise := by
  obtain ⟨trueMassG, viscosity, -, -, hserved⟩ := (stepped_served h arrivals).sensors
  have hfound : (r.stepped arrivals).sensors.tempSensor.noise = r.board.sensors.tempSensor.noise := by
    rw [hserved]
    rfl
  exact ⟨hfound, (pass_driven h arrivals).noise.trans hfound⟩

/-- Step lemma. -/
theorem pass_ceiling {r : Rig} {level : ℚ} (hlevel : 165 ≤ level) (h : Ceiling level r)
    (arrivals : Arrivals) : Ceiling level (r.pass arrivals) := by
  obtain ⟨hthermal, hfound⟩ := stepped_thermal h.sound arrivals
  obtain ⟨trueMassG, viscosity, -, -, hserved⟩ := (stepped_served h.sound arrivals).sensors
  have hdriven := pass_driven h.sound arrivals
  obtain ⟨hnoise, hkept⟩ := pass_noise h.sound arrivals
  have hwarm : r.board.sensors.thermal.ambientC ≤ r.board.sensors.thermal.temperatureC := by
    rw [h.sound.bounds.ambient]
    exact h.sound.bounds.warm
  refine ⟨pass_sound h.sound arrivals, ?_, fun hwatts => ?_, ?_⟩
  · rw [hkept]
    exact h.noise
  · rw [hdriven.watts] at hwatts
    obtain ⟨reading, hread, hcool⟩ := (passage h.sound.supervised arrivals).heating hwatts
    have hworks : (r.stepped arrivals).sensors.tempSensor.failed = false := by
      rw [hserved]
      exact h.sound.bounds.sensor
    rw [readDeciCelsius_working hworks] at hread
    cases hread
    have hbelow : (r.stepped arrivals).sensors.thermal.temperatureC +
        (r.stepped arrivals).sensors.tempSensor.noise (r.stepped arrivals).sensors.tempSensor.draws <
          (165 : ℕ) := lt_of_reading_lt hcool
    rw [hfound, hnoise] at hbelow
    have hleast := h.noise (r.stepped arrivals).sensors.tempSensor.draws
    push_cast at hbelow
    linarith
  · rw [hthermal]
    by_cases hwatts : 0 < r.board.sensors.heater.watts
    · exact heated_below h.sound.bounds.mass.1 h.sound.bounds.watts.1 h.sound.bounds.watts.2
        h.sound.bounds.ambient hwarm hlevel (h.heating hwatts).le
    · have hoff : r.board.sensors.heater.watts = 0 :=
        le_antisymm (not_lt.mp hwatts) h.sound.bounds.watts.1
      have hrise := heated_le h.sound.bounds.mass.1 h.sound.bounds.watts.1 hwarm
      have hceiling := h.ceiling
      rw [hoff] at hrise ⊢
      linarith

theorem Ceiling.served {r : Rig} {level : ℚ} {board : SimBoard Models} (h : Ceiling level r)
    (hserved : Served r.board board) : Ceiling level { r with board } := by
  have hsound := h.sound.served hserved
  obtain ⟨trueMassG, viscosity, -, -, hsensors⟩ := hserved.sensors
  refine ⟨hsound, ?_, ?_, ?_⟩
  · rw [hsensors]
    exact h.noise
  · rw [hsensors]
    exact h.heating
  · rw [hsensors]
    exact h.ceiling

/-- The ceiling holds for as long as the noise has its bound. -/
def Bounded (level : ℚ) (r : Rig) : Prop :=
  (∀ n, 165 - level ≤ r.board.sensors.tempSensor.noise n) → Ceiling level r

theorem started_bounded {r : Rig} {level : ℚ} (hlevel : 165 ≤ level) (h : Started r) : Bounded level r := by
  intro hnoise
  have hsound := started_sound h
  obtain ⟨accept, scaleNoise, tempNoise, waterG, -, -, rfl⟩ := h
  refine ⟨hsound, hnoise, fun hwatts => absurd hwatts (lt_irrefl 0), ?_⟩
  change (20 : ℚ) ≤ level + 19 / 20000
  linarith

theorem pass_bounded {r : Rig} {level : ℚ} (hlevel : 165 ≤ level) (hsound : Sound r) (h : Bounded level r)
    (arrivals : Arrivals) : Bounded level (r.pass arrivals) := by
  intro hnoise
  rw [(pass_noise hsound arrivals).2] at hnoise
  exact pass_ceiling hlevel (h hnoise) arrivals

/-- The bowl stays between the ambient temperature and the cutoff, up to the noise of the sensor and
one millisecond of full power; it warms no faster than its heater allows. -/
theorem bowl_temperature {r : Rig} (hreach : Reachable Started Passed r) {noise : ℚ} (hnoise : 0 ≤ noise)
    (hbound : ∀ n, -noise ≤ r.board.sensors.tempSensor.noise n) :
    let celsius := r.board.sensors.thermal.temperatureC
    20 ≤ celsius ∧ celsius ≤ 165 + noise + 19 / 20000 ∧
      (0 < r.board.sensors.heater.watts → celsius < 165 + noise) ∧
      ∀ arrivals, (r.pass arrivals).board.sensors.thermal.temperatureC ≤
        celsius + r.board.sensors.heater.watts / 500000 := by
  have hlevel : 165 ≤ 165 + noise := by linarith
  have hbounded : Sound r ∧ Bounded (165 + noise) r := by
    refine hreach.keeps (fun r => Sound r ∧ Bounded (165 + noise) r)
      (fun r hstart => ⟨started_sound hstart, started_bounded hlevel hstart⟩) ?_
    rintro r arrivals r' ⟨hsound, hbounded⟩ rfl
    exact ⟨pass_sound hsound arrivals, pass_bounded hlevel hsound hbounded arrivals⟩
  have h := hbounded.2 fun n => by
    have := hbound n
    linarith
  have hwarm : r.board.sensors.thermal.ambientC ≤ r.board.sensors.thermal.temperatureC := by
    rw [h.sound.bounds.ambient]
    exact h.sound.bounds.warm
  refine ⟨h.sound.bounds.warm, h.ceiling, h.heating, fun arrivals => ?_⟩
  rw [(stepped_thermal h.sound arrivals).1]
  exact heated_le h.sound.bounds.mass.1 h.sound.bounds.watts.1 hwarm

/-- A request for 100 °C arrives. -/
def heatInput : Arrivals where
  rx := Writer.writeFrame SerialLink.kTxCapacity .request 0 MsgId.heaterSetTarget [0xE8, 0x03]
  lines := []

theorem bowl_temperature_heated : 0 < (water.pass heatInput).board.sensors.heater.watts ∧
    (water.pass heatInput).board.sensors.thermal.temperatureC < 165 := by
  have hheating : 0 < (water.pass heatInput).board.sensors.heater.watts := by decide +kernel
  have hreach : Reachable Started Passed (water.pass heatInput) :=
    (Reachable.init water_started).step (show Passed water heatInput _ from rfl)
  have hquiet : ∀ n, -0 ≤ (water.pass heatInput).board.sensors.tempSensor.noise n := by
    intro n
    rw [(pass_noise (started_sound water_started) heatInput).2, neg_zero]
    exact le_rfl
  have hbelow := (bowl_temperature hreach le_rfl hquiet).2.2.1 hheating
  exact ⟨hheating, by linarith⟩

end Culina.BowlTemperature
