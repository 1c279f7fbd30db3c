import Culina.Plant
import Culina.ControlServer
import Culina.FaultEntries
import Culina.LidGuard

/-!
The main loop of the safety processor: the board moves by a millisecond, the control
socket is served, and the processor takes its tick. What the tick writes to motor and
heater moves the board in the next millisecond. Seen from the processor this is one of its
runs; seen from the board the drivers hold what the controllers have written.
-/
namespace Culina.MainLoop

open Wire Drives Ports Commands Safety SafetyMcu Supervision Machine SerialLink
open FaultEntries Lid LidGuard Plant Runs CStrings

/-! What a tick writes to the motor. -/

section Writes

variable {K H : Type} [LinkPort K] [Board H]

/-- An entered fault stops the motor. -/
def stopped (entry : Option FaultCode) : List ℚ := entry.toList.map fun _ => 0

/-- The duties written in a tick: a zero for each entered fault and each stop request, and the speed
of the controller at its end. -/
def dutiesWritten (s : SafetyMcu K H) (now : Millis) : List ℚ :=
  let stops := ((s.exchanges now).filter fun x => IsStop x.frame).map fun _ => 0
  stopped (sensorEntry s) ++ stops ++ stopped (interlockEntry (looped s now)) ++
    stopped (linkEntry (looped s now).interlockStage now) ++ [(s.tick1ms now).handler.motor.duty]

/-- All but the last duty are zero. -/
theorem dutiesWritten_eq (s : SafetyMcu K H) (now : Millis) :
    ∃ count, dutiesWritten s now = List.replicate count 0 ++ [(s.tick1ms now).handler.motor.duty] := by
  refine ⟨_, congrArg (· ++ _) (List.eq_replicate_iff.mpr ⟨rfl, fun duty hduty => ?_⟩)⟩
  simp only [stopped, List.mem_append, List.mem_map] at hduty
  rcases hduty with ((⟨_, -, rfl⟩ | ⟨_, -, rfl⟩) | ⟨_, -, rfl⟩) | ⟨_, -, rfl⟩ <;> rfl

end Writes

/-! The range of what is written. -/

/-- The heater controller asks for no more than the heater has. -/
theorem update_range (pid : HeaterPid) (measuredC dtSeconds : ℚ) :
    0 ≤ (pid.update measuredC dtSeconds).1 ∧ (pid.update measuredC dtSeconds).1 ≤ HeaterHal.kMaxWatts := by
  have hsame : Drives.kMaxWatts = HeaterHal.kMaxWatts := rfl
  have hmax : (0 : ℚ) ≤ HeaterHal.kMaxWatts := by norm_num [HeaterHal.kMaxWatts]
  unfold HeaterPid.update
  rw [hsame]
  split
  · exact ⟨le_rfl, hmax⟩
  · dsimp only
    split_ifs <;> constructor <;> linarith

section Ranges

variable {K H : Type} [LinkPort K] [Board H] {s : SafetyMcu K H}

theorem tick1ms_powerW_range (s : SafetyMcu K H) (now : Millis) :
    0 ≤ (s.tick1ms now).powerW ∧ (s.tick1ms now).powerW ≤ HeaterHal.kMaxWatts := by
  rw [tick1ms_eq, publishStage_powerW]
  unfold driveStage
  dsimp only
  split
  · exact update_range _ _ _
  · exact ⟨le_rfl, by norm_num [HeaterHal.kMaxWatts]⟩

theorem tick1ms_duty_range (hs : Supervised s) (now : Millis) :
    0 ≤ (s.tick1ms now).handler.motor.duty ∧ (s.tick1ms now).handler.motor.duty ≤ 1 := by
  have hpositive : (0 : ℚ) < kMaxRpm := by norm_num [kMaxRpm]
  have hrange := MotorController.enforceCap_inRange (looped_judge_supervised hs now).motor
    ((looped s now).judge now).inputs.continuousCap
  have hticked := MotorController.tick1ms_inRange hrange
  have hspeed := MotorController.tick1ms_duty (((looped s now).judge now).handler.motor.enforceCap
    ((looped s now).judge now).inputs.continuousCap)
  rw [tick1ms_motor]
  constructor
  · rw [← mul_le_mul_iff_left₀ hpositive, zero_mul, hspeed]
    exact hticked.nonneg
  · rw [← mul_le_mul_iff_left₀ hpositive, one_mul, hspeed]
    exact hticked.commanded

/-- A stall that is sampled ends with a fault. -/
theorem tick1ms_stalled (hs : Supervised s) {now : Millis}
    (hstalled : Board.stalled (Board.readDeciCelsius s.handler.board).2 = true) :
    (s.tick1ms now).fault ≠ .none := by
  intro hfault
  obtain ⟨-, heval, reading, -, hinputs⟩ := tick1ms_unlatched hs hfault
  have hturning := (Inputs.evaluate_none heval).2
  rw [hinputs] at hturning
  exact Bool.noConfusion (hstalled.symm.trans hturning)

/-- The heater gets power below the cutoff only. -/
theorem tick1ms_heating (hs : Supervised s) {now : Millis} (h : 0 < (s.tick1ms now).powerW) :
    ∃ reading, (Board.readDeciCelsius s.handler.board).1 = .ok reading ∧
      toCelsius reading < kOvertempCutoffC := by
  have hfault := (tick1ms_driven hs (tick1ms_powerW s h).1).1
  obtain ⟨-, heval, reading, hread, hinputs⟩ := tick1ms_unlatched hs hfault
  have hcool := (Inputs.evaluate_none heval).1
  rw [hinputs] at hcool
  exact ⟨reading, hread, hcool⟩

end Ranges

/-! What a tick leaves of the board. -/

section Boards

variable {K H : Type} [LinkPort K] [Board H] {s : SafetyMcu K H}

/-- What the reads of the sensors and the lock of the lid keep of a board. -/
structure Kept (P : H → Prop) : Prop where
  readDeciCelsius : ∀ board, P board → P (Board.readDeciCelsius board).2
  readRaw : ∀ board, P board → P (Board.readRaw board).2
  setLock : ∀ board locked, P board → P (Board.setLock board locked)

theorem handleFrame_board {P : H → Prop} (hkept : Kept P) (h : P s.handler.board) (frame : Frame)
    (now : Millis) : P (s.handleFrame frame now).handler.board := by
  have hexec := handleFrame_executed s frame now
  generalize (s.handleFrame frame now).handler = handler at hexec
  generalize (s.exchange frame now).reply = reply at hexec
  cases hexec with
  | tareRefused => exact hkept.readRaw _ h
  | tared => exact hkept.readRaw _ h
  | weighed => exact hkept.readRaw _ h
  | lidLocked => exact hkept.setLock _ _ h
  | lidUnlocked => exact hkept.setLock _ _ h
  | _ => exact h

/-- A tick keeps it. -/
theorem tick1ms_board {P : H → Prop} (hkept : Kept P) (h : P s.handler.board) (now : Millis) :
    P (s.tick1ms now).handler.board := by
  have hsampled : P s.sampleStage.handler.board := by
    rw [sampleStage_board]
    exact hkept.readDeciCelsius _ h
  have hlooped : P (looped s now).handler.board :=
    pollFrames_keeps _ now (fun t _ => P t.handler.board) _ (fun _ _ _ h => h)
      (fun _ frame _ h => handleFrame_board hkept h frame now) [] hsampled
  rw [tick1ms_eq, publishStage_handler]
  refine hkept.readRaw _ ?_
  rw [driveStage_board, (judge_inputs _ _).2]
  exact hlooped

end Boards

/-! The loop. -/

/-- What the control commands see of the board. -/
def bowl (board : SimBoard Models) : SimBoard ControlServer.Bowl where
  sensors := ⟨board.sensors.scale.trueMassG, board.sensors.motor.viscosity⟩
  lid := board.lid

/-- A line of the control socket is executed. -/
def commanded (board : SimBoard Models) (line : List Char8) : SimBoard Models :=
  let after := (ControlServer.execute (bowl board) line).2
  { sensors :=
      { board.sensors with
        scale := { board.sensors.scale with trueMassG := after.sensors.trueMassG }
        motor := { board.sensors.motor with viscosity := after.sensors.viscosity } }
    lid := after.lid }

/-- The board with what a tick has written to its drivers. -/
def driven (board : SimBoard Models) (duties : List ℚ) (watts : ℚ) : SimBoard Models :=
  { board with
    sensors :=
      { board.sensors with
        motor := duties.foldl MotorModel.setDuty board.sensors.motor
        heater := board.sensors.heater.setPowerW watts } }

/-- The processor and its board at the end of a pass of the loop. -/
structure Rig where
  machine : Machine (SimBoard Models)
  board : SimBoard Models

/-- The bytes of the link and the lines of the control socket that a pass finds. -/
structure Arrivals where
  rx : List Byte
  lines : List (List Char8)

namespace Rig

/-- The board that the tick of a pass finds. -/
def stepped (r : Rig) (arrivals : Arrivals) : SimBoard Models :=
  arrivals.lines.foldl commanded { r.board with sensors := r.board.sensors.step }

def input (r : Rig) (arrivals : Arrivals) : TickInput (SimBoard Models) where
  elapsed := 1
  rx := arrivals.rx
  board := r.stepped arrivals

/-- The duties that the tick of a pass writes. -/
def duties (r : Rig) (arrivals : Arrivals) : List ℚ :=
  dutiesWritten (r.machine.arrive (r.input arrivals))
    (now (r.machine.clock + (r.input arrivals).elapsed))

/-- The end of a pass: the tick of the processor is over, and its writes reach the drivers. -/
def settle (machine : Machine (SimBoard Models)) (duties : List ℚ) : Rig where
  machine := machine
  board := driven machine.mcu.handler.board duties machine.mcu.powerW

def pass (r : Rig) (arrivals : Arrivals) : Rig :=
  settle (r.machine.advance (r.input arrivals)) (r.duties arrivals)

/-- The main program with the given water in its bowl, before the first pass. -/
def start (accept : ℕ → ℕ → ℕ) (scaleNoise tempNoise : ℕ → ℚ) (waterG : ℚ) : Rig :=
  let board : SimBoard Models :=
    { sensors := { scale := { trueMassG := waterG, noise := scaleNoise }, tempSensor := { noise := tempNoise } } }
  { machine := ⟨.boot { uart := { accept } } board (now 0), 0, [], none⟩, board }

/-- The argument of `--water` is between 0 and 2200 grams. -/
def Started (r : Rig) : Prop :=
  ∃ accept scaleNoise tempNoise waterG, 0 ≤ waterG ∧ waterG ≤ 2200 ∧
    r = start accept scaleNoise tempNoise waterG

def Passed (r : Rig) (arrivals : Arrivals) (r' : Rig) : Prop := r' = r.pass arrivals

end Rig

/-! What the commands change of the board. -/

/-- A command is refused, fills the bowl up to its 2200 grams, or moves the lid. -/
theorem execute_cases (board : SimBoard ControlServer.Bowl) (line : List Char8) :
    let after := (ControlServer.execute board line).2
    after = board ∨
      (∃ grams viscosity, 0 ≤ grams ∧ grams ≤ 2200 - board.sensors.trueMassG ∧
        after = { board with sensors := ⟨board.sensors.trueMassG + grams, viscosity⟩ }) ∨
      after = { board with lid := board.lid.userOpen } ∨
      after = { board with lid := board.lid.userClose } := by
  unfold ControlServer.execute
  split
  · split_ifs
    · unfold ControlServer.executeAdd
      dsimp only
      split
      · split
        · split_ifs with hinvalid
          · exact Or.inl rfl
          · rw [not_or, not_or, not_or, not_lt, not_lt] at hinvalid
            have hleast : (0 : ℚ) ≤ single (1 / 10) := by
              have hround : single (1 / 10) = 13421773 / 134217728 := by decide +kernel
              rw [hround]
              norm_num
            exact Or.inr (Or.inl ⟨_, _, hleast.trans hinvalid.2.1, hinvalid.2.2.1, rfl⟩)
        · exact Or.inl rfl
      · exact Or.inl rfl
    · unfold ControlServer.executeLid
      dsimp only
      split
      · split_ifs
        · exact Or.inl rfl
        · exact Or.inr (Or.inr (Or.inl rfl))
        · exact Or.inr (Or.inr (Or.inr rfl))
        · exact Or.inl rfl
      · exact Or.inl rfl
    · exact Or.inl rfl
  · exact Or.inl rfl

/-- What the command lines leave of a board: all but the mass, the viscosity and the lid, whose
lock they do not move. -/
structure Served (before after : SimBoard Models) : Prop where
  sensors : ∃ trueMassG viscosity, 0 ≤ trueMassG ∧ trueMassG ≤ 2200 ∧ after.sensors =
    { before.sensors with
      scale := { before.sensors.scale with trueMassG }
      motor := { before.sensors.motor with viscosity } }
  locked : after.lid.locked = before.lid.locked

theorem userOpen_locked (lid : LidModel) : lid.userOpen.locked = lid.locked := by
  unfold LidModel.userOpen
  split <;> rfl

/-- Step lemma. -/
theorem Served.commanded {before after : SimBoard Models} (h : Served before after)
    (line : List Char8) : Served before (commanded after line) := by
  obtain ⟨trueMassG, viscosity, hnonneg, hle, hsensors⟩ := h.sensors
  have hmass : (bowl after).sensors.trueMassG = trueMassG := by
    unfold bowl
    rw [hsensors]
  have hcases := execute_cases (bowl after) line
  rw [hmass] at hcases
  unfold MainLoop.commanded
  generalize (ControlServer.execute (bowl after) line).2 = executed at hcases ⊢
  rcases hcases with rfl | ⟨grams, viscosity', hgrams, hfits, rfl⟩ | rfl | rfl
  · refine ⟨⟨trueMassG, viscosity, hnonneg, hle, ?_⟩, h.locked⟩
    simp only [bowl, hsensors]
  · refine ⟨⟨trueMassG + grams, viscosity', by linarith, by linarith, ?_⟩, h.locked⟩
    simp only [hsensors]
  · refine ⟨⟨trueMassG, viscosity, hnonneg, hle, ?_⟩, (userOpen_locked _).trans h.locked⟩
    simp only [bowl, hsensors]
  · refine ⟨⟨trueMassG, viscosity, hnonneg, hle, ?_⟩, h.locked⟩
    simp only [bowl, hsensors]

/-- Run lemma. -/
theorem served_lines {before after : SimBoard Models} (h : Served before after)
    (lines : List (List Char8)) : Served before (lines.foldl commanded after) := by
  induction lines generalizing after with
  | nil => exact h
  | cons line lines ih => exact ih (h.commanded line)

/-! What a tick changes of the board. -/

/-- A tick draws noise and locks or unlocks the lid. -/
structure Sampled (before after : SimBoard Models) : Prop where
  sensors : ∃ scaleDraws tempDraws, after.sensors =
    { before.sensors with
      scale := { before.sensors.scale with draws := scaleDraws }
      tempSensor := { before.sensors.tempSensor with draws := tempDraws } }
  closed : after.lid.closed = before.lid.closed

theorem sampled_kept (before : SimBoard Models) : Kept (Sampled before) := by
  constructor
  · rintro board ⟨⟨scaleDraws, tempDraws, hsensors⟩, hclosed⟩
    refine ⟨⟨scaleDraws, (board.sensors.tempSensor.readDeciCelsius board.sensors.thermal).2.draws, ?_⟩,
      hclosed⟩
    change { board.sensors with
      tempSensor := (board.sensors.tempSensor.readDeciCelsius board.sensors.thermal).2 } = _
    unfold TempSensorHal.readDeciCelsius
    rw [hsensors]
    split <;> rfl
  · rintro board ⟨⟨scaleDraws, tempDraws, hsensors⟩, hclosed⟩
    refine ⟨⟨scaleDraws + 2, tempDraws, ?_⟩, hclosed⟩
    change { board.sensors with scale := board.sensors.scale.readRawCounts.2 } = _
    rw [hsensors]
    rfl
  · rintro board locked ⟨hsensors, hclosed⟩
    exact ⟨hsensors, (LidModel.setLock_closed _ _).trans hclosed⟩

theorem tick1ms_sampled (s : SafetyMcu Link (SimBoard Models)) (now : Millis) :
    Sampled s.handler.board (s.tick1ms now).handler.board :=
  tick1ms_board (sampled_kept _) ⟨⟨_, _, rfl⟩, rfl⟩ now

/-! The physical range. -/

/-- The models within their physical range. -/
structure InBounds (models : Models) : Prop where
  motor : models.motor.InRange
  watts : 0 ≤ models.heater.watts ∧ models.heater.watts ≤ HeaterHal.kMaxWatts
  sensor : models.tempSensor.failed = false
  mass : 0 ≤ models.scale.trueMassG ∧ models.scale.trueMassG ≤ 2200
  ambient : models.thermal.ambientC = 20
  warm : 20 ≤ models.thermal.temperatureC

theorem step_inBounds {models : Models} (h : InBounds models) : InBounds models.step := by
  have hwarm : models.thermal.ambientC ≤ models.thermal.temperatureC := by
    rw [h.ambient]
    exact h.warm
  obtain ⟨hstep, hkept⟩ := ThermalModel.step_eq h.mass.1 h.watts.1 hwarm
  have hambient : models.step.thermal.ambientC = 20 := by
    change (models.thermal.step Models.kDtSeconds models.heater.watts models.scale.trueMassG).ambientC = 20
    rw [hstep]
    exact h.ambient
  refine ⟨MotorModel.step_inRange h.motor, h.watts, h.sensor, h.mass, hambient, ?_⟩
  rw [h.ambient] at hkept
  exact hkept

theorem Served.inBounds {before after : SimBoard Models} (hserved : Served before after)
    (h : InBounds before.sensors) : InBounds after.sensors := by
  obtain ⟨trueMassG, viscosity, hnonneg, hle, hsensors⟩ := hserved.sensors
  rw [hsensors]
  exact ⟨⟨h.motor.duty_nonneg, h.motor.duty_le, h.motor.rpm_nonneg, h.motor.rpm_le⟩, h.watts, h.sensor,
    ⟨hnonneg, hle⟩, h.ambient, h.warm⟩

theorem Sampled.inBounds {before after : SimBoard Models} (hsampled : Sampled before after)
    (h : InBounds before.sensors) : InBounds after.sensors := by
  obtain ⟨scaleDraws, tempDraws, hsensors⟩ := hsampled.sensors
  rw [hsensors]
  exact ⟨h.motor, h.watts, h.sensor, h.mass, h.ambient, h.warm⟩

namespace Rig

/-- Every run of the loop is a run of the processor. -/
theorem machine_reachable {r : Rig} (h : Reachable Started Passed r) :
    Reachable Booted Ticked r.machine := by
  refine h.keeps (fun r => Reachable Booted Ticked r.machine) ?_ ?_
  · rintro r ⟨accept, scaleNoise, tempNoise, waterG, -, -, rfl⟩
    exact Reachable.init ⟨_, _, 0, rfl⟩
  · rintro r arrivals r' hr rfl
    exact Reachable.step hr (show Ticked r.machine (r.input arrivals) _ from rfl)

theorem pass_eq (r : Rig) (arrivals : Arrivals) :
    r.pass arrivals = settle (r.machine.advance (r.input arrivals)) (r.duties arrivals) := rfl

/-- Zeros and a duty in range leave the motor that duty, and turning if it was or if the duty is
zero as well. -/
theorem foldl_setDuty (motor : MotorModel) (count : ℕ) {duty : ℚ} (hnonneg : 0 ≤ duty) (hle : duty ≤ 1) :
    ∃ stalled, (List.replicate count 0 ++ [duty]).foldl MotorModel.setDuty motor =
        { motor with duty, stalled } ∧
      (motor.stalled = false ∨ duty = 0 → stalled = false) := by
  induction count generalizing motor with
  | zero =>
    refine ⟨if duty = 0 then false else motor.stalled, ?_, ?_⟩
    · simp [MotorModel.setDuty, not_lt.mpr hnonneg, not_lt.mpr hle]
    · rintro (h | h) <;> simp [h]
  | succ count ih =>
    obtain ⟨stalled, hfold, hturning⟩ := ih (motor.setDuty 0)
    refine ⟨stalled, ?_, fun _ => hturning (Or.inl MotorModel.setDuty_zero_stalled)⟩
    rw [List.replicate_succ, List.cons_append, List.foldl_cons, hfold]
    simp [MotorModel.setDuty]

/-- What the tick of a pass makes of the board it finds. -/
structure Passage (found : SimBoard Models) (mcu : SafetyMcu Link (SimBoard Models))
    (duties : List ℚ) : Prop where
  supervised : Supervised mcu
  sampled : Sampled found mcu.handler.board
  duties : ∃ count, duties = List.replicate count 0 ++ [mcu.handler.motor.duty]
  duty : 0 ≤ mcu.handler.motor.duty ∧ mcu.handler.motor.duty ≤ 1
  powerW : 0 ≤ mcu.powerW ∧ mcu.powerW ≤ HeaterHal.kMaxWatts
  stalled : found.sensors.motor.stalled = true → mcu.fault ≠ .none
  heating : 0 < mcu.powerW → ∃ reading, (Board.readDeciCelsius found).1 = .ok reading ∧
    toCelsius reading < kOvertempCutoffC

theorem passage {r : Rig} (hs : Supervised r.machine.mcu) (arrivals : Arrivals) :
    Passage (r.stepped arrivals) (r.machine.advance (r.input arrivals)).mcu (r.duties arrivals) := by
  have hs := arrive_supervised hs (r.input arrivals)
  rw [advance_mcu]
  exact ⟨tick1ms_supervised hs _, tick1ms_sampled (r.machine.arrive (r.input arrivals)) _,
    dutiesWritten_eq _ _, tick1ms_duty_range hs _, tick1ms_powerW_range _ _, tick1ms_stalled hs,
    tick1ms_heating hs⟩

/-- What holds at the end of every pass: the drivers hold what was written, and the models stay
within their range. -/
structure Sound (r : Rig) : Prop where
  supervised : Supervised r.machine.mcu
  bounds : InBounds r.board.sensors
  duty : r.board.sensors.motor.duty = r.machine.mcu.handler.motor.duty
  turning : r.board.sensors.motor.stalled = false
  watts : r.board.sensors.heater.watts = r.machine.mcu.powerW

/-- What is served between two passes leaves the rig sound. -/
theorem Sound.served {r : Rig} {board : SimBoard Models} (h : Sound r) (hserved : Served r.board board) :
    Sound { r with board } := by
  have hbounds := hserved.inBounds h.bounds
  obtain ⟨trueMassG, viscosity, -, -, hsensors⟩ := hserved.sensors
  refine ⟨h.supervised, hbounds, ?_, ?_, ?_⟩
  · rw [hsensors]
    exact h.duty
  · rw [hsensors]
    exact h.turning
  · rw [hsensors]
    exact h.watts

theorem started_sound {r : Rig} (h : Started r) : Sound r := by
  obtain ⟨accept, scaleNoise, tempNoise, waterG, hnonneg, hle, rfl⟩ := h
  refine ⟨boot_supervised _ _ _, ⟨?_, ?_, rfl, ⟨hnonneg, hle⟩, rfl, le_rfl⟩, rfl, rfl, rfl⟩
  · constructor <;> norm_num [start, MotorModel.kMaxRpm]
  · norm_num [start, HeaterHal.kMaxWatts]

/-- The board under the writes of a tick. -/
structure Driven (found : SimBoard Models) (r : Rig) : Prop where
  motor : ∃ stalled, r.board.sensors.motor =
      { found.sensors.motor with duty := r.machine.mcu.handler.motor.duty, stalled } ∧
    (found.sensors.motor.stalled = false ∨ r.machine.mcu.handler.motor.duty = 0 → stalled = false)
  watts : r.board.sensors.heater.watts = r.machine.mcu.powerW
  bounds : InBounds found.sensors → InBounds r.board.sensors
  thermal : r.board.sensors.thermal = found.sensors.thermal
  noise : r.board.sensors.tempSensor.noise = found.sensors.tempSensor.noise
  nowUs : r.board.sensors.nowUs = found.sensors.nowUs
  watchdog : r.board.sensors.watchdog = found.sensors.watchdog
  closed : r.board.lid.closed = found.lid.closed
  locked : r.board.lid.locked = r.machine.mcu.handler.board.lid.locked

theorem settle_driven {found : SimBoard Models} {machine : Machine (SimBoard Models)} {duties : List ℚ}
    (h : Passage found machine.mcu duties) : Driven found (settle machine duties) := by
  obtain ⟨scaleDraws, tempDraws, hsensors⟩ := h.sampled.sensors
  have hmotor : machine.mcu.handler.board.sensors.motor = found.sensors.motor := by rw [hsensors]
  obtain ⟨count, rfl⟩ := h.duties
  obtain ⟨stalled, hfold, hturning⟩ := foldl_setDuty found.sensors.motor count h.duty.1 h.duty.2
  have hwritten : (settle machine (List.replicate count 0 ++ [machine.mcu.handler.motor.duty])).board.sensors.motor =
      { found.sensors.motor with duty := machine.mcu.handler.motor.duty, stalled } := by
    rw [← hmotor] at hfold ⊢
    exact hfold
  have hwatts : machine.mcu.handler.board.sensors.heater.setPowerW machine.mcu.powerW =
      ⟨machine.mcu.powerW⟩ := by
    simp [HeaterHal.setPowerW, not_lt.mpr h.powerW.1, not_lt.mpr h.powerW.2]
  refine ⟨⟨stalled, hwritten, hturning⟩, congrArg HeaterHal.watts hwatts, fun hbounds => ?_, ?_, ?_, ?_, ?_,
    h.sampled.closed, rfl⟩
  · have hkept := h.sampled.inBounds hbounds
    refine ⟨?_, ?_, hkept.sensor, hkept.mass, hkept.ambient, hkept.warm⟩
    · rw [hwritten]
      exact ⟨h.duty.1, h.duty.2, hbounds.motor.rpm_nonneg, hbounds.motor.rpm_le⟩
    · change 0 ≤ (machine.mcu.handler.board.sensors.heater.setPowerW machine.mcu.powerW).watts ∧
        (machine.mcu.handler.board.sensors.heater.setPowerW machine.mcu.powerW).watts ≤ _
      rw [hwatts]
      exact h.powerW
  · change machine.mcu.handler.board.sensors.thermal = _
    rw [hsensors]
  · change machine.mcu.handler.board.sensors.tempSensor.noise = _
    rw [hsensors]
  · change machine.mcu.handler.board.sensors.nowUs = _
    rw [hsensors]
  · change machine.mcu.handler.board.sensors.watchdog = _
    rw [hsensors]

/-- The board that the tick of a pass finds. -/
theorem stepped_served {r : Rig} (h : Sound r) (arrivals : Arrivals) :
    Served { r.board with sensors := r.board.sensors.step } (r.stepped arrivals) :=
  served_lines ⟨⟨_, r.board.sensors.step.motor.viscosity, h.bounds.mass.1, h.bounds.mass.2, rfl⟩, rfl⟩
    arrivals.lines

theorem pass_driven {r : Rig} (h : Sound r) (arrivals : Arrivals) :
    Driven (r.stepped arrivals) (r.pass arrivals) := by
  rw [pass_eq]
  exact settle_driven (passage h.supervised arrivals)

/-- Step lemma: a pass keeps the rig sound. -/
theorem pass_sound {r : Rig} (h : Sound r) (arrivals : Arrivals) : Sound (r.pass arrivals) := by
  have hdriven := pass_driven h arrivals
  have hpass := passage h.supervised arrivals
  have hserved := stepped_served h arrivals
  rw [pass_eq] at hdriven ⊢
  generalize r.machine.advance (r.input arrivals) = machine at hdriven hpass ⊢
  obtain ⟨stalled, hmotor, hturning⟩ := hdriven.motor
  refine ⟨hpass.supervised, hdriven.bounds (hserved.inBounds (step_inBounds h.bounds)), ?_, ?_,
    hdriven.watts⟩
  · rw [hmotor]
  · rw [hmotor]
    refine hturning ?_
    cases hfound : (r.stepped arrivals).sensors.motor.stalled with
    | false => exact Or.inl rfl
    | true => exact Or.inr (hpass.supervised.latched (hpass.stalled hfound)).1.2.2

theorem sound_of_reachable {r : Rig} (h : Reachable Started Passed r) : Sound r := by
  refine h.keeps Sound (fun _ => started_sound) ?_
  rintro r arrivals r' hr rfl
  exact pass_sound hr arrivals

/-! A liter of water over quiet sensors. -/

def water : Rig := start (fun _ len => len) (fun _ => 0) (fun _ => 0) 1000

theorem water_started : Started water := ⟨_, _, _, 1000, by norm_num, by norm_num, rfl⟩

end Rig

end Culina.MainLoop
