import Culina.MainLoop

/-!
The blade in the closed loop. It turns above 6400 RPM under a locked lid only, and once the lid is open
its excess above 500 RPM dies out. A stall lasts for the millisecond in which it is found.
-/
namespace Culina.BladeSpeed

open Wire Drives Ports Commands Safety SafetyMcu Supervision Machine SerialLink
open FaultLatch Lid LidGuard Plant Relaxation MainLoop MainLoop.Rig Runs

/-! What unlocks the lid. -/

section Loop

variable {K S : Type} [LinkPort K] [Board S] {s : SafetyMcu K (SimBoard S)}

/-- The lid is still locked, or the sampled speed was slow enough to unlock it. -/
def LockedOrSlow (s t : SafetyMcu K (SimBoard S)) : Prop :=
  t.inputs = s.inputs ∧ (t.handler.board.lid.locked = true ∨ s.inputs.rpm < kUnlockMaxRpm)

theorem handleFrame_lockedOrSlow {t : SafetyMcu K (SimBoard S)} (h : LockedOrSlow s t) (frame : Frame)
    (now : Millis) : LockedOrSlow s (t.handleFrame frame now) := by
  refine ⟨h.1, ?_⟩
  rcases h.2 with hlocked | hslow
  · have hexec := handleFrame_executed t frame now
    generalize (t.handleFrame frame now).handler = handler at hexec
    generalize (t.exchange frame now).reply = reply at hexec
    cases hexec with
    | lidLocked =>
      left
      change (t.handler.board.lid.setLock true).locked = true
      rw [LidModel.setLock_locked (t.handler.board.lid.latch hlocked)]
    | lidUnlocked _ _ _ _ slow =>
      right
      rw [← h.1]
      exact slow
    | _ => exact Or.inl hlocked
  · exact Or.inr hslow

/-- A tick that finds the lid locked unlocks it at a slow speed only. -/
theorem looped_lockedOrSlow (hlocked : s.handler.board.lid.locked = true) (now : Millis) :
    (looped s now).handler.board.lid.locked = true ∨ s.sampleStage.inputs.rpm < kUnlockMaxRpm := by
  have hstart : LockedOrSlow s.sampleStage s.sampleStage := by
    refine ⟨rfl, Or.inl ?_⟩
    rw [sampleStage_board, readDeciCelsius_lid]
    exact hlocked
  exact (pollFrames_keeps _ now (fun t _ => LockedOrSlow s.sampleStage t) _ (fun _ _ _ h => h)
    (fun _ frame _ h => handleFrame_lockedOrSlow h frame now) [] hstart).2

end Loop

/-! The tick of a pass. -/

/-- The limits that the lid a tick finds puts on what it writes. -/
structure Limited (found : SimBoard Models) (mcu : SafetyMcu Link (SimBoard Models)) : Prop where
  unlocked : found.lid.locked = false → mcu.handler.motor.duty * 10700 ≤ 6400
  opened : found.lid.closed = false → mcu.handler.motor.duty * 10700 ≤ 500
  unlocking : found.lid.locked = true → mcu.handler.board.lid.locked = false →
    found.sensors.motor.rpm < 100

theorem pass_limited {r : Rig} (h : Sound r) (arrivals : Arrivals) :
    Limited (r.stepped arrivals) (r.machine.advance (r.input arrivals)).mcu := by
  refine ⟨fun hunlocked => ?_, fun hopen => ?_, fun hlocked hunlocked => ?_⟩
  · exact_mod_cast advance_capped h.supervised (r.input arrivals)
      fun _ _ => Inputs.continuousCap_unlocked hunlocked
  · exact_mod_cast advance_capped h.supervised (r.input arrivals)
      fun _ _ => Inputs.continuousCap_open hopen
  · have hfound := (stepped_served h arrivals).inBounds (step_inBounds h.bounds)
    have hread := readDeciCelsius_working hfound.sensor
    have hloop := looped_lockedOrSlow (s := r.machine.arrive (r.input arrivals)) hlocked
      (now (r.machine.clock + (r.input arrivals).elapsed))
    rw [advance_mcu, tick1ms_lid] at hunlocked
    have hslow := hloop.resolve_left (Bool.not_eq_true _ ▸ hunlocked)
    rw [sampleStage_ok (s := r.machine.arrive (r.input arrivals)) hread] at hslow
    exact_mod_cast MotorModel.rpm_lt_of_shownRpm_lt hslow

/-! Runs. -/

/-- Under an unlocked lid the blade is driven below its limit, or was slow when the lid was unlocked. -/
structure Slow (r : Rig) : Prop where
  sound : Sound r
  unlocked : r.board.lid.locked = false → r.board.sensors.motor.rpm ≤ 6400 ∧
    (r.board.sensors.motor.duty * 10700 ≤ 6400 ∨ r.board.sensors.motor.rpm ≤ 100)

/-- What the lid at the end of a pass says of the blade. -/
structure Capped (r : Rig) : Prop where
  slow : Slow r
  opened : r.board.lid.closed = false → r.board.sensors.motor.duty * 10700 ≤ 500

/-- The motor and the lid that a tick finds. -/
theorem stepped_motor {r : Rig} (h : Sound r) (arrivals : Arrivals) :
    (r.stepped arrivals).sensors.motor.rpm = r.board.sensors.step.motor.rpm ∧
      (r.stepped arrivals).sensors.motor.stalled = r.board.sensors.step.motor.stalled ∧
      (r.stepped arrivals).lid.locked = r.board.lid.locked ∧
      (r.pass arrivals).board.sensors.motor.rpm = r.board.sensors.step.motor.rpm := by
  have hserved := stepped_served h arrivals
  obtain ⟨trueMassG, viscosity, -, -, hsensors⟩ := hserved.sensors
  have hrpm : (r.stepped arrivals).sensors.motor.rpm = r.board.sensors.step.motor.rpm := by
    rw [hsensors]
  refine ⟨hrpm, ?_, hserved.locked, ?_⟩
  · rw [hsensors]
  · obtain ⟨stalled, hmotor, -⟩ := (pass_driven h arrivals).motor
    rw [hmotor]
    exact hrpm

/-- An unlocked lid keeps the blade below its limit for another millisecond. -/
theorem step_unlocked {r : Rig} (h : Slow r) (hunlocked : r.board.lid.locked = false) :
    r.board.sensors.step.motor.rpm ≤ 6400 := by
  obtain ⟨hrpm, hduty | hslow⟩ := h.unlocked hunlocked
  · exact MotorModel.step_rpm_le (by norm_num) hduty hrpm
  · -- Full duty takes a slow blade to 10700 RPM by a four hundredth of the way.
    have hfull := h.sound.bounds.motor.duty_le
    obtain ⟨-, -, hturned | hstopped⟩ :=
      MotorModel.step_cases r.board.sensors.motor r.board.sensors.scale.trueMassG
    · change (r.board.sensors.motor.step _ _).rpm ≤ _
      rw [hturned.2.2, MotorModel.turned_eq]
      unfold relax MotorModel.kMaxRpm
      linarith
    · change (r.board.sensors.motor.step _ _).rpm ≤ _
      rw [hstopped.2]
      norm_num

/-- Step lemma. -/
theorem pass_slow {r : Rig} (h : Slow r) (arrivals : Arrivals) : Slow (r.pass arrivals) := by
  have hsound := pass_sound h.sound arrivals
  have hlimited := pass_limited h.sound arrivals
  have hdriven := pass_driven h.sound arrivals
  obtain ⟨hfound, -, hlocked, hrpm⟩ := stepped_motor h.sound arrivals
  have hslower : (r.stepped arrivals).lid.locked = false → r.board.sensors.step.motor.rpm ≤ 6400 :=
    fun hunlocked => step_unlocked h (hlocked.symm.trans hunlocked)
  rw [← hfound] at hslower hrpm
  rw [pass_eq] at hsound hdriven hrpm ⊢
  generalize r.machine.advance (r.input arrivals) = machine at hsound hdriven hrpm hlimited ⊢
  refine ⟨hsound, fun hunlocked => ?_⟩
  rw [hrpm, hsound.duty]
  cases hbefore : (r.stepped arrivals).lid.locked with
  | false => exact ⟨hslower hbefore, Or.inl (hlimited.unlocked hbefore)⟩
  | true =>
    rw [hdriven.locked] at hunlocked
    have hslow := hlimited.unlocking hbefore hunlocked
    exact ⟨by linarith, Or.inr hslow.le⟩

theorem Slow.served {r : Rig} {board : SimBoard Models} (h : Slow r) (hserved : Served r.board board) :
    Slow { r with board } := by
  have hsound := h.sound.served hserved
  have hlocked := hserved.locked
  obtain ⟨trueMassG, viscosity, -, -, hsensors⟩ := hserved.sensors
  refine ⟨hsound, fun hunlocked => ?_⟩
  rw [hsensors]
  exact h.unlocked (hlocked.symm.trans hunlocked)

theorem started_capped {r : Rig} (h : Started r) : Capped r := by
  have hsound := started_sound h
  obtain ⟨accept, scaleNoise, tempNoise, waterG, -, -, rfl⟩ := h
  refine ⟨⟨hsound, fun _ => ?_⟩, fun _ => ?_⟩
  · norm_num [start]
  · norm_num [start]

/-- The user opens the lid while a request for 500 RPM arrives. -/
def openInput : Arrivals where
  rx := Writer.writeFrame kTxCapacity .request 0 MsgId.motorSetTarget [0xF4, 0x01, kRampGentle]
  lines := [CStrings.codes ['l', 'i', 'd', ' ', 'o', 'p', 'e', 'n']]

def opened : Rig := water.pass openInput

theorem opened_reachable : Reachable Started Passed opened := (Reachable.init water_started).step rfl

/-- A stall in a cool bowl is what an empty latch takes. -/
theorem tick1ms_motorStall {K H : Type} [LinkPort K] [Board H] {s : SafetyMcu K H} (hs : Supervised s)
    {reading : DeciCelsius} {board : H} (hfault : s.fault = .none)
    (hread : Board.readDeciCelsius s.handler.board = (.ok reading, board))
    (hcool : toCelsius reading < kOvertempCutoffC) (hstalled : Board.stalled board = true) (now : Millis) :
    (s.tick1ms now).fault = .motorStall := by
  have hsample := sampleStage_ok hread
  have hstart : s.sampleStage.fault = .none := by
    rw [hsample]
    exact hfault
  have hclear : s.sampleStage.canClearFault = true := by
    rw [canClearFault, hstart]
  have hloop := frameStage_latchFrom s.sampleStage now
  have hlooped : (looped s now).fault = .none := by
    by_cases hstop : ∃ x ∈ (s.sampleStage.frameStage now).2, IsStop x.frame
    · exact hloop.cleared hclear hstop
    · exact (hloop.kept fun _ x hx h => hstop ⟨x, hx, h⟩).trans hstart
  have heval : (looped s now).inputs.evaluate = .motorStall := by
    have hinputs : (looped s now).inputs = sampled board reading := by
      rw [(looped_from hs now).inputs, hsample]
    have hbelow : ¬ (sampled board reading).tempC ≥ kOvertempCutoffC := not_le.mpr hcool
    have hstill : (sampled board reading).motorStalled = true := hstalled
    rw [hinputs, Inputs.evaluate, if_neg hbelow, if_pos hstill]
  have hinter : (looped s now).interlockStage = (looped s now).enterFault .motorStall := by
    rw [interlockStage, heval]
    exact if_pos ⟨hlooped, by decide⟩
  rw [tick1ms_fault, judge, hinter, linkStage, if_neg fun h => FaultCode.noConfusion h.1]
  rfl

/-- A stall is over at the end of the pass that finds it: the rotor is released with the drive at rest
and a fault latched, which is that of the stall unless another was latched or the bowl overheated. -/
theorem stall_answered {r : Rig} (hreach : Reachable Started Passed r) (arrivals : Arrivals) :
    let after := r.pass arrivals
    after.board.sensors.motor.stalled = false ∧
      (r.board.sensors.step.motor.stalled = true →
        after.machine.mcu.fault ≠ .none ∧ after.board.sensors.motor.duty = 0 ∧
          after.board.sensors.motor.rpm = 0 ∧ after.board.sensors.heater.watts = 0 ∧
          (r.machine.mcu.fault = .none → (∀ reading, (Board.readDeciCelsius (r.stepped arrivals)).1 = .ok reading →
            toCelsius reading < kOvertempCutoffC) → after.machine.mcu.fault = .motorStall)) := by
  have hsound := sound_of_reachable hreach
  have hafter := pass_sound hsound arrivals
  obtain ⟨-, hfound, -, hrpm⟩ := stepped_motor hsound arrivals
  refine ⟨hafter.turning, fun hstalled => ?_⟩
  have hfault : (r.pass arrivals).machine.mcu.fault ≠ .none := by
    rw [pass_eq]
    exact (passage hsound.supervised arrivals).stalled (hfound.trans hstalled)
  refine ⟨hfault, ?_, ?_, ?_, fun hnone hcool => ?_⟩
  · rw [hafter.duty]
    exact (hafter.supervised.latched hfault).1.2.2
  · rw [hrpm]
    obtain ⟨-, -, ⟨-, hturning, -⟩ | ⟨-, hstopped⟩⟩ :=
      MotorModel.step_cases r.board.sensors.motor r.board.sensors.scale.trueMassG
    · exact Bool.noConfusion (hturning.symm.trans hstalled)
    · exact hstopped
  · rw [hafter.watts]
    exact (latched_at_rest hsound.supervised (r.input arrivals) hfault).2.2
  · have hbounds := (stepped_served hsound arrivals).inBounds (step_inBounds hsound.bounds)
    have hread := readDeciCelsius_working hbounds.sensor
    have hcool := hcool _ (congrArg Prod.fst hread)
    rw [pass_eq]
    change (r.machine.advance (r.input arrivals)).mcu.fault = _
    rw [advance_mcu]
    exact tick1ms_motorStall (arrive_supervised hsound.supervised (r.input arrivals)) hnone hread hcool
      (hfound.trans hstalled) _

theorem stall_answered_opened : (opened.pass ⟨[], []⟩).board.sensors.motor.stalled = false :=
  (stall_answered opened_reachable ⟨[], []⟩).1

end Culina.BladeSpeed
