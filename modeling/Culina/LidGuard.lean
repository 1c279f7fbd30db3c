import Culina.Supervision
import Culina.Lid

/-!
The lid guard against the lid itself. The frames of a tick are judged by one sample,
but an unlock among them takes effect at once, so the duty written at the end of the
tick can exceed the limit of the lid it leaves behind. This module says exactly when.
-/
namespace Culina.LidGuard

open Wire Drives Ports Commands CommandHandler Safety SafetyMcu Supervision Machine SerialLink Lid Runs

/-! What the frames of a tick ask for. -/

/-- A motor command with a speed that the controller takes as it is. -/
inductive MotorCommand where
  | stop
  | ramp (rpm : ℕ) (profile : Byte) (bounded : rpm ≤ kMaxRpm)
  | burst (rpm : ℕ) (bounded : rpm ≤ kMaxRpm)

namespace MotorCommand

def apply (motor : MotorController) : MotorCommand → MotorController
  | stop => motor.stop
  | ramp rpm profile _ => motor.setTarget rpm profile
  | burst rpm _ => motor.burst rpm

/-- The speed a command imposes at once. -/
def speed : MotorCommand → Option ℚ
  | stop => some 0
  | ramp _ _ _ => none
  | burst rpm _ => some rpm

def target : MotorCommand → Option ℕ
  | stop => some 0
  | ramp rpm _ _ => some rpm
  | burst rpm _ => some rpm

def rate : MotorCommand → Option ℚ
  | ramp _ profile _ => some (MotorController.rampRateFor profile)
  | _ => none

theorem apply_eq (motor : MotorController) (command : MotorCommand) :
    (command.apply motor).commandedRpm = command.speed.getD motor.commandedRpm ∧
      (command.apply motor).targetRpm = command.target.getD motor.targetRpm ∧
      (command.apply motor).rampRpmPerS = command.rate.getD motor.rampRpmPerS := by
  cases command with
  | stop => exact ⟨rfl, rfl, rfl⟩
  | ramp rpm profile bounded =>
    refine ⟨rfl, ?_, rfl⟩
    exact if_neg (not_lt.mpr bounded)
  | burst rpm bounded =>
    have hrpm : (if rpm > kMaxRpm then kMaxRpm else rpm) = rpm := if_neg (not_lt.mpr bounded)
    refine ⟨?_, hrpm, rfl⟩
    change ((if rpm > kMaxRpm then kMaxRpm else rpm : ℕ) : ℚ) = rpm
    rw [hrpm]

end MotorCommand

/-- The well-formed motor command in a frame. -/
def motorCommand (f : Frame) : Option MotorCommand :=
  let rpm := min (requestedRpm f) kMaxRpm
  have bounded : rpm ≤ kMaxRpm := Nat.min_le_right _ _
  if f.type ≠ .request then none
  else if f.msgId = MsgId.motorStop ∧ f.payloadLen = 0 then some .stop
  else if f.msgId = MsgId.motorSetTarget ∧ f.payloadLen = 3 then
    if requestedRamp f < kRampBurst then some (.ramp rpm (requestedRamp f) bounded)
    else if requestedRamp f = kRampBurst then some (.burst rpm bounded)
    else none
  else none

def speedCommand (f : Frame) : Option ℚ := (motorCommand f).bind MotorCommand.speed
def targetCommand (f : Frame) : Option ℕ := (motorCommand f).bind MotorCommand.target
def rateCommand (f : Frame) : Option ℚ := (motorCommand f).bind MotorCommand.rate

/-- The lock state a well-formed lid command asks for; an unlock needs a slow motor. -/
def lidCommand (rpm : ℕ) (f : Frame) : Option Bool :=
  if f.type ≠ .request ∨ f.payloadLen ≠ 0 then none
  else if f.msgId = MsgId.lidLock then some true
  else if f.msgId = MsgId.lidUnlock ∧ rpm < kUnlockMaxRpm then some false
  else none

/-- The frames that take effect: all of them, or those from the first stop request on
when a fault is latched. -/
def live (fault : FaultCode) (frames : List Frame) : List Frame :=
  if fault = .none then frames else frames.dropWhile fun f => !decide (IsStop f)

theorem live_snoc (fault : FaultCode) (frames : List Frame) (f : Frame) :
    live fault (frames ++ [f]) =
      if fault = .none ∨ live fault frames ≠ [] ∨ IsStop f then live fault frames ++ [f]
      else [] := by
  by_cases hfault : fault = .none
  · simp [live, hfault]
  · simp only [live, hfault, if_false, false_or, List.dropWhile_append]
    by_cases hempty : frames.dropWhile (fun f => !decide (IsStop f)) = []
    · by_cases hstop : IsStop f <;> simp [hempty, hstop]
    · simp [hempty]

/-- Nothing in these inputs limits the speed. -/
structure Free (inputs : Inputs) : Prop where
  closed : inputs.lidClosed = true
  locked : inputs.lidLocked = true
  cool : inputs.tempC ≤ kSpillGuardTempC

section Frames

variable {S : Type} [Board S] {h h' : CommandHandler (SimBoard S)} {request : Frame}
  {state : Inputs} {faulted : Bool} {reply : Option Reply}

theorem motorCommand_admits (hfree : Free state) (hlive : faulted = false ∨ IsStop request)
    (hcommand : motorCommand request ≠ none) : Admits request state faulted := by
  unfold motorCommand at hcommand
  dsimp only at hcommand
  split at hcommand
  · exact absurd rfl hcommand
  · split at hcommand
    · rename_i hstop
      refine ⟨fun _ => Or.inl hstop.1, Admissible.bare ?_ hstop.2⟩
      rw [hstop.1]
      decide
    · split at hcommand
      · rename_i hset
        have hrun : faulted = false := by
          rcases hlive with hrun | ⟨_, hid, _⟩
          · exact hrun
          · exact absurd (hid.symm.trans hset.1) (by decide)
        refine ⟨fun h => absurd (hrun.symm.trans h) (by decide), ?_⟩
        split at hcommand
        · rename_i hramp
          exact Admissible.motorRamped hset.1 hset.2 hramp
        · split at hcommand
          · rename_i hburst
            exact Admissible.motorBurst hset.1 hset.2 hburst hfree.locked hfree.cool
          · exact absurd rfl hcommand
      · exact absurd rfl hcommand

theorem lidCommand_admits (hlive : faulted = false ∨ IsStop request)
    (hcommand : lidCommand state.rpm request ≠ none) : Admits request state faulted := by
  unfold lidCommand at hcommand
  split at hcommand
  · exact absurd rfl hcommand
  · rename_i hguard
    rw [not_or, not_not, not_not] at hguard
    have hrun : request.msgId ≠ MsgId.motorStop → faulted = false := fun hid =>
      hlive.resolve_right fun hstop => hid hstop.2.1
    split at hcommand
    · rename_i hid
      have hrun := hrun (by rw [hid]; decide)
      refine ⟨fun h => absurd (hrun.symm.trans h) (by decide), Admissible.bare ?_ hguard.2⟩
      rw [hid]
      decide
    · split at hcommand
      · rename_i hid
        have hrun := hrun (by rw [hid.1]; decide)
        exact ⟨fun h => absurd (hrun.symm.trans h) (by decide),
          Admissible.lidUnlock hid.1 hguard.2 hid.2⟩
      · exact absurd rfl hcommand

/-- A live frame does to motor and lid what it asks for. -/
theorem executed_live (hfree : Free state) (hlive : faulted = false ∨ IsStop request)
    (hexec : CommandHandler.Executed h request state faulted reply h')
    (hclosed : h.board.lid.closed = true) :
    h'.motor = (motorCommand request).elim h.motor (MotorCommand.apply h.motor) ∧
      h'.board.lid.closed = true ∧
      h'.board.lid.locked = (lidCommand state.rpm request).getD h.board.lid.locked := by
  cases hexec with
  | ignored type => simp [motorCommand, lidCommand, type, hclosed]
  | refused type inadmissible =>
    have hmotor : motorCommand request = none := by
      by_contra hcommand
      exact inadmissible (motorCommand_admits hfree hlive hcommand)
    have hlid : lidCommand state.rpm request = none := by
      by_contra hcommand
      exact inadmissible (lidCommand_admits hlive hcommand)
    simp [hmotor, hlid, hclosed]
  | answered _ type msgId =>
    rcases msgId with msgId | msgId <;>
      simp +decide [motorCommand, lidCommand, type, msgId, hclosed]
  | motorRamped rpm type msgId running payloadLen ramp bounded =>
    subst bounded
    simp +decide [motorCommand, lidCommand, type, msgId, payloadLen, ramp, hclosed,
      MotorCommand.apply, Inputs.clampSpeedRequest_free hfree.closed hfree.locked hfree.cool]
  | motorBurst rpm type msgId running payloadLen ramp locked cool bounded =>
    subst bounded
    simp +decide [motorCommand, lidCommand, type, msgId, payloadLen, ramp, hclosed,
      MotorCommand.apply]
  | motorStopped type msgId payloadLen =>
    simp +decide [motorCommand, lidCommand, type, msgId, payloadLen, hclosed, MotorCommand.apply]
  | heaterSet _ type msgId _ payloadLen =>
    simp +decide [motorCommand, lidCommand, type, msgId, payloadLen, hclosed]
  | heaterOff type msgId payloadLen =>
    simp +decide [motorCommand, lidCommand, type, msgId, payloadLen, hclosed]
  | tareRefused _ type msgId =>
    simpa +decide [motorCommand, lidCommand, type, msgId] using ⟨hclosed, rfl⟩
  | tared _ type msgId =>
    simpa +decide [motorCommand, lidCommand, type, msgId] using ⟨hclosed, rfl⟩
  | weighed _ type msgId =>
    simpa +decide [motorCommand, lidCommand, type, msgId] using ⟨hclosed, rfl⟩
  | lidLocked type msgId _ payloadLen =>
    refine ⟨?_, (LidModel.setLock_closed _ _).trans hclosed, ?_⟩
    · simp +decide [motorCommand, type, msgId]
    · simp +decide [lidCommand, type, msgId, payloadLen]
      exact LidModel.setLock_locked hclosed true
  | lidUnlocked type msgId _ payloadLen slow =>
    refine ⟨?_, (LidModel.setLock_closed _ _).trans hclosed, ?_⟩
    · simp +decide [motorCommand, type, msgId]
    · simp +decide [lidCommand, type, msgId, payloadLen, slow]
      exact LidModel.setLock_locked hclosed false

/-- Behind a latched fault only a stop request touches motor or lid. -/
theorem executed_dead (hfault : faulted = true) (hstop : ¬ IsStop request)
    (hexec : CommandHandler.Executed h request state faulted reply h') :
    h'.motor = h.motor ∧ h'.board.lid = h.board.lid := by
  cases hexec with
  | motorRamped _ _ _ running => exact absurd (running.symm.trans hfault) (by decide)
  | motorBurst _ _ _ running => exact absurd (running.symm.trans hfault) (by decide)
  | heaterSet _ _ _ running => exact absurd (running.symm.trans hfault) (by decide)
  | lidLocked _ _ running => exact absurd (running.symm.trans hfault) (by decide)
  | lidUnlocked _ _ running => exact absurd (running.symm.trans hfault) (by decide)
  | motorStopped type msgId payloadLen => exact absurd ⟨type, msgId, payloadLen⟩ hstop
  | _ => exact ⟨rfl, rfl⟩

/-- No frame opens or closes the lid. -/
theorem executed_closed (hexec : Executed h request state faulted reply h') :
    h'.board.lid.closed = h.board.lid.closed := by
  cases hexec with
  | lidLocked => exact LidModel.setLock_closed _ _
  | lidUnlocked => exact LidModel.setLock_closed _ _
  | _ => rfl

end Frames

/-! The frame loop under a free sample. -/

section Loop

variable {K S : Type} [LinkPort K] [Board S] {s t : SafetyMcu K (SimBoard S)}

/-- The state in the frame loop that starts in `s`, told from the frames so far. -/
structure InForce (s t : SafetyMcu K (SimBoard S)) (frames : List Frame) : Prop where
  supervised : Supervised t
  inputs : t.inputs = s.inputs
  tempSensorOk : t.tempSensorOk = s.tempSensorOk
  fault : t.fault = if live s.fault frames = [] then s.fault else .none
  closed : t.handler.board.lid.closed = true
  locked : t.handler.board.lid.locked =
    latest (lidCommand s.inputs.rpm) true (live s.fault frames)
  speed : t.handler.motor.commandedRpm =
    latest speedCommand s.handler.motor.commandedRpm (live s.fault frames)
  target : t.handler.motor.targetRpm =
    latest targetCommand s.handler.motor.targetRpm (live s.fault frames)
  rate : t.handler.motor.rampRpmPerS =
    latest rateCommand s.handler.motor.rampRpmPerS (live s.fault frames)

theorem elim_eq (motor : MotorController) (f : Frame) :
    let motor' := (motorCommand f).elim motor (MotorCommand.apply motor)
    motor'.commandedRpm = (speedCommand f).getD motor.commandedRpm ∧
      motor'.targetRpm = (targetCommand f).getD motor.targetRpm ∧
      motor'.rampRpmPerS = (rateCommand f).getD motor.rampRpmPerS := by
  unfold speedCommand targetCommand rateCommand
  cases motorCommand f with
  | none => exact ⟨rfl, rfl, rfl⟩
  | some command => exact MotorCommand.apply_eq motor command

/-- Step lemma: a frame moves motor and lid as the frames so far say. -/
theorem handleFrame_inForce (hfree : Free s.inputs) (hclear : s.canClearFault = true)
    {frames : List Frame} (h : InForce s t frames) (f : Frame) (now : Millis) :
    InForce s (t.handleFrame f now) (frames ++ [f]) := by
  have hexec := handleFrame_executed t f now
  have hsuper := handleFrame_supervised h.supervised f now
  have hfault := h.fault
  have hclear' : live s.fault frames = [] → t.canClearFault = true := by
    intro hempty
    rw [if_pos hempty] at hfault
    simpa only [canClearFault, hfault, h.inputs, h.tempSensorOk] using hclear
  have hsnoc := live_snoc s.fault frames f
  by_cases hlive : t.fault = .none ∨ IsStop f
  · have hcond : s.fault = .none ∨ live s.fault frames ≠ [] ∨ IsStop f := by
      rcases hlive with hnone | hstop
      · by_cases hempty : live s.fault frames = []
        · rw [if_pos hempty] at hfault
          exact Or.inl (hfault.symm.trans hnone)
        · exact Or.inr (Or.inl hempty)
      · exact Or.inr (Or.inr hstop)
    rw [if_pos hcond] at hsnoc
    have hrun : decide (t.fault ≠ .none) = false ∨ IsStop f := hlive.imp_left fun h => by simp [h]
    rw [← h.inputs] at hfree
    obtain ⟨hmotor, hclosed, hlocked⟩ := executed_live hfree hrun hexec h.closed
    obtain ⟨hspeed, htarget, hrate⟩ := elim_eq t.handler.motor f
    rw [← hmotor] at hspeed htarget hrate
    refine ⟨hsuper, h.inputs, h.tempSensorOk, ?_, hclosed, ?_, ?_, ?_, ?_⟩
    · rw [hsnoc, if_neg (by simp), handleFrame_fault]
      rcases hlive with hnone | hstop
      · rw [hnone, ite_self]
      · by_cases hempty : live s.fault frames = []
        · rw [if_pos ⟨hstop, hclear' hempty⟩]
        · rw [if_neg hempty] at hfault
          rw [hfault, ite_self]
    · rw [hsnoc, latest_snoc, hlocked, h.locked, h.inputs]
    · rw [hsnoc, latest_snoc, hspeed, h.speed]
    · rw [hsnoc, latest_snoc, htarget, h.target]
    · rw [hsnoc, latest_snoc, hrate, h.rate]
  · rw [not_or] at hlive
    have hempty : live s.fault frames = [] := by
      by_contra hempty
      rw [if_neg hempty] at hfault
      exact hlive.1 hfault
    have hstart : s.fault ≠ .none := by
      rw [if_pos hempty] at hfault
      rw [← hfault]
      exact hlive.1
    rw [if_neg (by simp [hstart, hempty, hlive.2])] at hsnoc
    have hsnoc := hsnoc.trans hempty.symm
    obtain ⟨hmotor, hlid⟩ := executed_dead (by simp [hlive.1]) hlive.2 hexec
    refine ⟨hsuper, h.inputs, h.tempSensorOk, ?_, ?_, ?_, ?_, ?_, ?_⟩
    · rw [hsnoc, handleFrame_fault, if_neg fun h => hlive.2 h.1]
      exact hfault
    · rw [hlid]
      exact h.closed
    · rw [hsnoc, hlid]
      exact h.locked
    · rw [hsnoc, hmotor]
      exact h.speed
    · rw [hsnoc, hmotor]
      exact h.target
    · rw [hsnoc, hmotor]
      exact h.rate

theorem live_nil (fault : FaultCode) : live fault [] = [] := by
  unfold live
  split <;> rfl

/-- Run lemma: the frame loop of a tick ends as its incoming frames say. -/
theorem frameStage_inForce [LawfulLinkPort K] (hs : Supervised s) (hfree : Free s.inputs)
    (hclear : s.canClearFault = true) (hclosed : s.handler.board.lid.closed = true)
    (hlocked : s.handler.board.lid.locked = true) (now : Millis) :
    InForce s (s.frameStage now).1 (LinkPort.incoming s.link) := by
  have hloop := pollFrames_keeps s now (fun t log => InForce s t (log.map Exchange.frame))
    ((LinkPort.incoming s.link).length + 1)
    (fun t link log h => ⟨⟨h.supervised.latched, h.supervised.sensor, h.supervised.motor⟩,
      h.inputs, h.tempSensorOk, h.fault, h.closed, h.locked, h.speed, h.target, h.rate⟩)
    (fun t f log h => by
      rw [List.map_append]
      exact handleFrame_inForce hfree hclear h f now)
    [] ?_
  · rw [List.nil_append, pollFrames_frames s now _ (Nat.lt_succ_self _)] at hloop
    exact hloop
  · rw [List.map_nil]
    refine ⟨hs, rfl, rfl, ?_, hclosed, ?_, ?_, ?_, ?_⟩ <;> rw [live_nil]
    · rfl
    · exact hlocked
    · rfl
    · rfl
    · rfl

/-- The lid stays as open or closed as it was. -/
theorem frameStage_closed (s : SafetyMcu K (SimBoard S)) (now : Millis) :
    (s.frameStage now).1.handler.board.lid.closed = s.handler.board.lid.closed := by
  refine pollFrames_keeps s now
    (fun t _ => t.handler.board.lid.closed = s.handler.board.lid.closed) _
    (fun _ _ _ h => h) ?_ [] rfl
  intro t f _ h
  exact (executed_closed (handleFrame_executed t f now)).trans h

end Loop

/-! One tick. -/

/-- The speed `commanded` driven towards `target` at `rate` ends above the limit of an
unlocked lid after one ramp step. -/
def Overspeed (commanded : ℚ) (target : ℕ) (rate : ℚ) : Prop :=
  (6400 < target ∧ 6400 < commanded + rate / 1000) ∨ 6400 < commanded - rate / 1000 * 4

theorem overspeed_iff {motor : MotorController} (hrate : 0 < motor.rampRpmPerS) :
    6400 < motor.rampStep ↔
      Overspeed motor.commandedRpm motor.targetRpm motor.rampRpmPerS := by
  have hcast : (6400 : ℚ) < motor.targetRpm ↔ 6400 < motor.targetRpm := by
    exact_mod_cast Iff.rfl
  rw [Overspeed, ← hcast]
  unfold MotorController.rampStep
  dsimp only
  constructor
  · intro h
    split_ifs at h with hup hover hdown hunder
    · exact Or.inl ⟨h, by linarith⟩
    · exact Or.inl ⟨by linarith, h⟩
    · exact Or.inl ⟨h, by linarith⟩
    · exact Or.inr h
    · exact Or.inl ⟨by linarith, by linarith⟩
  · rintro (⟨htarget, hspeed⟩ | hspeed) <;> split_ifs <;> linarith

variable {S : Type} [Board S]

/-- What the sample of a tick says when nothing limits the speed. -/
structure FreeSample (board : SimBoard S) : Prop where
  cool : ∃ reading, (Board.readDeciCelsius board).1 = .ok reading ∧ toCelsius reading ≤ 60
  closed : board.lid.closed = true
  locked : board.lid.locked = true

/-- The frames of the tick that takes this input. -/
def tickFrames (m : Machine (SimBoard S)) (input : TickInput (SimBoard S)) : List Frame :=
  live m.mcu.fault (m.arrive input).link.incoming

/-- A free sample, a turning motor, an unlock in force at the end of the frames, and a
speed in force that the unlocked lid does not allow. -/
structure UnlocksAtSpeed (m : Machine (SimBoard S)) (input : TickInput (SimBoard S)) : Prop where
  sample : FreeSample input.board
  turning : Board.stalled (Board.readDeciCelsius input.board).2 = false
  unlocked : latest (lidCommand (Board.rpm (Board.readDeciCelsius input.board).2)) true
    (tickFrames m input) = false
  fast : Overspeed (latest speedCommand m.mcu.handler.motor.commandedRpm (tickFrames m input))
    (latest targetCommand m.mcu.handler.motor.targetRpm (tickFrames m input))
    (latest rateCommand m.mcu.handler.motor.rampRpmPerS (tickFrames m input))

/-- The written duty respects the limits of the lid as it is at the end of the tick. -/
def LidGuarded (after : Machine (SimBoard S)) : Prop :=
  let speed := after.mcu.handler.motor.duty * 10700
  (after.mcu.handler.board.lid.locked = false → speed ≤ 6400) ∧
    (after.mcu.handler.board.lid.closed = false → speed ≤ 500)

theorem sampleStage_lid (s : SafetyMcu Link (SimBoard S)) :
    s.sampleStage.handler.board.lid = s.handler.board.lid := by
  rw [sampleStage_board, readDeciCelsius_lid]

/-- Nothing behind the frame loop moves the lid. -/
theorem tick1ms_lid (s : SafetyMcu Link (SimBoard S)) (now : Millis) :
    (s.tick1ms now).handler.board.lid = (looped s now).handler.board.lid := by
  rw [tick1ms_eq, publishStage_handler, readRaw_lid, driveStage_board, (judge_inputs _ _).2]

theorem tick1ms_closed (s : SafetyMcu Link (SimBoard S)) (now : Millis) :
    (s.tick1ms now).handler.board.lid.closed = s.handler.board.lid.closed := by
  rw [tick1ms_lid, looped, frameStage_closed, sampleStage_lid]

theorem lidGuarded_of_closed {m : Machine (SimBoard S)} {input : TickInput (SimBoard S)}
    (hclosed : input.board.lid.closed = true) :
    LidGuarded (m.advance input) ↔
      ((m.advance input).mcu.handler.board.lid.locked = false →
        (m.advance input).mcu.handler.motor.duty * 10700 ≤ 6400) := by
  have hafter : (m.advance input).mcu.handler.board.lid.closed = true := by
    rw [advance_mcu, tick1ms_closed]
    exact hclosed
  constructor
  · intro h
    exact h.1
  · intro h
    exact ⟨h, fun hopen => absurd (hafter.symm.trans hopen) (by decide)⟩

/-- A sample that limits the speed limits it below what any lid state allows. -/
theorem lidGuarded_of_limited {m : Machine (SimBoard S)} (hs : Supervised m.mcu)
    {input : TickInput (SimBoard S)} (hsample : ¬ FreeSample input.board) :
    LidGuarded (m.advance input) := by
  by_cases hclosed : input.board.lid.closed = true
  · rw [lidGuarded_of_closed hclosed]
    intro _
    have hlimit : ((6400 : ℕ) : ℚ) = 6400 := by norm_num
    rw [← hlimit]
    refine advance_capped hs input fun reading hread => ?_
    by_cases hlocked : input.board.lid.locked = true
    · apply Inputs.continuousCap_hot
      by_contra hcool
      exact hsample ⟨⟨reading, hread, not_lt.mp hcool⟩, hclosed, hlocked⟩
    · exact Inputs.continuousCap_unlocked (Bool.not_eq_true _ ▸ hlocked)
  · have hspeed := advance_capped hs input fun reading _ =>
      Inputs.continuousCap_open (Bool.not_eq_true _ ▸ hclosed)
    have hlimit : ((kLidOpenMaxRpm : ℕ) : ℚ) = 500 := by norm_num [kLidOpenMaxRpm]
    rw [hlimit] at hspeed
    exact ⟨fun _ => by linarith, fun _ => hspeed⟩

/-- The state behind the frame loop of a tick with a free sample. -/
theorem looped_inForce {m : Machine (SimBoard S)} (hs : Supervised m.mcu)
    {input : TickInput (SimBoard S)} (hsample : FreeSample input.board) :
    ∃ reading, (Board.readDeciCelsius input.board).1 = .ok reading ∧ toCelsius reading ≤ 60 ∧
      let s := (m.arrive input).sampleStage
      s.inputs = sampled (Board.readDeciCelsius input.board).2 reading ∧
        s.fault = m.mcu.fault ∧ s.handler.motor = m.mcu.handler.motor ∧ Free s.inputs ∧
        InForce s (looped (m.arrive input) (now (m.clock + input.elapsed)))
          (m.arrive input).link.incoming := by
  obtain ⟨⟨reading, hread, hcool⟩, hclosed, hlocked⟩ := hsample
  have hs := arrive_supervised hs input
  have hlid := readDeciCelsius_lid input.board
  rcases hboard : Board.readDeciCelsius input.board with ⟨result, board⟩
  rw [hboard] at hread hlid
  subst hread
  have heq := sampleStage_ok (s := m.arrive input) hboard
  have hfree : Free (m.arrive input).sampleStage.inputs := by
    rw [heq]
    exact ⟨(congrArg LidModel.closed hlid).trans hclosed,
      (congrArg LidModel.locked hlid).trans hlocked, hcool⟩
  have hclear : (m.arrive input).sampleStage.canClearFault = true := by
    rw [heq]
    have hcutoff : toCelsius reading < kOvertempCutoffC := by
      unfold kOvertempCutoffC
      linarith
    cases hfault : (m.arrive input).fault <;> simp [canClearFault, sampled, hcutoff]
  have hloop := frameStage_inForce (sampleStage_supervised hs) hfree hclear
    ((congrArg LidModel.closed (sampleStage_lid _)).trans hclosed)
    ((congrArg LidModel.locked (sampleStage_lid _)).trans hlocked)
    (now (m.clock + input.elapsed))
  rw [sampleStage_link] at hloop
  refine ⟨reading, rfl, hcool, ?_, ?_, ?_, hfree, hloop⟩
  · rw [heq]
  · rw [heq]
    rfl
  · rw [heq]
    rfl

/-- A lid command among the frames keeps the link alive and the latch clear. -/
theorem judge_of_lidCommand {m : Machine (SimBoard S)} (hs : Supervised m.mcu)
    {input : TickInput (SimBoard S)} (h : UnlocksAtSpeed m input) :
    ((m.advance input).mcu).fault = .none := by
  obtain ⟨reading, hread, hcool, hinputs, hfault, _, _, hforce⟩ := looped_inForce hs h.sample
  have hs := arrive_supervised hs input
  have hunlocked := h.unlocked
  obtain ⟨f, hf, hcommand⟩ := exists_of_latest_ne (by rw [hunlocked]; decide)
  have hnone : (looped (m.arrive input) (now (m.clock + input.elapsed))).fault = .none := by
    rw [hforce.fault, hfault]
    exact if_neg (List.ne_nil_of_mem hf)
  have htype : f.type = .request := by
    by_contra htype
    exact hcommand (if_pos (Or.inl htype))
  have hmem : f ∈ (m.arrive input).link.incoming := by
    unfold tickFrames live at hf
    split at hf
    · exact hf
    · exact (List.dropWhile_sublist _).subset hf
  have hany : anyRequest ((m.arrive input).exchanges (now (m.clock + input.elapsed))) = true := by
    have hframes := exchanges_frames (m.arrive input) (now (m.clock + input.elapsed))
    rw [sampleStage_link] at hframes
    change f ∈ LinkPort.incoming (m.arrive input).link at hmem
    rw [← hframes, List.mem_map] at hmem
    obtain ⟨x, hx, rfl⟩ := hmem
    exact List.any_eq_true.mpr ⟨x, hx, by simpa using htype⟩
  have hlast := (looped_from hs (now (m.clock + input.elapsed))).lastValidFrameMs
  rw [hany, if_pos rfl] at hlast
  have hjudge : (looped (m.arrive input) (now (m.clock + input.elapsed))).judge
      (now (m.clock + input.elapsed)) =
        looped (m.arrive input) (now (m.clock + input.elapsed)) := by
    apply judge_eq
    · rw [hforce.inputs, hinputs]
      have hcutoff : ¬ kOvertempCutoffC ≤ toCelsius reading := by
        unfold kOvertempCutoffC
        linarith
      simp [Inputs.evaluate, sampled, hcutoff, h.turning]
    · rw [hlast, BitVec.sub_self]
      decide
  rw [advance_mcu, tick1ms_fault, hjudge, hnone]

/-- The duty written in a tick respects the lid it leaves behind, except when the tick
unlocks at speed. -/
theorem lid_guard {m : Machine (SimBoard S)} (hreach : Reachable Booted Ticked m)
    (input : TickInput (SimBoard S)) :
    LidGuarded (m.advance input) ↔ ¬ UnlocksAtSpeed m input := by
  have hs := supervised_of_reachable hreach
  by_cases hsample : FreeSample input.board
  · obtain ⟨reading, hread, hcool, hinputs, hfault, hmotor, hfree, hforce⟩ :=
      looped_inForce hs hsample
    have hlid : (m.advance input).mcu.handler.board.lid.locked =
        latest (lidCommand (Board.rpm (Board.readDeciCelsius input.board).2)) true
          (tickFrames m input) := by
      rw [advance_mcu, tick1ms_lid, hforce.locked, hfault, hinputs]
      rfl
    rw [lidGuarded_of_closed hsample.closed, hlid]
    by_cases hlatch : (m.advance input).mcu.fault = .none
    · have htick := arrive_supervised hs input
      rw [advance_mcu] at hlatch
      obtain ⟨hjudge, heval, _⟩ := tick1ms_unlatched htick hlatch
      have hturning := (Inputs.evaluate_none heval).2
      rw [hforce.inputs, hinputs] at hturning
      have hrange := hforce.supervised.motor
      have hspeed : (m.advance input).mcu.handler.motor.duty * 10700 =
          (looped (m.arrive input) (now (m.clock + input.elapsed))).handler.motor.rampStep := by
        have hmax : ((kMaxRpm : ℕ) : ℚ) = 10700 := by norm_num [kMaxRpm]
        rw [advance_mcu, tick1ms_motor, hjudge, ← hmax, MotorController.tick1ms_duty,
          hforce.inputs, Inputs.continuousCap_free hfree.closed hfree.locked hfree.cool,
          MotorController.enforceCap_eq hrange]
      have hover := overspeed_iff hrange.ramp
      rw [hforce.speed, hforce.target, hforce.rate, hfault, hmotor] at hover
      rw [hspeed]
      constructor
      · intro hguard hunlock
        exact absurd (hover.mpr hunlock.fast) (not_lt.mpr (hguard hunlock.unlocked))
      · intro hsafe hunlocked
        by_contra hfast
        exact hsafe ⟨hsample, hturning, hunlocked, hover.mp (not_le.mp hfast)⟩
    · constructor
      · intro _ hunlock
        exact hlatch (judge_of_lidCommand hs hunlock)
      · intro _ _
        have hrest := (tick1ms_supervised (arrive_supervised hs input)
          (now (m.clock + input.elapsed))).latched
        rw [advance_mcu] at hlatch ⊢
        rw [(hrest hlatch).1.2.2]
        norm_num
  · constructor
    · intro _ hunlock
      exact hsample hunlock.sample
    · intro _
      exact lidGuarded_of_limited hs hsample

/-! A lid that is locked in one tick, and unlocked and burst past in the next. -/

def bench : SimBoard SteadySensors where
  sensors := {}

def benchMachine : Machine (SimBoard SteadySensors) :=
  ⟨.boot ⟨⟨fun _ len => len, 0, [], []⟩, {}, 0, [], 0⟩ bench (now 0), 0, [], none⟩

def lockInput : TickInput (SimBoard SteadySensors) where
  elapsed := 1
  rx := Writer.writeFrame kTxCapacity .request 0 MsgId.lidLock []
  board := bench

/-- The board is as the first tick left it. -/
def unlockInput : TickInput (SimBoard SteadySensors) where
  elapsed := 1
  rx := Writer.writeFrame kTxCapacity .request 1 MsgId.lidUnlock [] ++
    Writer.writeFrame kTxCapacity .request 2 MsgId.motorSetTarget [0xCC, 0x29, kRampBurst]
  board := (benchMachine.advance lockInput).mcu.handler.board

theorem benchMachine_booted : Booted benchMachine := ⟨_, bench, 0, rfl⟩

theorem lid_guard_locking : ¬ UnlocksAtSpeed benchMachine lockInput :=
  (lid_guard (Reachable.init benchMachine_booted) lockInput).mp
    ⟨fun _ => by decide +kernel, fun _ => by decide +kernel⟩

/-- With the lid unlocked the motor is driven at full speed. -/
theorem lid_guard_violated :
    Reachable Booted Ticked (benchMachine.advance lockInput) ∧
      ¬ LidGuarded ((benchMachine.advance lockInput).advance unlockInput) := by
  refine ⟨Reachable.step (Reachable.init benchMachine_booted) rfl, fun h => ?_⟩
  have hunlocked : ((benchMachine.advance lockInput).advance unlockInput).mcu.handler.board.lid.locked
      = false := by decide +kernel
  have hfast : ¬ ((benchMachine.advance lockInput).advance unlockInput).mcu.handler.motor.duty * 10700
      ≤ 6400 := by decide +kernel
  exact hfast (h.1 hunlocked)

end Culina.LidGuard
