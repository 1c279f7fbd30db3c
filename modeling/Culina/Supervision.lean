import Culina.Safety
import Culina.SerialLink
import Culina.Runs

/-!
Runs of the safety processor. `Supervised` is what every stage of the control tick
keeps: a latched fault holds the outputs at rest, an unread sensor holds its fault,
and the motor stays in its range. A `Machine` adds the true time and the history of
handled frames to the processor, so that the wrap of its clock can be seen.
-/
namespace Culina.Supervision

open Wire Drives Ports Commands Safety SafetyMcu SerialLink

section Stages

variable {K H : Type} {s : SafetyMcu K H}

structure Supervised (s : SafetyMcu K H) : Prop where
  latched : s.fault ≠ .none → s.handler.motor.Stopped ∧ s.handler.pid.enabled = false
  sensor : s.tempSensorOk = false → s.fault = .sensorFailure
  motor : s.handler.motor.InRange

theorem Supervised.not_driven (h : Supervised s) (hfault : s.fault ≠ .none) :
    s.driven = false := by
  obtain ⟨hmotor, hpid⟩ := h.latched hfault
  simp [driven, hmotor.not_active, hpid]

theorem boot_supervised (link : K) (board : H) (now : Millis) :
    Supervised (SafetyMcu.boot link board now) :=
  ⟨fun h => absurd rfl h, fun h => absurd h (by simp [SafetyMcu.boot]),
    MotorController.inRange_initial⟩

/-- Neither the link nor the board is supervised. -/
theorem Supervised.arrive (h : Supervised s) (link : K) (board : H) :
    Supervised { s with link, handler := { s.handler with board } } :=
  ⟨h.latched, h.sensor, h.motor⟩

theorem enterFault_supervised (h : s.handler.motor.InRange) (code : FaultCode)
    (hsensor : s.tempSensorOk = false → code = .sensorFailure) :
    Supervised (s.enterFault code) :=
  ⟨fun _ => ⟨MotorController.stop_stopped _, rfl⟩, hsensor, MotorController.stop_inRange h⟩

/-! The checks behind the frame loop. -/

theorem interlockStage_supervised (hs : Supervised s) : Supervised s.interlockStage := by
  unfold interlockStage
  split
  · rename_i h
    refine enterFault_supervised hs.motor _ fun hok => ?_
    rw [hs.sensor hok] at h
    cases h.1
  · exact hs

theorem judge_supervised (hs : Supervised s) (now : Millis) : Supervised (s.judge now) := by
  have hinter := interlockStage_supervised hs
  unfold judge linkStage
  split
  · rename_i h
    refine enterFault_supervised hinter.motor _ fun hok => ?_
    rw [hinter.sensor hok] at h
    cases h.1
  · exact hinter

theorem judge_inputs (s : SafetyMcu K H) (now : Millis) :
    (s.judge now).inputs = s.inputs ∧ (s.judge now).handler.board = s.handler.board := by
  unfold judge linkStage interlockStage
  split_ifs <;> exact ⟨rfl, rfl⟩

theorem judge_lastValidFrameMs (s : SafetyMcu K H) (now : Millis) :
    (s.judge now).lastValidFrameMs = s.lastValidFrameMs := by
  unfold judge linkStage interlockStage
  split_ifs <;> rfl

theorem judge_link (s : SafetyMcu K H) (now : Millis) : (s.judge now).link = s.link := by
  unfold judge linkStage interlockStage
  split_ifs <;> rfl

/-- Checks that pass change nothing. -/
theorem judge_eq {now : Millis} (heval : s.inputs.evaluate = .none)
    (hlink : now - s.lastValidFrameMs < kLinkTimeoutMs) : s.judge now = s := by
  have hinter : s.interlockStage = s := by
    unfold interlockStage
    exact if_neg fun h => h.2 heval
  unfold judge linkStage
  rw [hinter]
  exact if_neg fun h => BitVec.not_lt.mpr h.2.2 hlink

/-- Without a fault both checks passed and changed nothing. -/
theorem judge_none {now : Millis} (h : (s.judge now).fault = .none) :
    s.judge now = s ∧ s.inputs.evaluate = .none ∧
      (s.driven = true → now - s.lastValidFrameMs < kLinkTimeoutMs) := by
  unfold judge at h ⊢
  have hlink : (s.interlockStage).linkStage now = s.interlockStage ∧
      s.interlockStage.fault = .none ∧ (s.interlockStage.driven = true →
        now - s.interlockStage.lastValidFrameMs < kLinkTimeoutMs) := by
    unfold linkStage at h ⊢
    split at h
    · cases h
    · rename_i hcheck
      rw [if_neg hcheck]
      refine ⟨rfl, h, fun hdriven => ?_⟩
      by_contra hlate
      exact hcheck ⟨h, hdriven, BitVec.not_lt.mp hlate⟩
  have hinter : s.interlockStage = s ∧ s.inputs.evaluate = .none := by
    have hfault := hlink.2.1
    unfold interlockStage at hfault ⊢
    split at hfault
    · rename_i hcheck
      exact absurd hfault hcheck.2
    · rename_i hcheck
      rw [if_neg hcheck]
      refine ⟨rfl, ?_⟩
      by_contra hev
      exact hcheck ⟨hfault, hev⟩
  rw [hinter.1] at hlink
  exact ⟨hinter.1.symm ▸ hlink.1, hinter.2, hlink.2.2⟩

/-! Driving the outputs. -/

/-- Driving moves the drives and the heater power only. -/
theorem driveStage_kept (s : SafetyMcu K H) :
    s.driveStage.link = s.link ∧ s.driveStage.fault = s.fault ∧
      s.driveStage.lastValidFrameMs = s.lastValidFrameMs ∧
      s.driveStage.handler.board = s.handler.board :=
  ⟨rfl, rfl, rfl, rfl⟩

theorem driveStage_link (s : SafetyMcu K H) : s.driveStage.link = s.link := (driveStage_kept s).1

theorem driveStage_fault (s : SafetyMcu K H) : s.driveStage.fault = s.fault := (driveStage_kept s).2.1

theorem driveStage_lastValidFrameMs (s : SafetyMcu K H) :
    s.driveStage.lastValidFrameMs = s.lastValidFrameMs := (driveStage_kept s).2.2.1

theorem driveStage_board (s : SafetyMcu K H) :
    s.driveStage.handler.board = s.handler.board := (driveStage_kept s).2.2.2

theorem driveStage_inputs (s : SafetyMcu K H) : s.driveStage.inputs = s.inputs := rfl

theorem driveStage_motor (s : SafetyMcu K H) : s.driveStage.handler.motor =
    (s.handler.motor.enforceCap s.inputs.continuousCap).tick1ms := rfl

theorem driveStage_enabled (s : SafetyMcu K H) :
    s.driveStage.handler.pid.enabled = s.handler.pid.enabled := by
  unfold driveStage
  dsimp only
  split
  · exact HeaterPid.update_enabled _ _ _
  · rfl

/-- The heater gets power only without a fault, enabled and under a closed lid. -/
theorem driveStage_powerW (s : SafetyMcu K H) :
    s.driveStage.powerW = 0 ∨
      (s.fault = .none ∧ s.handler.pid.enabled = true ∧ s.inputs.lidClosed = true) := by
  unfold driveStage
  dsimp only
  split
  · rename_i h
    simp only [Bool.and_eq_true, decide_eq_true_eq] at h
    exact Or.inr ⟨h.1.1, h.1.2, h.2⟩
  · exact Or.inl rfl

theorem driveStage_driven (hs : Supervised s) (h : s.driveStage.driven = true) :
    s.driven = true := by
  by_contra hold
  simp only [driven, Bool.or_eq_true, not_or, Bool.not_eq_true] at hold
  have hrest := MotorController.rest_of_inactive hs.motor hold.1 s.inputs.continuousCap
  rw [driven, driveStage_motor, hrest.not_active, driveStage_enabled, hold.2] at h
  cases h

theorem driveStage_supervised (hs : Supervised s) : Supervised s.driveStage := by
  refine ⟨fun h => ?_, hs.sensor, ?_⟩
  · obtain ⟨hmotor, hpid⟩ := hs.latched h
    refine ⟨?_, (driveStage_enabled s).trans hpid⟩
    exact MotorController.rest_of_inactive hs.motor hmotor.not_active _
  · exact MotorController.tick1ms_inRange (MotorController.enforceCap_inRange hs.motor _)

/-! Sampling. -/

variable [Board H]

/-- The inputs sampled from a board that reads its temperature. -/
def sampled (board : H) (reading : DeciCelsius) : Inputs where
  tempC := toCelsius reading
  rpm := Board.rpm board
  lidClosed := Board.isClosed board
  lidLocked := Board.isLocked board
  motorStalled := Board.stalled board

/-- A readable sensor refreshes all inputs and touches neither drives nor latch. -/
theorem sampleStage_ok {reading : DeciCelsius} {board : H}
    (h : Board.readDeciCelsius s.handler.board = (.ok reading, board)) :
    s.sampleStage = { s with
      handler := { s.handler with board }
      tickCount := s.tickCount + 1
      tempSensorOk := true
      inputs := sampled board reading } := by
  simp only [sampleStage, sampleInputs, h]
  rfl

/-- An unreadable sensor latches its fault, if it is not latched yet. -/
theorem sampleStage_failed {status : Status} {board : H}
    (h : Board.readDeciCelsius s.handler.board = (.error status, board)) :
    s.sampleStage =
      let unread := { s with
        handler := { s.handler with board }
        tickCount := s.tickCount + 1
        tempSensorOk := false }
      if s.fault = .sensorFailure then unread else unread.enterFault .sensorFailure := by
  simp only [sampleStage, sampleInputs, h]
  by_cases hfault : s.fault = .sensorFailure <;> simp [hfault]

/-- It leaves the processor at rest. -/
theorem sampleStage_error {status : Status} {board : H} (hs : Supervised s)
    (h : Board.readDeciCelsius s.handler.board = (.error status, board)) :
    Supervised s.sampleStage ∧ s.sampleStage.tempSensorOk = false := by
  rw [sampleStage_failed h]
  dsimp only
  split
  · rename_i hfault
    exact ⟨⟨hs.latched, fun _ => hfault, hs.motor⟩, rfl⟩
  · refine ⟨enterFault_supervised ?_ _ fun _ => rfl, rfl⟩
    exact hs.motor

theorem sampleStage_supervised (hs : Supervised s) : Supervised s.sampleStage := by
  rcases h : Board.readDeciCelsius s.handler.board with ⟨status | reading, board⟩
  · exact (sampleStage_error hs h).1
  · rw [sampleStage_ok h]
    exact ⟨hs.latched, fun h => absurd h (by simp), hs.motor⟩

theorem sampleStage_driven (hs : Supervised s) (hdriven : s.sampleStage.driven = true) :
    s.driven = true := by
  rcases h : Board.readDeciCelsius s.handler.board with ⟨status | reading, board⟩
  · obtain ⟨hsuper, hsensor⟩ := sampleStage_error hs h
    have hfault : s.sampleStage.fault ≠ .none := by
      rw [hsuper.sensor hsensor]
      decide
    rw [hsuper.not_driven hfault] at hdriven
    cases hdriven
  · rw [sampleStage_ok h] at hdriven
    exact hdriven

/-- Sampling leaves the link alone and the board as its read leaves it. -/
theorem sampleStage_kept (s : SafetyMcu K H) :
    s.sampleStage.link = s.link ∧ s.sampleStage.lastValidFrameMs = s.lastValidFrameMs ∧
      s.sampleStage.handler.board = (Board.readDeciCelsius s.handler.board).2 := by
  rcases h : Board.readDeciCelsius s.handler.board with ⟨status | reading, board⟩
  · rw [sampleStage_failed h]
    dsimp only
    split
    · exact ⟨rfl, rfl, rfl⟩
    · exact ⟨rfl, rfl, rfl⟩
  · rw [sampleStage_ok h]
    exact ⟨rfl, rfl, rfl⟩

theorem sampleStage_link (s : SafetyMcu K H) : s.sampleStage.link = s.link := (sampleStage_kept s).1

theorem sampleStage_lastValidFrameMs (s : SafetyMcu K H) :
    s.sampleStage.lastValidFrameMs = s.lastValidFrameMs := (sampleStage_kept s).2.1

theorem sampleStage_board (s : SafetyMcu K H) :
    s.sampleStage.handler.board = (Board.readDeciCelsius s.handler.board).2 := (sampleStage_kept s).2.2

/-- A latched fault stays, unless the sensor fault replaces it. -/
theorem sampleStage_fault (s : SafetyMcu K H) :
    s.sampleStage.fault = s.fault ∨ s.sampleStage.fault = .sensorFailure := by
  rcases h : Board.readDeciCelsius s.handler.board with ⟨status | reading, board⟩
  · rw [sampleStage_failed h]
    dsimp only
    split
    · exact Or.inl rfl
    · exact Or.inr rfl
  · rw [sampleStage_ok h]
    exact Or.inl rfl

/-! The frame loop. -/

variable [LinkPort K]

theorem handleFrame_supervised (hs : Supervised s) (frame : Frame) (now : Millis) :
    Supervised (s.handleFrame frame now) := by
  have hexec := handleFrame_executed s frame now
  have hfault : (s.handleFrame frame now).fault ≠ .none → s.fault ≠ .none := by
    intro h hnone
    rw [handleFrame_fault, hnone, ite_self] at h
    exact h rfl
  have hsensor : s.tempSensorOk = false → (s.handleFrame frame now).fault = .sensorFailure := by
    intro hok
    have hcode := hs.sensor hok
    have hclear : s.canClearFault = false := by
      simp only [canClearFault, hcode, hok]
    rw [handleFrame_fault, hclear, hcode]
    simp
  have hrunning : decide (s.fault ≠ .none) = false → (s.handleFrame frame now).fault ≠ .none →
      False := fun hrun h => hfault h (by simpa using hrun)
  refine ⟨fun h => ?_, hsensor, ?_⟩
  · have hold := hs.latched (hfault h)
    generalize (s.handleFrame frame now).handler = handler at hexec
    generalize (s.exchange frame now).reply = reply at hexec
    cases hexec with
    | motorRamped _ _ _ running => exact (hrunning running h).elim
    | motorBurst _ _ _ running => exact (hrunning running h).elim
    | heaterSet _ _ _ running => exact (hrunning running h).elim
    | motorStopped => exact ⟨MotorController.stop_stopped _, hold.2⟩
    | heaterOff => exact ⟨hold.1, rfl⟩
    | _ => exact hold
  · generalize (s.handleFrame frame now).handler = handler at hexec
    generalize (s.exchange frame now).reply = reply at hexec
    cases hexec with
    | motorRamped => exact MotorController.setTarget_inRange hs.motor _ _
    | motorBurst => exact MotorController.burst_inRange hs.motor _
    | motorStopped => exact MotorController.stop_inRange hs.motor
    | _ => exact hs.motor

/-- Only a request makes a resting processor drive something. -/
theorem handleFrame_driven (frame : Frame) (now : Millis)
    (hdriven : (s.handleFrame frame now).driven = true) :
    frame.type = .request ∨ s.driven = true := by
  by_cases htype : frame.type = .request
  · exact Or.inl htype
  · right
    have hexec := handleFrame_executed s frame now
    unfold driven at hdriven ⊢
    generalize (s.handleFrame frame now).handler = handler at hexec hdriven
    generalize (s.exchange frame now).reply = reply at hexec
    cases hexec with
    | ignored => exact hdriven
    | _ => contradiction

/-- Whether some handled frame was a request. -/
def anyRequest (log : List Exchange) : Bool := log.any fun x => x.frame.type = .request

/-- What the frame loop keeps, relative to the state `s` it starts in. -/
structure LoopFrom (s : SafetyMcu K H) (now : Millis) (t : SafetyMcu K H) (log : List Exchange) :
    Prop where
  supervised : Supervised t
  inputs : t.inputs = s.inputs
  tempSensorOk : t.tempSensorOk = s.tempSensorOk
  driven : t.driven = true → anyRequest log = true ∨ s.driven = true
  lastValidFrameMs : t.lastValidFrameMs = if anyRequest log then now else s.lastValidFrameMs

theorem frameStage_from (hs : Supervised s) (now : Millis) :
    LoopFrom s now (s.frameStage now).1 (s.frameStage now).2 := by
  have hloop := pollFrames_keeps s now (LoopFrom s now) ((LinkPort.incoming s.link).length + 1)
    (fun t link log h => ⟨⟨h.supervised.latched, h.supervised.sensor, h.supervised.motor⟩,
      h.inputs, h.tempSensorOk, h.driven, h.lastValidFrameMs⟩)
    ?_ [] ⟨hs, rfl, rfl, Or.inr, rfl⟩
  · exact hloop
  · intro t frame log h
    have hany : anyRequest (log ++ [t.exchange frame now]) =
        (anyRequest log || decide (frame.type = .request)) := by
      simp [anyRequest, exchange]
    refine ⟨handleFrame_supervised h.supervised frame now, h.inputs, h.tempSensorOk, ?_, ?_⟩
    · intro hdriven
      rw [hany, Bool.or_eq_true, decide_eq_true_eq]
      rcases handleFrame_driven frame now hdriven with htype | hold
      · exact Or.inl (Or.inr htype)
      · rcases h.driven hold with hreq | hstart
        · exact Or.inl (Or.inl hreq)
        · exact Or.inr hstart
    · rw [hany, handleFrame_lastValidFrameMs, h.lastValidFrameMs]
      by_cases htype : frame.type = .request <;> simp [htype]

/-! The whole tick. -/

/-- Publishing touches the scale, the publisher and the link only. -/
theorem publishStage_handler (s : SafetyMcu K H) (now : Millis) :
    (s.publishStage now).handler =
      { s.handler with board := (Board.readRaw s.handler.board).2 } := by
  rw [← CommandHandler.currentGrams_board]
  rfl

theorem publishStage_fault (s : SafetyMcu K H) (now : Millis) :
    (s.publishStage now).fault = s.fault := rfl

theorem publishStage_inputs (s : SafetyMcu K H) (now : Millis) :
    (s.publishStage now).inputs = s.inputs := rfl

theorem publishStage_powerW (s : SafetyMcu K H) (now : Millis) :
    (s.publishStage now).powerW = s.powerW := rfl

theorem publishStage_lastValidFrameMs (s : SafetyMcu K H) (now : Millis) :
    (s.publishStage now).lastValidFrameMs = s.lastValidFrameMs := rfl

theorem publishStage_supervised (hs : Supervised s) (now : Millis) :
    Supervised (s.publishStage now) := by
  refine ⟨fun h => ?_, hs.sensor, ?_⟩
  · rw [publishStage_handler]
    exact hs.latched h
  · rw [publishStage_handler]
    exact hs.motor

/-- The state between the frame loop and the checks behind it. -/
def looped (s : SafetyMcu K H) (now : Millis) : SafetyMcu K H := (s.sampleStage.frameStage now).1

theorem tick1ms_eq (s : SafetyMcu K H) (now : Millis) :
    s.tick1ms now = (((looped s now).judge now).driveStage).publishStage now := rfl

theorem tick1ms_finish (s : SafetyMcu K H) (now : Millis) :
    s.tick1ms now = (looped s now).finishTick now := rfl

theorem looped_from (hs : Supervised s) (now : Millis) :
    LoopFrom s.sampleStage now (looped s now) (s.exchanges now) :=
  frameStage_from (sampleStage_supervised hs) now

theorem looped_judge_supervised (hs : Supervised s) (now : Millis) :
    Supervised ((looped s now).judge now) := judge_supervised (looped_from hs now).supervised now

theorem tick1ms_supervised (hs : Supervised s) (now : Millis) : Supervised (s.tick1ms now) := by
  rw [tick1ms_eq]
  exact publishStage_supervised (driveStage_supervised (looped_judge_supervised hs now)) now

theorem tick1ms_fault (s : SafetyMcu K H) (now : Millis) :
    (s.tick1ms now).fault = ((looped s now).judge now).fault := by
  rw [tick1ms_eq, publishStage_fault, driveStage_fault]

theorem tick1ms_inputs (s : SafetyMcu K H) (now : Millis) :
    (s.tick1ms now).inputs = (looped s now).inputs := by
  rw [tick1ms_eq, publishStage_inputs, driveStage_inputs, (judge_inputs _ _).1]

theorem tick1ms_lastValidFrameMs (hs : Supervised s) (now : Millis) :
    (s.tick1ms now).lastValidFrameMs =
      if anyRequest (s.exchanges now) then now else s.lastValidFrameMs := by
  rw [tick1ms_eq, publishStage_lastValidFrameMs, driveStage_lastValidFrameMs,
    judge_lastValidFrameMs, (looped_from hs now).lastValidFrameMs, sampleStage_lastValidFrameMs]

/-- A tick that ends without a fault passed every check on inputs sampled in it. -/
theorem tick1ms_unlatched (hs : Supervised s) {now : Millis}
    (hfault : (s.tick1ms now).fault = .none) :
    (looped s now).judge now = looped s now ∧ (looped s now).inputs.evaluate = .none ∧
      ∃ reading, (Board.readDeciCelsius s.handler.board).1 = .ok reading ∧
        (looped s now).inputs = sampled (Board.readDeciCelsius s.handler.board).2 reading := by
  rw [tick1ms_fault] at hfault
  obtain ⟨hsame, heval, _⟩ := judge_none hfault
  refine ⟨hsame, heval, ?_⟩
  rw [hsame] at hfault
  have hloop := looped_from hs now
  rcases h : Board.readDeciCelsius s.handler.board with ⟨status | reading, board⟩
  · obtain ⟨_, hsensor⟩ := sampleStage_error hs h
    rw [hloop.supervised.sensor (hloop.tempSensorOk.trans hsensor)] at hfault
    cases hfault
  · refine ⟨reading, rfl, ?_⟩
    rw [hloop.inputs, sampleStage_ok h]

/-- A processor that drives something at the end of a tick is unlatched, drove it
behind the frame loop, and heard a request in time. -/
theorem tick1ms_driven (hs : Supervised s) {now : Millis} (h : (s.tick1ms now).driven = true) :
    (s.tick1ms now).fault = .none ∧ (anyRequest (s.exchanges now) = true ∨ s.driven = true) ∧
      now - (s.tick1ms now).lastValidFrameMs < kLinkTimeoutMs := by
  have hfault : (s.tick1ms now).fault = .none := by
    by_contra hfault
    rw [(tick1ms_supervised hs now).not_driven hfault] at h
    cases h
  have hjudge : ((looped s now).judge now).driven = true := by
    apply driveStage_driven (looped_judge_supervised hs now)
    rw [tick1ms_eq, driven, publishStage_handler] at h
    exact h
  have hcheck := hfault
  rw [tick1ms_fault] at hcheck
  obtain ⟨hsame, _, hlink⟩ := judge_none hcheck
  rw [hsame] at hjudge
  refine ⟨hfault, ?_, ?_⟩
  · rcases (looped_from hs now).driven hjudge with hreq | hold
    · exact Or.inl hreq
    · exact Or.inr (sampleStage_driven hs hold)
  · rw [tick1ms_eq, publishStage_lastValidFrameMs, driveStage_lastValidFrameMs,
      judge_lastValidFrameMs]
    exact hlink hjudge

theorem tick1ms_motor (s : SafetyMcu K H) (now : Millis) : (s.tick1ms now).handler.motor =
    (((looped s now).judge now).handler.motor.enforceCap
      ((looped s now).judge now).inputs.continuousCap).tick1ms := by
  rw [tick1ms_eq, publishStage_handler, driveStage_motor]

/-- A written duty is the speed of an active motor. -/
theorem tick1ms_active (s : SafetyMcu K H) {now : Millis}
    (h : 0 < (s.tick1ms now).handler.motor.duty) :
    (s.tick1ms now).handler.motor.active = true := by
  rw [tick1ms_motor] at h ⊢
  have hmul := mul_pos h (show (0 : ℚ) < kMaxRpm by norm_num [kMaxRpm])
  rw [MotorController.tick1ms_duty] at hmul
  simp only [MotorController.active, MotorController.tick1ms, gt_iff_lt, hmul, decide_true,
    Bool.or_true]

theorem tick1ms_duty (s : SafetyMcu K H) {now : Millis}
    (h : 0 < (s.tick1ms now).handler.motor.duty) : (s.tick1ms now).driven = true := by
  simp only [driven, tick1ms_active s h, Bool.true_or]

/-- Written heater power belongs to an enabled controller under a closed lid. -/
theorem tick1ms_powerW (s : SafetyMcu K H) {now : Millis} (h : 0 < (s.tick1ms now).powerW) :
    (s.tick1ms now).driven = true ∧ (s.tick1ms now).handler.pid.enabled = true ∧
      (looped s now).inputs.lidClosed = true := by
  rw [tick1ms_eq, publishStage_powerW] at h
  rcases driveStage_powerW ((looped s now).judge now) with hzero | ⟨_, henabled, hclosed⟩
  · exact absurd h (not_lt_of_ge (le_of_eq hzero))
  · have hpid : (s.tick1ms now).handler.pid.enabled = true := by
      rw [tick1ms_eq, publishStage_handler]
      exact (driveStage_enabled _).trans henabled
    refine ⟨?_, hpid, ?_⟩
    · simp only [driven, hpid, Bool.or_true]
    · rwa [(judge_inputs _ _).1] at hclosed

theorem tick1ms_powerW_latched (s : SafetyMcu K H) {now : Millis}
    (h : (s.tick1ms now).fault ≠ .none) : (s.tick1ms now).powerW = 0 := by
  rw [tick1ms_fault] at h
  rw [tick1ms_eq, publishStage_powerW]
  rcases driveStage_powerW ((looped s now).judge now) with hzero | ⟨hfault, _⟩
  · exact hzero
  · exact absurd hfault h

/-- The duty never exceeds the cap of the inputs sampled in the tick. -/
theorem tick1ms_capped (hs : Supervised s) (now : Millis) {limit : ℕ}
    (hcap : ∀ reading, (Board.readDeciCelsius s.handler.board).1 = .ok reading →
      (sampled (Board.readDeciCelsius s.handler.board).2 reading).continuousCap ≤ limit) :
    (s.tick1ms now).handler.motor.duty * kMaxRpm ≤ limit := by
  by_cases hduty : 0 < (s.tick1ms now).handler.motor.duty
  · obtain ⟨hfault, _⟩ := tick1ms_driven hs (tick1ms_duty s hduty)
    obtain ⟨hsame, _, reading, hread, hinputs⟩ := tick1ms_unlatched hs hfault
    have hlimit := hcap reading hread
    rw [← hinputs] at hlimit
    rw [tick1ms_motor, hsame]
    exact le_trans (MotorController.capped_duty (looped_from hs now).supervised.motor _)
      (Nat.cast_le.mpr hlimit)
  · have hlimit : (0 : ℚ) ≤ limit := Nat.cast_nonneg limit
    exact le_trans (mul_nonpos_of_nonpos_of_nonneg (not_lt.mp hduty) (Nat.cast_nonneg _)) hlimit

end Stages

/-! Runs. -/

variable {H : Type} [Board H]

/-- What happens between two ticks: time passes, bytes arrive, and the board is
whatever it is by then. -/
structure TickInput (H : Type) where
  elapsed : ℕ
  rx : List Byte
  board : H

/-- The processor with the true time, the exchanges so far, and the time of the
last handled request. -/
structure Machine (H : Type) where
  mcu : SafetyMcu Link H
  clock : ℕ
  log : List Exchange := []
  lastRequestAt : Option ℕ := none

namespace Machine

/-- The processor at the start of a tick. -/
def arrive (m : Machine H) (input : TickInput H) : SafetyMcu Link H :=
  { m.mcu with
    link := { m.mcu.link with uart := m.mcu.link.uart.receive input.rx }
    handler := { m.mcu.handler with board := input.board } }

/-- The millisecond counter shows the true time modulo its width. -/
def now (clock : ℕ) : Millis := BitVec.ofNat 32 clock

def advance (m : Machine H) (input : TickInput H) : Machine H :=
  let clock := m.clock + input.elapsed
  let handled := (m.arrive input).exchanges (now clock)
  { mcu := (m.arrive input).tick1ms (now clock)
    clock
    log := m.log ++ handled
    lastRequestAt := if anyRequest handled then some clock else m.lastRequestAt }

theorem advance_mcu (m : Machine H) (input : TickInput H) :
    (m.advance input).mcu = (m.arrive input).tick1ms (now (m.clock + input.elapsed)) := rfl

theorem advance_log (m : Machine H) (input : TickInput H) : (m.advance input).log =
    m.log ++ (m.arrive input).exchanges (now (m.clock + input.elapsed)) := rfl

/-- Construction with any UART, board and time. -/
def Booted (m : Machine H) : Prop :=
  ∃ (uart : Uart) (board : H) (clock : ℕ), m = ⟨.boot ⟨uart, {}, 0, [], 0⟩ board (now clock), clock, [], none⟩

/-- Any tick. -/
def Ticked (m : Machine H) (input : TickInput H) (m' : Machine H) : Prop := m' = m.advance input

/-- A tick that comes before the clock could wrap onto a live request. -/
def Timely (m : Machine H) (input : TickInput H) (m' : Machine H) : Prop :=
  input.elapsed < 2 ^ 32 - 5000 ∧ m' = m.advance input

omit [Board H] in
theorem arrive_supervised {m : Machine H} (hs : Supervised m.mcu) (input : TickInput H) :
    Supervised (m.arrive input) := hs.arrive _ _

/-- The duty in RPM stays below every limit that the sampled inputs impose. -/
theorem advance_capped {m : Machine H} (hs : Supervised m.mcu) (input : TickInput H) {limit : ℕ}
    (hcap : ∀ reading, (Board.readDeciCelsius input.board).1 = .ok reading →
      (sampled (Board.readDeciCelsius input.board).2 reading).continuousCap ≤ limit) :
    (m.advance input).mcu.handler.motor.duty * 10700 ≤ limit := by
  have hmax : ((kMaxRpm : ℕ) : ℚ) = 10700 := by norm_num [kMaxRpm]
  rw [← hmax, advance_mcu]
  exact tick1ms_capped (arrive_supervised hs input) _ hcap

theorem supervised_of_reachable {m : Machine H} (h : Runs.Reachable Booted Ticked m) :
    Supervised m.mcu := by
  refine h.keeps (fun m => Supervised m.mcu) ?_ ?_
  · rintro m ⟨uart, board, clock, rfl⟩
    exact boot_supervised _ _ _
  · rintro m input m' hs rfl
    exact tick1ms_supervised (arrive_supervised hs input) _

end Machine

end Culina.Supervision
