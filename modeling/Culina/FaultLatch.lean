import Culina.Supervision
import Culina.Lid

/-!
The fault latch: a latched fault holds every output at rest at the end of each tick,
only a well-formed stop request clears it and only once its cause is gone, and what
is driven after a clear was requested after it.
-/
namespace Culina.FaultLatch

open Wire Drives Ports Commands Safety SafetyMcu Supervision Machine SerialLink Lid Runs

/-- An exchange that cleared a latched fault. -/
def Clears (x : Exchange) : Prop := x.faultBefore ≠ .none ∧ x.faultAfter = .none

/-- A request that was answered with a response. -/
def Accepted (msgId : MsgId) (x : Exchange) : Prop :=
  x.frame.type = .request ∧ x.frame.msgId = msgId ∧ ∃ payload, x.reply = some (respond payload)

section Loop

variable {K H : Type} [LinkPort K] [Board H] {s : SafetyMcu K H}

/-- A motor active behind a frame was active before it or accepted in it, with no
fault latched. -/
theorem handleFrame_motor (hs : Supervised s) (frame : Frame) (now : Millis)
    (hactive : (s.handleFrame frame now).handler.motor.active = true) :
    s.fault = .none ∧ (s.handler.motor.active = true ∨
      Accepted MsgId.motorSetTarget (s.exchange frame now)) := by
  have hexec := handleFrame_executed s frame now
  have hold : s.handler.motor.active = true → s.fault = .none := by
    intro h
    by_contra hfault
    rw [(hs.latched hfault).1.not_active] at h
    cases h
  rcases CommandHandler.motor_of_executed hexec with ⟨hkept, -⟩ | ⟨htype, hset, hrunning, hreply⟩ |
    ⟨-, -, -, hstop⟩
  · rw [hkept] at hactive
    exact ⟨hold hactive, Or.inl hactive⟩
  · exact ⟨by simpa using hrunning, Or.inr ⟨htype, hset, hreply⟩⟩
  · rw [hstop, (MotorController.stop_stopped _).not_active] at hactive
    cases hactive

theorem handleFrame_pid (hs : Supervised s) (frame : Frame) (now : Millis)
    (henabled : (s.handleFrame frame now).handler.pid.enabled = true) :
    s.fault = .none ∧ (s.handler.pid.enabled = true ∨
      Accepted MsgId.heaterSetTarget (s.exchange frame now)) := by
  have hexec := handleFrame_executed s frame now
  have hold : s.handler.pid.enabled = true → s.fault = .none := by
    intro h
    by_contra hfault
    rw [(hs.latched hfault).2] at h
    cases h
  rcases CommandHandler.pid_of_executed hexec with ⟨hkept, -⟩ | ⟨htype, hset, hrunning, hreply⟩ | hoff
  · rw [hkept] at henabled
    exact ⟨hold henabled, Or.inl henabled⟩
  · exact ⟨by simpa using hrunning, Or.inr ⟨htype, hset, hreply⟩⟩
  · rw [hoff] at henabled
    cases henabled

/-- What is driven was requested after every clear of the history. -/
structure Requested (s : SafetyMcu K H) (log : List Exchange) : Prop where
  motor : s.handler.motor.active = true →
    AnsweredSince Clears (Accepted MsgId.motorSetTarget) log
  heater : s.handler.pid.enabled = true →
    AnsweredSince Clears (Accepted MsgId.heaterSetTarget) log

/-- Every clear of the history is a stop request. -/
def ClearedByStop (log : List Exchange) : Prop := ∀ x ∈ log, Clears x → IsStop x.frame

theorem exchange_clears {frame : Frame} {now : Millis} (h : Clears (s.exchange frame now)) :
    IsStop frame ∧ s.canClearFault = true := by
  obtain ⟨hbefore, hafter⟩ := h
  change (s.handleFrame frame now).fault = .none at hafter
  rw [handleFrame_fault] at hafter
  split at hafter
  · assumption
  · exact absurd hafter hbefore

/-- Step lemma: a frame keeps the history in order. -/
theorem handleFrame_requested (hs : Supervised s) {log : List Exchange} (h : Requested s log)
    (frame : Frame) (now : Millis) :
    Requested (s.handleFrame frame now) (log ++ [s.exchange frame now]) := by
  constructor
  · intro hactive
    obtain ⟨hfault, hsource⟩ := handleFrame_motor hs frame now hactive
    exact AnsweredSince.snoc (hsource.imp_left h.motor) fun hclears => hclears.1 hfault
  · intro henabled
    obtain ⟨hfault, hsource⟩ := handleFrame_pid hs frame now henabled
    exact AnsweredSince.snoc (hsource.imp_left h.heater) fun hclears => hclears.1 hfault

theorem handleFrame_clearedByStop {log : List Exchange} (h : ClearedByStop log)
    (frame : Frame) (now : Millis) : ClearedByStop (log ++ [s.exchange frame now]) := by
  intro x hx hclears
  rcases List.mem_append.mp hx with hx | hx
  · exact h x hx hclears
  · rw [List.mem_singleton] at hx
    subst hx
    exact (exchange_clears hclears).1

/-- What the frame loop that starts in `s` keeps of the history, `log` being the
frames of this tick. -/
structure Latched (s : SafetyMcu K H) (before : List Exchange) (t : SafetyMcu K H)
    (log : List Exchange) : Prop where
  supervised : Supervised t
  inputs : t.inputs = s.inputs
  tempSensorOk : t.tempSensorOk = s.tempSensorOk
  requested : Requested t (before ++ log)
  clearedByStop : ClearedByStop (before ++ log)
  fault : t.fault = s.fault ∨ s.canClearFault = true ∧ ∃ x ∈ log, IsStop x.frame

omit [LinkPort K] [Board H] in
theorem canClearFault_congr {t : SafetyMcu K H} (hfault : t.fault = s.fault)
    (hinputs : t.inputs = s.inputs) (hsensor : t.tempSensorOk = s.tempSensorOk) :
    t.canClearFault = s.canClearFault := by
  simp only [canClearFault, hfault, hinputs, hsensor]

/-- What the frame loop that starts in `s` makes of the latch. -/
structure LatchFrom (s t : SafetyMcu K H) (log : List Exchange) : Prop where
  inputs : t.inputs = s.inputs
  tempSensorOk : t.tempSensorOk = s.tempSensorOk
  cleared : s.canClearFault = true → (∃ x ∈ log, IsStop x.frame) → t.fault = .none
  kept : (s.canClearFault = true → ∀ x ∈ log, ¬ IsStop x.frame) → t.fault = s.fault

/-- Step lemma. -/
theorem LatchFrom.handleFrame {t : SafetyMcu K H} {log : List Exchange} (h : LatchFrom s t log)
    (frame : Frame) (now : Millis) :
    LatchFrom s (t.handleFrame frame now) (log ++ [t.exchange frame now]) := by
  refine ⟨h.inputs, h.tempSensorOk, fun hclear ⟨x, hx, hstop⟩ => ?_, fun hnone => ?_⟩
  · rw [handleFrame_fault]
    by_cases hearlier : ∃ x ∈ log, IsStop x.frame
    · rw [h.cleared hclear hearlier, ite_self]
    · have hkept := h.kept fun _ y hy hstop => hearlier ⟨y, hy, hstop⟩
      rcases List.mem_append.mp hx with hold | hnew
      · exact absurd ⟨x, hold, hstop⟩ hearlier
      · rw [List.mem_singleton.mp hnew] at hstop
        rw [if_pos]
        exact ⟨hstop, by rwa [canClearFault_congr hkept h.inputs h.tempSensorOk]⟩
  · have hkept := h.kept fun hclear y hy => hnone hclear y (List.mem_append_left _ hy)
    rw [handleFrame_fault, if_neg]
    · exact hkept
    · rintro ⟨hstop, hclear⟩
      rw [canClearFault_congr hkept h.inputs h.tempSensorOk] at hclear
      exact hnone hclear (t.exchange frame now) (by simp) hstop

omit [LinkPort K] [Board H] in
theorem LatchFrom.refl (s : SafetyMcu K H) : LatchFrom s s [] :=
  ⟨rfl, rfl, fun _ ⟨_, hx, _⟩ => absurd hx List.not_mem_nil, fun _ => rfl⟩

omit [LinkPort K] [Board H] in
theorem LatchFrom.setLink {t : SafetyMcu K H} {log : List Exchange} (h : LatchFrom s t log)
    (link : K) : LatchFrom s { t with link } log :=
  ⟨h.inputs, h.tempSensorOk, h.cleared, h.kept⟩

/-- Run lemma. -/
theorem frameStage_latchFrom (s : SafetyMcu K H) (now : Millis) :
    LatchFrom s (s.frameStage now).1 (s.frameStage now).2 := by
  refine pollFrames_keeps s now (LatchFrom s) _ ?_ ?_ [] (LatchFrom.refl s)
  · intro t link log h
    exact h.setLink link
  · intro t frame log h
    exact h.handleFrame frame now

omit [LinkPort K] [Board H] in
theorem LatchFrom.fault {t : SafetyMcu K H} {log : List Exchange} (h : LatchFrom s t log) :
    t.fault = s.fault ∨ s.canClearFault = true ∧ ∃ x ∈ log, IsStop x.frame := by
  by_cases hclear : s.canClearFault = true ∧ ∃ x ∈ log, IsStop x.frame
  · exact Or.inr hclear
  · exact Or.inl (h.kept fun hcan x hx hstop => hclear ⟨hcan, x, hx, hstop⟩)

/-- Step lemma. -/
theorem handleFrame_latched {before log : List Exchange} {t : SafetyMcu K H}
    (h : Latched s before t log) (hlatch : LatchFrom s t log) (frame : Frame) (now : Millis) :
    Latched s before (t.handleFrame frame now) (log ++ [t.exchange frame now]) := by
  refine ⟨handleFrame_supervised h.supervised frame now, h.inputs, h.tempSensorOk, ?_, ?_,
    (hlatch.handleFrame frame now).fault⟩
  · rw [← List.append_assoc]
    exact handleFrame_requested h.supervised h.requested frame now
  · rw [← List.append_assoc]
    exact handleFrame_clearedByStop h.clearedByStop frame now

theorem frameStage_latched {before : List Exchange} (hs : Supervised s)
    (hrequested : Requested s before) (hcleared : ClearedByStop before) (now : Millis) :
    Latched s before (s.frameStage now).1 (s.frameStage now).2 := by
  refine (pollFrames_keeps s now (fun t log => Latched s before t log ∧ LatchFrom s t log) _ ?_ ?_ []
    ⟨⟨hs, rfl, rfl, by simpa using hrequested, by simpa using hcleared, Or.inl rfl⟩,
      LatchFrom.refl s⟩).1
  · rintro t link log ⟨h, hlatch⟩
    exact ⟨⟨⟨h.supervised.latched, h.supervised.sensor, h.supervised.motor⟩, h.inputs,
      h.tempSensorOk, ⟨h.requested.motor, h.requested.heater⟩, h.clearedByStop, h.fault⟩,
      hlatch.setLink link⟩
  · rintro t frame log ⟨h, hlatch⟩
    exact ⟨handleFrame_latched h hlatch frame now, hlatch.handleFrame frame now⟩

/-! The stages around the loop drive nothing new. -/

omit [LinkPort K] in
theorem sampleStage_requested (hs : Supervised s) {log : List Exchange} (h : Requested s log) :
    Requested s.sampleStage log := by
  rcases hread : Board.readDeciCelsius s.handler.board with ⟨status | reading, board⟩
  · obtain ⟨hsuper, hsensor⟩ := sampleStage_error hs hread
    have hfault : s.sampleStage.fault ≠ .none := by
      rw [hsuper.sensor hsensor]
      decide
    obtain ⟨hmotor, hpid⟩ := hsuper.latched hfault
    constructor
    · intro hactive
      rw [hmotor.not_active] at hactive
      cases hactive
    · intro henabled
      rw [hpid] at henabled
      cases henabled
  · rw [sampleStage_ok hread]
    exact ⟨h.motor, h.heater⟩

theorem finishTick_requested (hs : Supervised s) {log : List Exchange} (h : Requested s log)
    (now : Millis) : Requested (s.finishTick now) log := by
  have hjudge := judge_supervised hs now
  have hfault : (s.judge now).driven = true → (s.judge now).fault = .none := by
    intro hdriven
    by_contra hfault
    rw [hjudge.not_driven hfault] at hdriven
    cases hdriven
  have hsame : (s.judge now).driven = true → s.judge now = s := fun hdriven =>
    (judge_none (hfault hdriven)).1
  unfold finishTick
  constructor
  · intro hactive
    rw [publishStage_handler, driveStage_motor] at hactive
    have hold : (s.judge now).handler.motor.active = true := by
      by_contra hrest
      rw [(MotorController.rest_of_inactive hjudge.motor (Bool.not_eq_true _ ▸ hrest)
        _).not_active] at hactive
      cases hactive
    rw [hsame (by simp only [driven, hold, Bool.true_or])] at hold
    exact h.motor hold
  · intro henabled
    rw [publishStage_handler] at henabled
    have hold : (s.judge now).handler.pid.enabled = true :=
      (driveStage_enabled (s.judge now)).symm.trans henabled
    rw [hsame (by simp only [driven, hold, Bool.or_true])] at hold
    exact h.heater hold

end Loop

variable {H : Type} [Board H]

/-- The history of a machine, and the latch over it. -/
structure Guarded (m : Machine H) : Prop where
  supervised : Supervised m.mcu
  requested : Requested m.mcu m.log
  clearedByStop : ClearedByStop m.log

/-- The frame loop of the tick that follows `m`. -/
theorem looped_latched {m : Machine H} (h : Guarded m) (input : TickInput H) :
    Latched (m.arrive input).sampleStage m.log
      (looped (m.arrive input) (now (m.clock + input.elapsed)))
      ((m.arrive input).exchanges (now (m.clock + input.elapsed))) := by
  have hs := arrive_supervised h.supervised input
  refine frameStage_latched (sampleStage_supervised hs) ?_ h.clearedByStop _
  exact sampleStage_requested hs ⟨h.requested.motor, h.requested.heater⟩

/-- Step lemma: a tick keeps the latch over the history. -/
theorem advance_guarded {m : Machine H} (h : Guarded m) (input : TickInput H) :
    Guarded (m.advance input) := by
  have hloop := looped_latched h input
  refine ⟨?_, ?_, ?_⟩
  · rw [advance_mcu]
    exact tick1ms_supervised (arrive_supervised h.supervised input) _
  · rw [advance_mcu, advance_log, tick1ms_finish]
    exact finishTick_requested hloop.supervised hloop.requested _
  · rw [advance_log]
    exact hloop.clearedByStop

theorem guarded_of_reachable {m : Machine H} (h : Reachable Booted Ticked m) : Guarded m := by
  refine h.keeps Guarded ?_ ?_
  · rintro m ⟨uart, board, clock, rfl⟩
    exact ⟨boot_supervised _ _ _, ⟨fun _ => answeredSince_nil, fun _ => answeredSince_nil⟩,
      fun x hx => by cases hx⟩
  · rintro m input m' hm rfl
    exact advance_guarded hm input

/-- The outputs of a latched processor are at rest. -/
theorem latched_at_rest {m : Machine H} (hs : Supervised m.mcu) (input : TickInput H)
    (hfault : (m.advance input).mcu.fault ≠ .none) :
    (m.advance input).mcu.handler.motor.Stopped ∧
      (m.advance input).mcu.handler.pid.enabled = false ∧ (m.advance input).mcu.powerW = 0 := by
  have hs := arrive_supervised hs input
  rw [advance_mcu] at hfault ⊢
  obtain ⟨hmotor, hpid⟩ := (tick1ms_supervised hs _).latched hfault
  exact ⟨hmotor, hpid, tick1ms_powerW_latched _ hfault⟩

/-- What cleared the latch in the tick that follows `m`. -/
theorem cleared_by_stop {m : Machine H} (h : Guarded m) (input : TickInput H)
    (hbefore : m.mcu.fault ≠ .none) (hafter : (m.advance input).mcu.fault = .none) :
    (∃ x ∈ (m.arrive input).exchanges (now (m.clock + input.elapsed)), IsStop x.frame) ∧
      ∃ reading, (Board.readDeciCelsius input.board).1 = .ok reading ∧
        (m.mcu.fault = .overtemp → toCelsius reading < kOvertempCutoffC) := by
  have hs := arrive_supervised h.supervised input
  have hloop := looped_latched h input
  rw [advance_mcu] at hafter
  obtain ⟨hsame, _, reading, hread, hinputs⟩ := tick1ms_unlatched hs hafter
  rw [tick1ms_fault, hsame] at hafter
  have hstart : (m.arrive input).sampleStage.fault = m.mcu.fault ∨
      (m.arrive input).sampleStage.fault = .sensorFailure := sampleStage_fault (m.arrive input)
  rcases hloop.fault with hkept | ⟨hclear, x, hx, hstop⟩
  · rw [hafter] at hkept
    rcases hstart with hstart | hstart
    · exact absurd (hkept.trans hstart).symm hbefore
    · rw [hstart] at hkept
      cases hkept
  · refine ⟨⟨x, hx, hstop⟩, reading, hread, fun hover => ?_⟩
    rw [hloop.inputs] at hinputs
    rcases hstart with hstart | hstart
    · simpa only [canClearFault, hstart, hover, hinputs, sampled, decide_eq_true_eq] using hclear
    · -- The sensor fault replaces another one only when the sensor cannot be read.
      rcases hboard : Board.readDeciCelsius (m.arrive input).handler.board with ⟨status | value, board⟩
      · rw [hboard] at hread
        cases hread
      · rw [sampleStage_ok hboard] at hstart
        have hover' : (m.arrive input).fault = .overtemp := hover
        rw [hover'] at hstart
        cases hstart

/-- The fault latch holds the outputs at rest, is cleared by a stop request alone and
for a cause that is gone, and what is driven was requested after the last clear. -/
theorem fault_latch {m : Machine H} (hreach : Reachable Booted Ticked m) (input : TickInput H) :
    let after := m.advance input
    (after.mcu.fault ≠ .none → after.mcu.handler.motor.Stopped ∧
        after.mcu.handler.pid.enabled = false ∧ after.mcu.powerW = 0) ∧
      (m.mcu.fault ≠ .none → after.mcu.fault = .none →
        (∃ x ∈ (m.arrive input).exchanges (now after.clock), IsStop x.frame) ∧
          ∃ reading, (Board.readDeciCelsius input.board).1 = .ok reading ∧
            (m.mcu.fault = .overtemp → toCelsius reading < 165)) ∧
      (∀ x ∈ after.log, Clears x → IsStop x.frame) ∧
      (after.mcu.handler.motor.active = true ∨ 0 < after.mcu.handler.motor.duty →
        AnsweredSince Clears (Accepted MsgId.motorSetTarget) after.log) ∧
      (after.mcu.handler.pid.enabled = true ∨ 0 < after.mcu.powerW →
        AnsweredSince Clears (Accepted MsgId.heaterSetTarget) after.log) := by
  have hm := guarded_of_reachable hreach
  have hafter := advance_guarded hm input
  refine ⟨latched_at_rest hm.supervised input, cleared_by_stop hm input, hafter.clearedByStop,
    fun hout => ?_, fun hout => ?_⟩
  · apply hafter.requested.motor
    rcases hout with hactive | hduty
    · exact hactive
    · rw [advance_mcu] at hduty ⊢
      exact tick1ms_active _ hduty
  · apply hafter.requested.heater
    rcases hout with henabled | hpower
    · exact henabled
    · rw [advance_mcu] at hpower ⊢
      exact (tick1ms_powerW _ hpower).2.1

/-! A processor whose temperature sensor fails in the first tick. -/

def unreadBoard : SimBoard SteadySensors where
  sensors := { reading := .error .hardwareFault }

def unreadMachine : Machine (SimBoard SteadySensors) :=
  ⟨.boot ⟨⟨fun _ len => len, 0, [], []⟩, {}, 0, [], 0⟩ unreadBoard (now 0), 0, [], none⟩

theorem fault_latch_unread : (unreadMachine.advance ⟨1, [], unreadBoard⟩).mcu.powerW = 0 :=
  ((fault_latch (Reachable.init ⟨_, unreadBoard, 0, rfl⟩) ⟨1, [], unreadBoard⟩).1
    (by decide +kernel)).2.2

end Culina.FaultLatch
