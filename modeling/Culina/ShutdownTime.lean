import Culina.RemoteCalls

/-!
The shutdown in time. In the simulator every command of the shutdown sequence is handled in the millisecond
behind it, so the controller needs three of its ticks to come to rest, and two more if a fault makes it
start over. From then on both drives are off.
-/
namespace Culina.ShutdownTime

open Wire Drives Ports Commands Safety SafetyMcu Supervision SerialLink WholeFrames Writer
open Lid Plant MainLoop Client McuClient Cooking CookingController Simulator Lockstep Device RemoteCalls Runs

/-! The drives of the safety processor. -/

inductive Drive where
  | heater
  | motor

namespace Drive

variable {H : Type}

/-- The command that sets a drive going, and the one that halts it. -/
def setId : Drive → MsgId
  | heater => MsgId.heaterSetTarget
  | motor => MsgId.motorSetTarget

def stopId : Drive → MsgId
  | heater => MsgId.heaterOff
  | motor => MsgId.motorStop

def Off (drive : Drive) (h : CommandHandler H) : Prop :=
  match drive with
  | heater => h.pid.enabled = false
  | motor => h.motor.Stopped

/-- The frame commands the drive to halt. -/
def Halts (drive : Drive) (frame : Frame) : Prop :=
  frame.type = .request ∧ frame.msgId = drive.stopId ∧ frame.payloadLen = 0

variable {drive : Drive}

theorem Off.board {h : CommandHandler H} (hoff : drive.Off h) (board : H) : drive.Off { h with board } := by
  cases drive <;> exact hoff

theorem off_of_stopped {h : CommandHandler H} (hmotor : h.motor.Stopped) (hpid : h.pid.enabled = false) :
    drive.Off h := by
  cases drive
  · exact hpid
  · exact hmotor

theorem off_enterFault {K : Type} (s : SafetyMcu K H) (code : FaultCode) : drive.Off (s.enterFault code).handler :=
  off_of_stopped (MotorController.stop_stopped _) rfl

variable [Board H] {h h' : CommandHandler H} {request : Frame} {state : Inputs} {faulted : Bool}
  {reply : Option Reply}

/-- Only its own command sets a drive going. -/
theorem Off.executed (hoff : drive.Off h)
    (hexec : CommandHandler.Executed h request state faulted reply h') (hid : request.msgId ≠ drive.setId) :
    drive.Off h' := by
  cases hexec with
  | motorRamped _ _ msgId _ _ _ _ | motorBurst _ _ msgId _ _ _ _ _ _ =>
    cases drive
    · exact hoff
    · exact absurd msgId hid
  | heaterSet _ _ msgId _ _ _ _ =>
    cases drive
    · exact absurd msgId hid
    · exact hoff
  | motorStopped _ _ _ =>
    cases drive
    · exact hoff
    · exact MotorController.stop_stopped _
  | heaterOff _ _ _ =>
    cases drive
    · rfl
    · exact hoff
  | ignored _ | refused _ _ | answered _ _ _ _ => exact hoff
  | tareRefused _ _ _ _ _ | tared _ _ _ _ _ _ _ | weighed _ _ _ _ _ | lidLocked _ _ _ _ _ | lidUnlocked _ _ _ _ _ =>
    cases drive <;> exact hoff

/-- A halt is always carried out, and says so. -/
theorem Halts.executed (hhalts : drive.Halts request)
    (hexec : CommandHandler.Executed h request state faulted reply h') :
    reply = some (respond []) ∧ drive.Off h' := by
  obtain ⟨htype, hid, hlen⟩ := hhalts
  cases drive with
  | heater =>
    change request.msgId = MsgId.heaterOff at hid
    cases hexec with
    | heaterOff _ _ _ => exact ⟨rfl, rfl⟩
    | ignored type => exact absurd htype type
    | refused _ inadmissible =>
      refine absurd ⟨fun _ => ?_, CommandHandler.Admissible.bare ?_ hlen⟩ inadmissible
      · exact Or.inr (Or.inl hid)
      · exact Or.inr (Or.inr (Or.inr (Or.inl hid)))
    | answered _ _ msgId _ =>
      rw [hid] at msgId
      exact absurd msgId (by decide)
    | motorRamped _ _ msgId | motorBurst _ _ msgId | motorStopped _ msgId | heaterSet _ _ msgId
    | tareRefused _ _ msgId | tared _ _ msgId | weighed _ _ msgId | lidLocked _ msgId | lidUnlocked _ msgId =>
      exact absurd (hid.symm.trans msgId) (by decide)
  | motor =>
    change request.msgId = MsgId.motorStop at hid
    cases hexec with
    | motorStopped _ _ _ => exact ⟨rfl, MotorController.stop_stopped _⟩
    | ignored type => exact absurd htype type
    | refused _ inadmissible =>
      refine absurd ⟨fun _ => ?_, CommandHandler.Admissible.bare ?_ hlen⟩ inadmissible
      · exact Or.inl hid
      · exact Or.inr (Or.inr (Or.inl hid))
    | answered _ _ msgId _ =>
      rw [hid] at msgId
      exact absurd msgId (by decide)
    | motorRamped _ _ msgId | motorBurst _ _ msgId | heaterOff _ msgId | heaterSet _ _ msgId
    | tareRefused _ _ msgId | tared _ _ msgId | weighed _ _ msgId | lidLocked _ msgId | lidUnlocked _ msgId =>
      exact absurd (hid.symm.trans msgId) (by decide)

end Drive

/-! The tick. -/

section Ticks

variable {H : Type} [Board H] {s : SafetyMcu Link H} {drive : Drive}

omit [Board H] in
theorem judge_off (hoff : drive.Off s.handler) (now : Millis) : drive.Off (s.judge now).handler := by
  have hinterlock : drive.Off s.interlockStage.handler := by
    unfold interlockStage
    split
    · exact Drive.off_enterFault _ _
    · exact hoff
  unfold judge linkStage
  split
  · exact Drive.off_enterFault _ _
  · exact hinterlock

omit [Board H] in
theorem driveStage_off (hs : Supervised s) (hoff : drive.Off s.handler) : drive.Off s.driveStage.handler := by
  cases drive with
  | heater => exact (driveStage_enabled s).trans hoff
  | motor =>
    change (s.handler.motor.enforceCap s.inputs.continuousCap).tick1ms.Stopped
    exact MotorController.rest_of_inactive hs.motor (MotorController.Stopped.not_active hoff) _

theorem sampleStage_off (hoff : drive.Off s.handler) : drive.Off s.sampleStage.handler := by
  rcases hread : Board.readDeciCelsius s.handler.board with ⟨status | reading, board⟩
  · rw [sampleStage_failed hread]
    dsimp only
    split
    · exact hoff.board board
    · exact Drive.off_enterFault _ _
  · rw [sampleStage_ok hread]
    exact hoff.board board

/-- In the frame loop a drive that is off stays off unless it is set going, and one that is halted is off
behind it. -/
theorem frameStage_off (s : SafetyMcu Link H) (now : Millis)
    (hidle : ∀ x ∈ (s.frameStage now).2, x.frame.msgId ≠ drive.setId)
    (hoff : drive.Off s.handler ∨ ∃ x ∈ (s.frameStage now).2, drive.Halts x.frame) :
    drive.Off (s.frameStage now).1.handler := by
  refine pollFrames_keeps s now (fun t log => (∀ x ∈ log, x.frame.msgId ≠ drive.setId) →
    (drive.Off s.handler ∨ ∃ x ∈ log, drive.Halts x.frame) → drive.Off t.handler) _
    (fun _ _ _ h => h) (fun t frame log h hlog hsome => ?_) [] (fun _ hstart => ?_) hidle hoff
  · have hexec := handleFrame_executed t frame now
    have hlater : ∀ x ∈ log, x.frame.msgId ≠ drive.setId := fun x hx => hlog x (List.mem_append_left _ hx)
    have hframe : frame.msgId ≠ drive.setId := hlog (t.exchange frame now) (by simp)
    rcases hsome with hbefore | ⟨x, hx, hhalts⟩
    · exact (h hlater (Or.inl hbefore)).executed hexec hframe
    · rcases List.mem_append.mp hx with hold | hnew
      · exact (h hlater (Or.inr ⟨x, hold, hhalts⟩)).executed hexec hframe
      · rw [List.mem_singleton.mp hnew] at hhalts
        exact (Drive.Halts.executed hhalts hexec).2
  · rcases hstart with hbefore | ⟨x, hx, -⟩
    · exact hbefore
    · exact absurd hx List.not_mem_nil

/-- So it is over the whole tick. -/
theorem tick1ms_off (hs : Supervised s) (now : Millis)
    (hidle : ∀ x ∈ s.exchanges now, x.frame.msgId ≠ drive.setId)
    (hoff : drive.Off s.handler ∨ ∃ x ∈ s.exchanges now, drive.Halts x.frame) :
    drive.Off (s.tick1ms now).handler := by
  have hlooped : drive.Off (looped s now).handler :=
    frameStage_off s.sampleStage now hidle (hoff.imp_left sampleStage_off)
  rw [tick1ms_eq, publishStage_handler]
  exact (driveStage_off (looped_judge_supervised hs now) (judge_off hlooped now)).board _

/-- A halt that is handled is answered by a response. -/
theorem exchanges_halts (s : SafetyMcu Link H) (now : Millis) :
    ∀ x ∈ s.exchanges now, drive.Halts x.frame → x.reply = some (respond []) := by
  refine pollFrames_keeps s.sampleStage now
    (fun _ log => ∀ x ∈ log, drive.Halts x.frame → x.reply = some (respond [])) _
    (fun _ _ _ h => h) (fun t frame log h x hx => ?_) [] (fun _ hx => absurd hx List.not_mem_nil)
  rcases List.mem_append.mp hx with hold | hnew
  · exact h x hold
  · rw [List.mem_singleton.mp hnew]
    exact fun hhalts => (Drive.Halts.executed hhalts (handleFrame_executed t frame now)).1

end Ticks

/-! What the client has asked for. -/

variable {P : Type} {s : SystemSim P} {frames : List Frame} {c : McuClient Link} {drive : Drive}

/-- The client waits for a drive to halt. -/
structure Asking (c : McuClient Link) (drive : Drive) : Prop where
  out : c.waiting = true
  msgId : c.pendingMsgId = drive.stopId
  payload : c.pendingPayload = []

/-- It has the answer. -/
structure Answered (c : McuClient Link) (drive : Drive) : Prop where
  free : c.waiting = false
  ready : c.responseReady = true
  type : c.response.type = .response
  msgId : c.response.msgId = drive.stopId
  status : c.lastCommandStatus = .ok

def Off (s : SystemSim P) (drive : Drive) : Prop := drive.Off s.rig.machine.mcu.handler

/-- The client waits for nothing that sets the drive going. -/
def Unasked (c : McuClient Link) (drive : Drive) : Prop := c.waiting = true → c.pendingMsgId ≠ drive.setId

inductive Commanded (s : SystemSim P) (drive : Drive) : Prop
  | asking (out : Asking s.app.mcu drive)
  | answered (taken : Answered s.app.mcu drive) (off : Off s drive)

theorem stopId_ne (drive drive' : Drive) : drive.stopId ≠ drive'.setId := by
  cases drive <;> cases drive' <;> decide

theorem Asking.unasked (h : Asking c drive) (drive' : Drive) : Unasked c drive' := by
  intro _
  rw [h.msgId]
  exact stopId_ne drive drive'

theorem Answered.unasked (h : Answered c drive) (drive' : Drive) : Unasked c drive' :=
  fun hout => Bool.noConfusion (h.free.symm.trans hout)

theorem Commanded.unasked (h : Commanded s drive) (drive' : Drive) : Unasked s.app.mcu drive' := by
  cases h with
  | asking out => exact out.unasked drive'
  | answered taken _ => exact taken.unasked drive'

theorem Asking.halts (h : Asking c drive) {frame : Frame} (hsame : content frame = content (asked c)) :
    drive.Halts frame := by
  have htype : frame.type = .request := congrArg Prod.fst hsame
  have hid : frame.msgId = c.pendingMsgId := congrArg (fun said => said.2.2.1) hsame
  have hlen : frame.payloadLen = c.pendingPayload.length := congrArg (fun said => said.2.2.2.1) hsame
  refine ⟨htype, hid.trans h.msgId, ?_⟩
  rw [hlen, h.payload]
  rfl

/-- What the next tick handles sets no drive going that the client has not asked for. -/
theorem Linked.handled_idle (h : Linked s frames) (hidle : Unasked s.app.mcu drive) :
    ∀ x ∈ handled s, x.frame.msgId ≠ drive.setId := by
  obtain ⟨-, -, hhandles⟩ := h.found
  have hping : ∀ seq, (ping seq).msgId ≠ drive.setId := by
    intro seq
    change MsgId.ping ≠ drive.setId
    cases drive <;> decide
  have hframes : ∀ f ∈ frames, f.msgId ≠ drive.setId := by
    cases h.client.outstanding with
    | idle _ => exact fun _ hf => absurd hf List.not_mem_nil
    | beat _ => exact List.forall_mem_singleton.mpr (hping _)
    | call out beats few _ =>
      refine List.forall_mem_append.mpr ⟨?_, List.forall_mem_singleton.mpr (hidle out)⟩
      rcases few with rfl | rfl
      · exact fun _ hf => absurd hf List.not_mem_nil
      · exact List.forall_mem_singleton.mpr (hping _)
  intro x hx
  obtain ⟨f, hf, hsaid⟩ := List.mem_map.mp
    (hhandles.same ▸ List.mem_map_of_mem (f := fun x : Exchange => content x.frame) hx)
  have hid : x.frame.msgId = f.msgId := congrArg (fun said => said.2.2.1) hsaid.symm
  rw [hid]
  exact hframes f hf

/-- The tick leaves a drive off, and halts one that it is asked to halt. -/
theorem Linked.ticked_off (h : Linked s frames) (hinStep : InStep s) (hidle : Unasked s.app.mcu drive)
    (hoff : Off s drive ∨ ∃ x ∈ handled s, drive.Halts x.frame) : drive.Off s.ticked.machine.mcu.handler := by
  have hsupervised : Supervised (found s) :=
    Machine.arrive_supervised hinStep.paced.sound.supervised _
  have hfound : Off s drive → drive.Off (found s).handler := fun hoff => hoff.board _
  rw [ticked_mcu]
  exact tick1ms_off hsupervised (soon s) (Linked.handled_idle h hidle) (hoff.imp_left hfound)

/-- Behind a tick and a poll a commanded drive is off, and the client has the answer. -/
theorem Linked.polled_answered (h : Linked s frames) (hinStep : InStep s) (hcommanded : Commanded s drive) :
    Answered s.polled.mcu drive ∧ drive.Off s.ticked.machine.mcu.handler := by
  have hnow := (pass_paced hinStep.paced hinStep.divider s.appToMcu).nowMs
  obtain ⟨⟨hfree, hreturned, hrested⟩, -, -⟩ := h.polled hnow
  have hticked := fun hoff => Linked.ticked_off h hinStep (hcommanded.unasked drive) hoff
  cases hcommanded with
  | asking out =>
    obtain ⟨hready, x, reply, honly, hasked, hreply, hresponse, hstatus⟩ := hreturned out.out
    have hx : x ∈ handled s := List.mem_of_mem_filter (honly ▸ List.mem_singleton_self x)
    have hhalts := out.halts hasked
    have hplain := exchanges_halts (found s) (soon s) x hx hhalts
    rw [hreply, Option.some.injEq] at hplain
    rw [hplain] at hresponse hstatus
    have htype : s.polled.mcu.response.type = .response := congrArg Prod.fst hresponse
    have hid : s.polled.mcu.response.msgId = s.app.mcu.pendingMsgId :=
      congrArg (fun said => said.2.2.1) hresponse
    exact ⟨⟨hfree, hready, htype, hid.trans out.msgId, hstatus⟩, hticked (Or.inr ⟨x, hx, hhalts⟩)⟩
  | answered taken off =>
    obtain ⟨hresponse, hready, hstatus⟩ := hrested taken.free
    refine ⟨⟨hfree, hready.trans taken.ready, ?_, ?_, hstatus.trans taken.status⟩, hticked (Or.inl off)⟩
    · rw [hresponse]
      exact taken.type
    · rw [hresponse]
      exact taken.msgId

/-! The controller. -/

inductive Phase where
  | opening
  | heater
  | motor
deriving DecidableEq

/-- How far the sequence is: which commands are sent and which are done. -/
structure InPhase (c : CookingController Link P) (phase : Phase) : Prop where
  heaterSent : c.shutdownHeaterSent = decide (phase ≠ .opening)
  heaterDone : c.shutdownHeaterDone = decide (phase = .motor)
  motorSent : c.shutdownMotorSent = decide (phase = .motor)
  motorDone : c.shutdownMotorDone = false

variable {app : CookingController Link P} {now : Millis}

/-- A free client over a link that takes all it is offered accepts every halt. -/
theorem request_asks (hclear : Clear c.link) (hfree : c.waiting = false) (hunready : c.responseReady = false)
    (now : Millis) (drive : Drive) : (c.request now drive.stopId []).1 = .ok ∧
      Asking (c.request now drive.stopId []).2 drive := by
  have hshort : ([] : List Byte).length ≤ kMaxPayload := Nat.zero_le _
  have hok : (c.request now drive.stopId []).1 = .ok :=
    (request_ok_iff c now _ _).mpr ⟨hfree, hunready, hshort, (send_clear hclear .request c.nextSeq _ hshort).1⟩
  refine ⟨hok, ?_⟩
  have hrequest := request_requested c now drive.stopId []
  rw [hok] at hrequest
  generalize (c.request now drive.stopId []).2 = c' at hrequest
  cases hrequest with
  | accepted _ => exact ⟨rfl, rfl, rfl⟩
  | unsent _ _ _ _ failed => exact absurd rfl failed
  | refused _ failed => exact absurd rfl failed

/-- The session goes on with these commands sent, and waits for the last of them. -/
structure Advances (app app' : CookingController Link P) (phase : Phase) (drive : Drive) : Prop where
  state : app'.state = app.state
  faultShutdown : app'.faultShutdown = app.faultShutdown
  pending : app'.pendingProgram = app.pendingProgram
  flags : InPhase app' phase
  asking : Asking app'.mcu drive

/-- The sequence opens with the heater. -/
theorem proceed_opening (app : CookingController Link P) (hflags : InPhase app .opening) (hclear : Clear app.mcu.link)
    (hfree : app.mcu.waiting = false) (hunready : app.mcu.responseReady = false) (now : Millis) :
    Advances app (app.proceed now) .heater .heater := by
  obtain ⟨hok, hasking⟩ := request_asks hclear hfree hunready now .heater
  obtain ⟨hsent, hdone, hmotorSent, hmotorDone⟩ := hflags
  change app.shutdownHeaterSent = false at hsent
  change app.shutdownHeaterDone = false at hdone
  have hproceed := proceed_proceeded app now
  generalize app.proceed now = app' at hproceed
  cases hproceed with
  | waits heater _ =>
    rcases heater hdone with sent | out
    · exact Bool.noConfusion (hsent.symm.trans sent)
    · exact Bool.noConfusion (hfree.symm.trans out)
  | heater _ _ _ => exact ⟨rfl, rfl, rfl, ⟨decide_eq_true hok, hdone, hmotorSent, hmotorDone⟩, hasking⟩
  | motor heater _ _ _ | begins _ heater _ _ _ _ | rests heater _ _ =>
    exact Bool.noConfusion (hdone.symm.trans heater)

/-- The motor follows. -/
theorem proceed_heaterDone (app : CookingController Link P)
    (hflags : InPhase { app with shutdownHeaterDone := false } .heater) (hheater : app.shutdownHeaterDone = true)
    (hclear : Clear app.mcu.link) (hfree : app.mcu.waiting = false) (hunready : app.mcu.responseReady = false)
    (now : Millis) : Advances app (app.proceed now) .motor .motor := by
  obtain ⟨hok, hasking⟩ := request_asks hclear hfree hunready now .motor
  obtain ⟨hsent, -, hmotorSent, hmotorDone⟩ := hflags
  change app.shutdownMotorSent = false at hmotorSent
  have hproceed := proceed_proceeded app now
  generalize app.proceed now = app' at hproceed
  cases hproceed with
  | waits _ motor =>
    rcases (motor hheater).2 with sent | out
    · exact Bool.noConfusion (hmotorSent.symm.trans sent)
    · exact Bool.noConfusion (hfree.symm.trans out)
  | heater pending _ _ => exact Bool.noConfusion (hheater.symm.trans pending)
  | motor _ _ _ _ => exact ⟨rfl, rfl, rfl, ⟨hsent, hheater, decide_eq_true hok, hmotorDone⟩, hasking⟩
  | begins _ _ motor _ _ _ | rests _ motor _ => exact Bool.noConfusion (hmotorDone.symm.trans motor)

/-- What ends the sequence: the pending program begins, or the session comes to rest. -/
inductive Ends (app : CookingController Link P) (now : Millis) : CookingController Link P → Prop
  | begins (program : P) (pending : app.pendingProgram = some program) :
      Ends app now (({ app with pendingProgram := none } : CookingController Link P).begin program now)
  | rests : Ends app now { app with state := if app.faultShutdown then .faulted else .done }

theorem proceed_done (app : CookingController Link P) (hheater : app.shutdownHeaterDone = true)
    (hmotor : app.shutdownMotorDone = true) (now : Millis) : Ends app now (app.proceed now) := by
  have hproceed := proceed_proceeded app now
  generalize app.proceed now = app' at hproceed
  cases hproceed with
  | waits _ motor => exact Bool.noConfusion (hmotor.symm.trans (motor hheater).1)
  | heater pending _ _ => exact Bool.noConfusion (hheater.symm.trans pending)
  | motor _ pending _ _ => exact Bool.noConfusion (hmotor.symm.trans pending)
  | begins program _ _ pending _ _ => exact Ends.begins program pending
  | rests _ _ _ => exact Ends.rests

/-! Its tick. -/

variable [Program Link P]

/-- What a tick starts from: its client is free, behind a poll. -/
structure Polls (app : CookingController Link P) : Prop where
  clear : Clear app.mcu.link
  free : app.mcu.waiting = false

/-- An alarm opens the sequence once more, for a session that ends faulted. -/
theorem tick10ms_restarts (hpolls : Polls app) (halarmed : app.Alarmed) (now : Millis) :
    let app' := app.tick10ms now
    app'.state = .faulted ∧ app'.faultShutdown = true ∧ app'.pendingProgram = none ∧ InPhase app' .heater ∧
      Asking app'.mcu .heater := by
  have hmcu : (app.sense.2.beginShutdown true).stepOta.mcu =
      ({ app.mcu with responseReady := false } : McuClient Link).clearCommandStatus := by
    change app.sense.2.mcu.clearCommandStatus = _
    rw [sense_mcu]
  have hopening := proceed_opening (app.sense.2.beginShutdown true).stepOta ⟨rfl, rfl, rfl, rfl⟩
    (by rw [hmcu]; exact ⟨hpolls.clear.takes, hpolls.clear.txBuffer, hpolls.clear.txOffset⟩)
    (by rw [hmcu]; exact hpolls.free) (by rw [hmcu]; rfl) now
  dsimp only
  rw [tick10ms_alarmed halarmed]
  exact ⟨hopening.state, hopening.faultShutdown, hopening.pending, hopening.flags, hopening.asking⟩

/-- The controller behind the first part of its tick, with its response taken. -/
def sensed (app : CookingController Link P) : CookingController Link P := app.sense.2.stepOta

omit [Program Link P] in
theorem sensed_mcu (app : CookingController Link P) :
    (sensed app).mcu = { app.mcu with responseReady := false } := sense_mcu app

omit [Program Link P] in
theorem Polls.sensed (h : Polls app) : Clear (sensed app).mcu.link ∧ (sensed app).mcu.waiting = false ∧
    (sensed app).mcu.responseReady = false := by
  rw [sensed_mcu]
  exact ⟨h.clear, h.free, rfl⟩

omit [Program Link P] in
theorem Answered.sense {drive : Drive} (h : Answered app.mcu drive) :
    app.sense.1 = some app.mcu.response ∧ (ShutdownTime.sensed app).mcu.lastCommandStatus = .ok := by
  rw [sense_fst, if_pos h.ready, sensed_mcu]
  exact ⟨rfl, h.status⟩

theorem tick10ms_sequence (hquiet : ¬ app.Alarmed) (hstate : app.state = .stopping ∨ app.state = .faulted)
    (now : Millis) : app.tick10ms now = (((sensed app).acknowledge app.sense.1).rearm).proceed now := by
  rw [tick10ms_quiet hquiet]
  exact advance_stopping (c := sensed app) hstate _ now

theorem tick10ms_opens (hpolls : Polls app) (hquiet : ¬ app.Alarmed)
    (hstate : app.state = .stopping ∨ app.state = .faulted) (hflags : InPhase app .opening) (now : Millis) :
    Advances app (app.tick10ms now) .heater .heater := by
  have hsent : (sensed app).shutdownHeaterSent = false := hflags.heaterSent
  have hmotorSent : (sensed app).shutdownMotorSent = false := hflags.motorSent
  obtain ⟨hclear, hfree, hunready⟩ := hpolls.sensed
  have hrearm := rearm_rearmed (sensed app)
  rw [tick10ms_sequence hquiet hstate, acknowledge_unsent hsent hmotorSent]
  generalize (sensed app).rearm = app' at hrearm
  cases hrearm with
  | none _ =>
    obtain ⟨hsame, hfault, hpending, hphase, hasking⟩ := proceed_opening (sensed app)
      ⟨hflags.heaterSent, hflags.heaterDone, hflags.motorSent, hflags.motorDone⟩ hclear hfree hunready now
    exact ⟨hsame, hfault, hpending, hphase, hasking⟩
  | heater _ _ =>
    obtain ⟨hsame, hfault, hpending, hphase, hasking⟩ := proceed_opening
      { sensed app with mcu := (sensed app).mcu.clearCommandStatus, shutdownHeaterSent := false }
      ⟨rfl, hflags.heaterDone, hflags.motorSent, hflags.motorDone⟩
      ⟨hclear.takes, hclear.txBuffer, hclear.txOffset⟩ hfree hunready now
    exact ⟨hsame, hfault, hpending, hphase, hasking⟩
  | motor _ heater _ | late _ heater _ => exact Bool.noConfusion (hflags.heaterDone.symm.trans heater)

theorem tick10ms_heaterDone (hpolls : Polls app) (hquiet : ¬ app.Alarmed)
    (hstate : app.state = .stopping ∨ app.state = .faulted) (hflags : InPhase app .heater)
    (hanswered : Answered app.mcu .heater) (now : Millis) :
    Advances app (app.tick10ms now) .motor .motor := by
  obtain ⟨hclear, hfree, hunready⟩ := hpolls.sensed
  obtain ⟨hresponse, hok⟩ := hanswered.sense
  have hack : (sensed app).acknowledge app.sense.1 = { sensed app with shutdownHeaterDone := true } := by
    rw [hresponse]
    change (if app.mcu.response.type = .response then _ else _) = _
    rw [if_pos hanswered.type, if_pos ⟨hflags.heaterSent, hflags.heaterDone, hanswered.msgId⟩]
  rw [tick10ms_sequence hquiet hstate, hack, rearm_of_ok (c := { sensed app with shutdownHeaterDone := true }) hok]
  obtain ⟨hsame, hfault, hpending, hphase, hasking⟩ := proceed_heaterDone
    { sensed app with shutdownHeaterDone := true }
    ⟨hflags.heaterSent, rfl, hflags.motorSent, hflags.motorDone⟩ rfl hclear hfree hunready now
  exact ⟨hsame, hfault, hpending, hphase, hasking⟩

theorem tick10ms_motorDone (hquiet : ¬ app.Alarmed)
    (hstate : app.state = .stopping ∨ app.state = .faulted) (hflags : InPhase app .motor)
    (hanswered : Answered app.mcu .motor) (now : Millis) :
    Ends { sensed app with shutdownMotorDone := true } now (app.tick10ms now) := by
  obtain ⟨hresponse, hok⟩ := hanswered.sense
  have hheater : app.shutdownHeaterDone = true := hflags.heaterDone
  have hack : (sensed app).acknowledge app.sense.1 = { sensed app with shutdownMotorDone := true } := by
    rw [hresponse]
    change (if app.mcu.response.type = .response then _ else _) = _
    rw [if_pos hanswered.type, if_neg fun h => Bool.noConfusion (hheater.symm.trans h.2.1),
      if_pos ⟨hflags.motorSent, hflags.motorDone, hanswered.msgId⟩]
  rw [tick10ms_sequence hquiet hstate, hack, rearm_of_ok (c := { sensed app with shutdownMotorDone := true }) hok]
  exact proceed_done { sensed app with shutdownMotorDone := true } hheater rfl now

/-! The simulator. -/

omit [Program Link P] in
theorem Linked.polls (h : Linked s frames) (hinStep : InStep s) : Polls s.polled := by
  obtain ⟨hpolled, -, more, hmore, -⟩ := h.polled (pass_paced hinStep.paced hinStep.divider s.appToMcu).nowMs
  exact ⟨hmore.client.clear, hpolled.free⟩

theorem stepMs_early (h : s.appDivider + 1 < 10) : s.stepMs = uncontrolled s := by
  unfold SystemSim.stepMs
  rw [if_neg (not_le.mpr h)]
  rfl

/-- In every tenth millisecond the controller has its tick. -/
theorem stepMs_late (h : 10 ≤ s.appDivider + 1) :
    s.stepMs.app = s.polled.tick10ms s.ticked.board.sensors.nowMs ∧ s.stepMs.appDivider = 0 := by
  unfold SystemSim.stepMs
  rw [if_pos h]
  exact ⟨rfl, rfl⟩

/-- The sequence under way, every command of it answered at once. -/
structure Shutting (s : SystemSim P) (phase : Phase) : Prop where
  state : s.app.state = .stopping ∨ s.app.state = .faulted
  flags : InPhase s.app phase
  heater : phase = .heater → Commanded s .heater
  motor : phase = .motor → Commanded s .motor ∧ Off s .heater

omit [Program Link P] in
/-- A sequence that has sent nothing yet is under way. -/
theorem shutting_opening (hstate : s.app.state = .stopping) (hflags : InPhase s.app .opening) :
    Shutting s .opening :=
  ⟨Or.inl hstate, hflags, fun h => Phase.noConfusion h, fun h => Phase.noConfusion h⟩

/-- The session is over, and both drives are off. -/
structure Calm (s : SystemSim P) : Prop where
  state : s.app.state = .done ∨ s.app.state = .faulted
  faulted : s.app.state = .faulted → s.app.faultShutdown = true
  off : ∀ drive, Off s drive
  unasked : ∀ drive, Unasked s.app.mcu drive

/-- A millisecond without the controller. -/
theorem Shutting.early {phase : Phase} (h : Shutting s phase) (hlinked : Linked s frames) (hinStep : InStep s)
    (hearly : s.appDivider + 1 < 10) : Shutting s.stepMs phase := by
  rw [stepMs_early hearly]
  refine ⟨h.state, ⟨h.flags.heaterSent, h.flags.heaterDone, h.flags.motorSent, h.flags.motorDone⟩, ?_, ?_⟩
  · intro hphase
    obtain ⟨hanswered, hoff⟩ := Linked.polled_answered hlinked hinStep (h.heater hphase)
    exact Commanded.answered hanswered hoff
  · intro hphase
    obtain ⟨hcommanded, hheater⟩ := h.motor hphase
    obtain ⟨hanswered, hoff⟩ := Linked.polled_answered hlinked hinStep hcommanded
    exact ⟨Commanded.answered hanswered hoff,
      Linked.ticked_off hlinked hinStep (hcommanded.unasked .heater) (Or.inl hheater)⟩

/-- What the tick of the controller makes of the sequence. -/
inductive Goes (s : SystemSim P) : Phase → Prop
  | opens (h : Shutting s.stepMs .heater) (state : s.stepMs.app.state = s.app.state)
      (pending : s.stepMs.app.pendingProgram = s.app.pendingProgram) : Goes s .opening
  | turns (h : Shutting s.stepMs .motor) (state : s.stepMs.app.state = s.app.state)
      (pending : s.stepMs.app.pendingProgram = s.app.pendingProgram) : Goes s .heater
  | rests (h : Calm s.stepMs) : Goes s .motor
  | begins (program : P) (pending : s.app.pendingProgram = some program)
      (state : s.stepMs.app.state = .running) (begun : s.stepMs.app.program = some program)
      (started : s.stepMs.app.startedMs = s.ticked.board.sensors.nowMs) : Goes s .motor

theorem Shutting.late {phase : Phase} (h : Shutting s phase) (hlinked : Linked s frames) (hinStep : InStep s)
    (hlate : 10 ≤ s.appDivider + 1) (hquiet : ¬ s.polled.Alarmed) : Goes s phase := by
  obtain ⟨happ, -⟩ := stepMs_late hlate
  have hpolls := Linked.polls hlinked hinStep
  have hstate : s.polled.state = .stopping ∨ s.polled.state = .faulted := h.state
  have hflags : InPhase s.polled phase :=
    ⟨h.flags.heaterSent, h.flags.heaterDone, h.flags.motorSent, h.flags.motorDone⟩
  have hmachine := stepMs_machine s
  generalize hnow : s.ticked.board.sensors.nowMs = now at happ
  cases phase with
  | opening =>
    obtain ⟨hsame, -, hpending, hphase, hasking⟩ := tick10ms_opens hpolls hquiet hstate hflags now
    rw [← happ] at hsame hpending hphase hasking
    refine Goes.opens ⟨hsame ▸ h.state, hphase, fun _ => Commanded.asking hasking, fun hother => ?_⟩ hsame hpending
    exact Phase.noConfusion hother
  | heater =>
    obtain ⟨hanswered, hoff⟩ := Linked.polled_answered hlinked hinStep (h.heater rfl)
    obtain ⟨hsame, -, hpending, hphase, hasking⟩ := tick10ms_heaterDone hpolls hquiet hstate hflags hanswered now
    rw [← happ] at hsame hpending hphase hasking
    refine Goes.turns ⟨hsame ▸ h.state, hphase, fun hother => Phase.noConfusion hother,
      fun _ => ⟨Commanded.asking hasking, ?_⟩⟩ hsame hpending
    rw [Off, hmachine]
    exact hoff
  | motor =>
    obtain ⟨hcommanded, hheater⟩ := h.motor rfl
    obtain ⟨hanswered, hmotorOff⟩ := Linked.polled_answered hlinked hinStep hcommanded
    have hheaterOff := Linked.ticked_off hlinked hinStep (hcommanded.unasked .heater) (Or.inl hheater)
    have hends := tick10ms_motorDone hquiet hstate hflags hanswered now
    rw [← happ] at hends
    generalize hafter : s.stepMs.app = app at hends
    cases hends with
    | begins program pending =>
      exact Goes.begins program pending (by rw [hafter]; rfl) (by rw [hafter]; rfl) (by rw [hafter, hnow]; rfl)
    | rests =>
      refine Goes.rests ⟨?_, ?_, ?_, ?_⟩
      · rw [hafter]
        dsimp only
        split
        · exact Or.inr rfl
        · exact Or.inl rfl
      · rw [hafter]
        dsimp only
        intro hfaulted
        by_contra hplain
        rw [if_neg hplain] at hfaulted
        cases hfaulted
      · intro drive
        rw [Off, hmachine]
        cases drive
        · exact hheaterOff
        · exact hmotorOff
      · intro drive hout
        rw [hafter] at hout
        exact Bool.noConfusion (hpolls.sensed.2.1.symm.trans hout)

/-- An alarm starts it over. -/
theorem stepMs_alarmed (hlinked : Linked s frames) (hinStep : InStep s) (hlate : 10 ≤ s.appDivider + 1)
    (halarmed : s.polled.Alarmed) : Shutting s.stepMs .heater ∧ s.stepMs.app.state = .faulted ∧
      s.stepMs.app.faultShutdown = true ∧ s.stepMs.app.pendingProgram = none ∧
      Asking s.stepMs.app.mcu .heater := by
  obtain ⟨happ, -⟩ := stepMs_late hlate
  obtain ⟨hstate, hfault, hpending, hflags, hasking⟩ := tick10ms_restarts (Linked.polls hlinked hinStep) halarmed
    s.ticked.board.sensors.nowMs
  rw [← happ] at hstate hfault hpending hflags hasking
  exact ⟨⟨Or.inr hstate, hflags, fun _ => Commanded.asking hasking, fun hother => Phase.noConfusion hother⟩,
    hstate, hfault,
    hpending, hasking⟩

omit [Program Link P] in
/-- A halt is all that a free client asks for by it. -/
theorem request_unasked (hfree : c.waiting = false) (now : Millis) (drive drive' : Drive) :
    Unasked (c.request now drive.stopId []).2 drive' := by
  intro hout
  rw [(waiting_of_request_ok (request_ok_of_waiting hfree hout)).2]
  exact stopId_ne drive drive'

/-- A session that is over stays over; an alarm makes the controller halt both drives once more. -/
theorem Calm.stepMs (h : Calm s) (hlinked : Linked s frames) (hinStep : InStep s) : Calm s.stepMs := by
  have hpolls := Linked.polls hlinked hinStep
  have hoff : ∀ drive, Off s.stepMs drive := by
    intro drive
    rw [Off, stepMs_machine]
    exact Linked.ticked_off hlinked hinStep (h.unasked drive) (Or.inl (h.off drive))
  rcases Nat.lt_or_ge (s.appDivider + 1) 10 with hearly | hlate
  · have hsame := stepMs_early hearly
    generalize s.stepMs = s' at hsame hoff
    subst hsame
    exact ⟨h.state, h.faulted, hoff, fun drive hout => Bool.noConfusion (hpolls.free.symm.trans hout)⟩
  · by_cases halarmed : s.polled.Alarmed
    · obtain ⟨-, hstate, hfault, -, hasking⟩ := stepMs_alarmed hlinked hinStep hlate halarmed
      exact ⟨Or.inr hstate, fun _ => hfault, hoff, fun drive => hasking.unasked drive⟩
    · obtain ⟨happ, -⟩ := stepMs_late hlate
      have hfree := hpolls.sensed.2.1
      generalize s.ticked.board.sensors.nowMs = now at happ
      rcases h.state with hdone | hfaulted
      · have hrests : s.polled.tick10ms now = sensed s.polled := by
          rw [tick10ms_quiet halarmed]
          have hstate : (sensed s.polled).state = .done := hdone
          change (sensed s.polled).advance _ _ = _
          simp [advance, hstate]
        rw [hrests] at happ
        refine ⟨?_, ?_, hoff, ?_⟩
        · rw [happ]
          exact Or.inl hdone
        · intro hfaulted
          rw [happ] at hfaulted
          exact SessionState.noConfusion (hdone.symm.trans hfaulted)
        · intro drive hout
          rw [happ] at hout
          exact Bool.noConfusion (hfree.symm.trans hout)
      · have hsequence := tick10ms_sequence halarmed (Or.inr hfaulted) now
        rw [← happ] at hsequence
        have hack := acknowledge_acknowledged (sensed s.polled) s.polled.sense.1
        generalize (sensed s.polled).acknowledge s.polled.sense.1 = acked at hack hsequence
        have hacked : acked.state = .faulted ∧ acked.faultShutdown = true ∧ acked.mcu.waiting = false := by
          cases hack <;> exact ⟨hfaulted, h.faulted hfaulted, hfree⟩
        have hrearm := rearm_rearmed acked
        generalize acked.rearm = armed at hrearm hsequence
        have harmed : armed.state = .faulted ∧ armed.faultShutdown = true ∧ armed.mcu.waiting = false := by
          cases hrearm <;> exact hacked
        obtain ⟨hstate, hfault, hidle⟩ := harmed
        have hproceed := proceed_proceeded armed now
        rw [← hsequence] at hproceed
        generalize hafter : s.stepMs.app = app' at hproceed
        have hclose : (app'.state = .done ∨ app'.state = .faulted) →
            (app'.state = .faulted → app'.faultShutdown = true) → (∀ drive, Unasked app'.mcu drive) →
            Calm s.stepMs := by
          subst hafter
          exact fun hstate hfaulted hunasked => ⟨hstate, hfaulted, hoff, hunasked⟩
        cases hproceed with
        | waits _ _ =>
          exact hclose (Or.inr hstate) (fun _ => hfault) fun _ hout => Bool.noConfusion (hidle.symm.trans hout)
        | heater _ _ _ => exact hclose (Or.inr hstate) (fun _ => hfault) (request_unasked hidle now .heater)
        | motor _ _ _ _ => exact hclose (Or.inr hstate) (fun _ => hfault) (request_unasked hidle now .motor)
        | begins _ _ _ _ _ unfaulted => exact Bool.noConfusion (hfault.symm.trans unfaulted)
        | rests _ _ _ =>
          refine hclose (Or.inr ?_) (fun _ => hfault) fun _ hout => Bool.noConfusion (hidle.symm.trans hout)
          dsimp only
          rw [if_pos hfault]

end Culina.ShutdownTime
