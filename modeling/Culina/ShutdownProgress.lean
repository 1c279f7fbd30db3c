import Culina.Sessions
import Culina.Packets

/-!
The shutdown sequence against requests past the controller. The controller learns
that its command failed from the one status the client keeps, and an accepted direct
request resets that status: in between, the failure is lost. As long as no direct
request takes the place of an outstanding shutdown command, the sequence goes on.
-/
namespace Culina.ShutdownProgress

open Wire Ports Client McuClient Cooking CookingController Sessions Runs

variable {K P : Type}

/-- A shutdown that is not finished. -/
def InShutdown (c : CookingController K P) : Prop :=
  c.state = .stopping ∨ (c.state = .faulted ∧ c.shutdownMotorDone = false)

/-- The command is marked sent but not done. -/
def Awaits (c : CookingController K P) (id : MsgId) : Prop :=
  (id = MsgId.heaterOff ∧ c.shutdownHeaterSent = true ∧ c.shutdownHeaterDone = false) ∨
    (id = MsgId.motorStop ∧ c.shutdownMotorSent = true ∧ c.shutdownMotorDone = false)

variable [LinkPort K] [Program K P]

/-- The command is done; with the last one a session may begin and reset the flags. -/
def Completed (c : CookingController K P) (id : MsgId) : Prop :=
  (id = MsgId.heaterOff ∧ c.shutdownHeaterDone = true) ∨
    (id = MsgId.motorStop ∧ (c.shutdownMotorDone = true ∨ c.state = .running))

/-- The command has been requested of a client that was free to send it. -/
def Resent (c : CookingController K P) (now : Millis) (id : MsgId) : Prop :=
  ∃ client : McuClient K, client.waiting = false ∧ client.responseReady = false ∧
    c.mcu = (client.request now id []).2

/-- An outstanding command is awaited, answered or known to have failed; in the last two
cases the next tick completes it, sends it again or begins again with the heater. -/
structure Unstuck (c : CookingController K P) (id : MsgId) : Prop where
  attended : c.mcu.waiting = true ∨ c.mcu.responseReady = true ∨ c.mcu.lastCommandStatus ≠ .ok
  progress : c.mcu.waiting = false → ∀ now, Completed (c.tick10ms now) id ∨
    Resent (c.tick10ms now) now id ∨ Resent (c.tick10ms now) now MsgId.heaterOff

/-- A direct request accepted while a shutdown command is outstanding is that command. -/
def Considerate (c : CookingController K P) (event : AppEvent K P) : Prop :=
  ∀ now request, event = .direct now request → c.mcu.Accepts request.msgId request.payload →
    ∀ id, Awaits c id → request.msgId = id

/-! What keeps the sequence alive. -/

/-- The client answers for the command: it waits for the answer, holds it, or has failed. -/
def Attended (c : McuClient K) (id : MsgId) : Prop :=
  (c.waiting = true ∧ c.pendingMsgId = id) ∨
    (c.responseReady = true ∧ c.response.type = .response ∧ c.response.msgId = id) ∨
    c.lastCommandStatus ≠ .ok

structure Alive (c : CookingController K P) : Prop where
  coherent : Coherent c.mcu
  inOrder : c.InOrder
  resting : c.state ≠ .stopping → c.state ≠ .faulted → ∀ id, ¬ Awaits c id
  attended : ∀ id, Awaits c id → Attended c.mcu id

theorem attended_poll {c : McuClient K} {id : MsgId} (hcoherent : Coherent c) (h : Attended c id)
    (now : Millis) : Attended (c.poll now) id := by
  refine (poll_keeps (fun c => Coherent c ∧ Attended c id) c now ?_ (fun _ h => h) ?_ ?_
    ⟨hcoherent, h⟩).2
  · rintro c c' ⟨hcoherent, h⟩ htimed
    refine ⟨coherent_timed hcoherent htimed, ?_⟩
    cases htimed with
    | quiet early => exact h
    | gaveUp waiting => exact Or.inr (Or.inr (by simp [giveUp]))
    | unsent waiting early first failed => exact h
    | retried waiting early first sent => exact h
  · rintro c frame c' ⟨hcoherent, h⟩ hreceived
    refine ⟨coherent_received hcoherent hreceived, ?_⟩
    cases hreceived with
    | sample type => exact h
    | fault type => exact h
    | answer found =>
      obtain ⟨htype, hwaiting, hmsgId, -⟩ := found
      obtain ⟨hready, hok⟩ := hcoherent hwaiting
      -- a waiting client neither holds an answer nor reports a failure
      rcases h with ⟨-, hpending⟩ | ⟨hheld, -⟩ | hfailed
      · rcases htype with htype | htype
        · exact Or.inr (Or.inl ⟨rfl, htype, hmsgId.trans hpending⟩)
        · exact Or.inr (Or.inr (by simp [htype]))
      · rw [hready] at hheld
        cases hheld
      · exact absurd hok hfailed
    | ignored stray => exact h
  · rintro c c' ⟨hcoherent, h⟩ hbeaten
    refine ⟨coherent_beaten hcoherent hbeaten, ?_⟩
    cases hbeaten with
    | quiet => exact h
    | unsent idle => exact h
    | sent idle sent => exact h

/-- A request keeps what it does not replace. -/
theorem attended_request {c : McuClient K} {id : MsgId} (h : Attended c id) (now : Millis)
    (id' : MsgId) (payload : List Byte) (hsame : c.Accepts id' payload → id' = id) :
    Attended (c.request now id' payload).2 id := by
  have hrequest := request_requested c now id' payload
  generalize (c.request now id' payload).1 = status at hrequest
  generalize (c.request now id' payload).2 = c' at hrequest
  cases hrequest with
  | accepted accepts => exact Or.inl ⟨rfl, hsame accepts⟩
  | unsent _ _ _ _ _ => exact h
  | refused _ _ => exact h

/-! The tick. -/

omit [LinkPort K] [Program K P] in
theorem awaits_beginShutdown (c : CookingController K P) (faulted : Bool) (id : MsgId) :
    ¬ Awaits (c.beginShutdown faulted) id := by
  simp [Awaits, beginShutdown]

omit [LinkPort K] [Program K P] in
theorem coherent_clearCommandStatus {c : McuClient K} (h : Coherent c) :
    Coherent c.clearCommandStatus := fun hwaiting => ⟨(h hwaiting).1, rfl⟩

/-- The controller while the answer `response` is in the hands of the tick. -/
structure Sensed (c : CookingController K P) (response : Option Frame) : Prop where
  taken : c.mcu.responseReady = false
  coherent : Coherent c.mcu
  inOrder : c.InOrder
  resting : c.state ≠ .stopping → c.state ≠ .faulted → ∀ id, ¬ Awaits c id
  attended : ∀ id, Awaits c id → (c.mcu.waiting = true ∧ c.mcu.pendingMsgId = id) ∨
    (∃ answer, response = some answer ∧ answer.type = .response ∧ answer.msgId = id) ∨
      c.mcu.lastCommandStatus ≠ .ok

omit [LinkPort K] [Program K P] in
theorem sensed_of_idle {c : CookingController K P} {response : Option Frame}
    (taken : c.mcu.responseReady = false) (coherent : Coherent c.mcu) (inOrder : c.InOrder)
    (idle : ∀ id, ¬ Awaits c id) : Sensed c response :=
  ⟨taken, coherent, inOrder, fun _ _ => idle, fun id hawaits => absurd hawaits (idle id)⟩

omit [LinkPort K] [Program K P] in
theorem Alive.sense {c : CookingController K P} (h : Alive c) : Sensed c.sense.2 c.sense.1 := by
  have htaken := sense_mcu c
  refine ⟨by rw [htaken], ?_, ⟨h.inOrder.heaterDone, h.inOrder.motorSent, h.inOrder.motorDone⟩, h.resting, ?_⟩
  · rw [htaken]
    intro hwaiting
    exact ⟨rfl, (h.coherent hwaiting).2⟩
  · intro id hawaits
    rw [htaken, sense_fst]
    rcases h.attended id hawaits with hwaiting | ⟨hready, hanswer⟩ | hfailed
    · exact Or.inl hwaiting
    · rw [if_pos hready]
      exact Or.inr (Or.inl ⟨_, rfl, hanswer⟩)
    · exact Or.inr (Or.inr hfailed)

omit [LinkPort K] [Program K P] in
theorem Sensed.react {c : CookingController K P} {response : Option Frame} (h : Sensed c response) :
    Sensed c.react response := by
  unfold CookingController.react
  split
  · exact sensed_of_idle h.taken (coherent_clearCommandStatus h.coherent)
      (inOrder_beginShutdown c true) (awaits_beginShutdown c true)
  · exact h

omit [LinkPort K] [Program K P] in
theorem Sensed.stepOta {c : CookingController K P} {response : Option Frame} (h : Sensed c response) :
    Sensed c.stepOta response :=
  ⟨h.taken, h.coherent, ⟨h.inOrder.heaterDone, h.inOrder.motorSent, h.inOrder.motorDone⟩, h.resting, h.attended⟩

omit [LinkPort K] [Program K P] in
theorem Sensed.acknowledge {c : CookingController K P} {response : Option Frame}
    (h : Sensed c response) : Sensed (c.acknowledge response) none := by
  have hack := acknowledge_acknowledged c response
  have hinOrder := h.inOrder.acknowledge response
  generalize c.acknowledge response = c' at hack hinOrder
  cases hack with
  | heater answer taken type msgId sent pending =>
    have hmotor := h.inOrder.motorUnsent pending
    have hnone : ∀ id, ¬ Awaits { c with shutdownHeaterDone := true } id := by
      rintro id (⟨-, -, hdone⟩ | ⟨-, hsent, -⟩)
      · cases hdone
      · rw [hmotor] at hsent
        cases hsent
    exact sensed_of_idle h.taken h.coherent hinOrder hnone
  | motor answer taken type msgId sent pending =>
    have hheater := h.inOrder.motorSent sent
    have hnone : ∀ id, ¬ Awaits { c with shutdownMotorDone := true } id := by
      rintro id (⟨-, -, hdone⟩ | ⟨-, -, hdone⟩)
      · rw [hheater] at hdone
        cases hdone
      · cases hdone
    exact sensed_of_idle h.taken h.coherent hinOrder hnone
  | other heater motor =>
    refine ⟨h.taken, h.coherent, h.inOrder, h.resting, ?_⟩
    intro id hawaits
    rcases h.attended id hawaits with hwaiting | ⟨answer, htaken, htype, hid⟩ | hfailed
    · exact Or.inl hwaiting
    · rcases hawaits with ⟨rfl, hsent, hpending⟩ | ⟨rfl, hsent, hpending⟩
      · have := heater answer htaken htype hid hsent
        rw [hpending] at this
        cases this
      · have := motor answer htaken htype hid hsent
        rw [hpending] at this
        cases this
    · exact Or.inr (Or.inr hfailed)

omit [LinkPort K] [Program K P] in
/-- After a failure has been dealt with, an outstanding command is awaited. -/
theorem Sensed.rearm {c : CookingController K P} (h : Sensed c none) :
    Sensed c.rearm none ∧
      ∀ id, Awaits c.rearm id → c.rearm.mcu.waiting = true ∧ c.rearm.mcu.pendingMsgId = id := by
  have hrearm := rearm_rearmed c
  have hinOrder := h.inOrder.rearm
  generalize c.rearm = c' at hrearm hinOrder
  have hcoherent := coherent_clearCommandStatus h.coherent
  cases hrearm with
  | none fine =>
    refine ⟨h, ?_⟩
    intro id hawaits
    rcases h.attended id hawaits with hwaiting | ⟨_, htaken, -⟩ | hfailed
    · exact hwaiting
    · cases htaken
    · exact absurd fine hfailed
  | heater failed pending =>
    have hmotor := h.inOrder.motorUnsent pending
    have hnone : ∀ id, ¬ Awaits { c with mcu := c.mcu.clearCommandStatus, shutdownHeaterSent := false } id := by
      rintro id (⟨-, hsent, -⟩ | ⟨-, hsent, -⟩)
      · cases hsent
      · rw [hmotor] at hsent
        cases hsent
    exact ⟨sensed_of_idle h.taken hcoherent hinOrder hnone,
      fun id hawaits => absurd hawaits (hnone id)⟩
  | motor failed heater pending =>
    have hnone : ∀ id, ¬ Awaits { c with mcu := c.mcu.clearCommandStatus, shutdownMotorSent := false } id := by
      rintro id (⟨-, -, hdone⟩ | ⟨-, hsent, -⟩)
      · rw [heater] at hdone
        cases hdone
      · cases hsent
    exact ⟨sensed_of_idle h.taken hcoherent hinOrder hnone,
      fun id hawaits => absurd hawaits (hnone id)⟩
  | late failed heater motor =>
    have hnone : ∀ id, ¬ Awaits { c with mcu := c.mcu.clearCommandStatus } id := by
      rintro id (⟨-, -, hdone⟩ | ⟨-, -, hdone⟩)
      · rw [heater] at hdone
        cases hdone
      · rw [motor] at hdone
        cases hdone
    exact ⟨sensed_of_idle h.taken hcoherent hinOrder hnone,
      fun id hawaits => absurd hawaits (hnone id)⟩

omit [LinkPort K] [Program K P] in
theorem alive_of_idle {c : CookingController K P} (coherent : Coherent c.mcu) (inOrder : c.InOrder)
    (idle : ∀ id, ¬ Awaits c id) : Alive c :=
  ⟨coherent, inOrder, fun _ _ => idle, fun id hawaits => absurd hawaits (idle id)⟩

omit [Program K P] in
/-- A tried command is awaited exactly when it is marked sent. -/
theorem Sensed.proceed {c : CookingController K P} (h : Sensed c none)
    (hstate : c.state = .stopping ∨ c.state = .faulted)
    (hwaiting : ∀ id, Awaits c id → c.mcu.waiting = true ∧ c.mcu.pendingMsgId = id)
    (now : Millis) : Alive (c.proceed now) := by
  have hresting : ∀ c' : CookingController K P, c'.state = c.state → c'.state ≠ .stopping →
      c'.state ≠ .faulted → ∀ id, ¬ Awaits c' id := by
    intro c' hsame hstopping hfaulted
    rw [hsame] at hstopping hfaulted
    rcases hstate with hstate | hstate
    · exact absurd hstate hstopping
    · exact absurd hstate hfaulted
  have hproceed := proceed_proceeded c now
  have hinOrder := h.inOrder.proceed now
  generalize c.proceed now = c' at hproceed hinOrder
  cases hproceed with
  | waits heater motor =>
    exact ⟨h.coherent, hinOrder, h.resting, fun id hawaits => Or.inl (hwaiting id hawaits)⟩
  | heater pending unsent idle =>
    have hmotor := h.inOrder.motorUnsent pending
    refine ⟨coherent_request h.coherent now _ _, hinOrder, hresting _ rfl, ?_⟩
    rintro id (⟨rfl, hsent, -⟩ | ⟨-, hsent, -⟩)
    · exact Or.inl (waiting_of_request_ok (of_decide_eq_true hsent))
    · rw [hmotor] at hsent
      cases hsent
  | motor heater pending unsent idle =>
    refine ⟨coherent_request h.coherent now _ _, hinOrder, hresting _ rfl, ?_⟩
    rintro id (⟨-, -, hdone⟩ | ⟨rfl, hsent, -⟩)
    · rw [heater] at hdone
      cases hdone
    · exact Or.inl (waiting_of_request_ok (of_decide_eq_true hsent))
  | begins program heater motor pending start unfaulted =>
    refine alive_of_idle (coherent_clearCommandStatus h.coherent) hinOrder ?_
    rintro id (⟨-, hsent, -⟩ | ⟨-, hsent, -⟩) <;> cases hsent
  | rests heater motor unstarted =>
    refine alive_of_idle h.coherent hinOrder ?_
    rintro id (⟨-, -, hdone⟩ | ⟨-, -, hdone⟩)
    · rw [heater] at hdone
      cases hdone
    · rw [motor] at hdone
      cases hdone

theorem alive_tick10ms {c : CookingController K P} (h : Alive c) (now : Millis) :
    Alive (c.tick10ms now) := by
  rw [tick10ms_eq]
  have hsensed := h.sense.react.stepOta
  generalize c.sense.1 = response at hsensed ⊢
  generalize c.sense.2.react.stepOta = c at hsensed ⊢
  have hadvance := advance_advanced c response now
  generalize c.advance response now = c' at hadvance
  cases hadvance with
  | plays running _ played =>
    have hidle := hsensed.resting (by simp [running]) (by simp [running])
    cases played with
    | goesOn program mcu requests =>
      have hcoherent := requests.keeps Coherent hsensed.coherent
        fun _ id payload h => coherent_request h now id payload
      exact alive_of_idle hcoherent ⟨hsensed.inOrder.heaterDone, hsensed.inOrder.motorSent, hsensed.inOrder.motorDone⟩ hidle
    | finishes program mcu requests =>
      have hcoherent := requests.keeps Coherent hsensed.coherent
        fun _ id payload h => coherent_request h now id payload
      exact alive_of_idle (coherent_clearCommandStatus hcoherent) (inOrder_beginShutdown _ false)
        (awaits_beginShutdown _ false)
  | stops stopping =>
    obtain ⟨hrearmed, hwaiting⟩ := hsensed.acknowledge.rearm
    refine hrearmed.proceed ?_ hwaiting now
    rwa [rearm_state, acknowledge_state]
  | rests stopping faulted =>
    exact alive_of_idle hsensed.coherent hsensed.inOrder (hsensed.resting stopping faulted)

/-! Runs. -/

theorem alive_apply {c : CookingController K P} {event : AppEvent K P} (h : Alive c)
    (hconsiderate : Considerate c event) : Alive (apply c event) := by
  obtain ⟨hcoherent, hinOrder, hresting, hattended⟩ := h
  cases event with
  | link link => exact ⟨hcoherent, ⟨hinOrder.heaterDone, hinOrder.motorSent, hinOrder.motorDone⟩, hresting, hattended⟩
  | poll now =>
    exact ⟨coherent_poll hcoherent now, ⟨hinOrder.heaterDone, hinOrder.motorSent, hinOrder.motorDone⟩, hresting,
      fun id hawaits => attended_poll hcoherent (hattended id hawaits) now⟩
  | tick now => exact alive_tick10ms ⟨hcoherent, hinOrder, hresting, hattended⟩ now
  | direct now request =>
    have hmcu : (apply c (.direct now request)).mcu =
        (c.mcu.request now request.msgId request.payload).2 := by
      rw [← request.issue_eq]
      rfl
    refine ⟨?_, ⟨hinOrder.heaterDone, hinOrder.motorSent, hinOrder.motorDone⟩, hresting, ?_⟩
    · rw [hmcu]
      exact coherent_request hcoherent now _ _
    · intro id hawaits
      rw [hmcu]
      exact attended_request (hattended id hawaits) now _ _
        fun haccepts => hconsiderate now request rfl haccepts id hawaits
  | start program =>
    cases program with
    | none => exact ⟨hcoherent, hinOrder, hresting, hattended⟩
    | some program =>
      change Alive (c.startProgram (some program)).2
      unfold startProgram
      dsimp only
      split
      · exact ⟨hcoherent, hinOrder, hresting, hattended⟩
      · exact alive_of_idle (coherent_clearCommandStatus hcoherent)
          ⟨fun h => (by cases h), fun h => (by cases h), fun h => (by cases h)⟩ (awaits_beginShutdown c false)
  | stop =>
    change Alive c.stop
    unfold CookingController.stop
    split_ifs
    · exact ⟨hcoherent, ⟨hinOrder.heaterDone, hinOrder.motorSent, hinOrder.motorDone⟩, hresting, hattended⟩
    · exact alive_of_idle (coherent_clearCommandStatus hcoherent) (inOrder_beginShutdown c false)
        (awaits_beginShutdown c false)
    · exact ⟨hcoherent, hinOrder, hresting, hattended⟩
  | userNext => exact ⟨hcoherent, ⟨hinOrder.heaterDone, hinOrder.motorSent, hinOrder.motorDone⟩, hresting, hattended⟩
  | verify image expectedCrc =>
    exact ⟨hcoherent, ⟨hinOrder.heaterDone, hinOrder.motorSent, hinOrder.motorDone⟩, hresting, hattended⟩

theorem alive_of_reachable {c : CookingController K P} (h : AppReachable Considerate c) : Alive c := by
  refine h.keeps Alive ?_ ?_
  · rintro _ ⟨link, ota, rfl⟩
    refine alive_of_idle (fun h => (by cases h)) ⟨fun h => (by cases h), fun h => (by cases h), fun h => (by cases h)⟩ ?_
    rintro id (⟨-, hsent, -⟩ | ⟨-, hsent, -⟩) <;> cases hsent
  · rintro c event _ h ⟨hconsiderate, rfl⟩
    exact alive_apply h hconsiderate

/-! The next tick. -/

omit [Program K P] in
/-- A client that waits for nothing is given the next command, unless all are done. -/
theorem Sensed.proceed_sends {c : CookingController K P} (h : Sensed c none)
    (hidle : c.mcu.waiting = false)
    (hwaiting : ∀ id, Awaits c id → c.mcu.waiting = true ∧ c.mcu.pendingMsgId = id) (now : Millis) :
    Resent (c.proceed now) now MsgId.heaterOff ∨
      ((c.proceed now).shutdownHeaterDone = true ∧ Resent (c.proceed now) now MsgId.motorStop) ∨
      (c.shutdownMotorDone = true ∧ Completed (c.proceed now) MsgId.motorStop) := by
  have hnone : ∀ id, ¬ Awaits c id := by
    intro id hawaits
    have := (hwaiting id hawaits).1
    rw [hidle] at this
    cases this
  have hproceed := proceed_proceeded c now
  generalize c.proceed now = c' at hproceed
  cases hproceed with
  | waits heater motor =>
    exfalso
    cases hheater : c.shutdownHeaterDone with
    | false =>
      rcases heater hheater with hsent | hwait
      · exact hnone _ (Or.inl ⟨rfl, hsent, hheater⟩)
      · exact Bool.noConfusion (hidle.symm.trans hwait)
    | true =>
      obtain ⟨hmotor, hsent | hwait⟩ := motor hheater
      · exact hnone _ (Or.inr ⟨rfl, hsent, hmotor⟩)
      · exact Bool.noConfusion (hidle.symm.trans hwait)
  | heater pending unsent idle => exact Or.inl ⟨c.mcu, hidle, h.taken, rfl⟩
  | motor heater pending unsent idle => exact Or.inr (Or.inl ⟨heater, c.mcu, hidle, h.taken, rfl⟩)
  | begins program heater motor pending start unfaulted =>
    exact Or.inr (Or.inr ⟨motor, Or.inr ⟨rfl, Or.inr rfl⟩⟩)
  | rests heater motor unstarted => exact Or.inr (Or.inr ⟨motor, Or.inr ⟨rfl, Or.inl motor⟩⟩)

omit [LinkPort K] [Program K P] in
theorem motorDone_rearm {c : CookingController K P} (h : c.InOrder)
    (hheater : c.shutdownHeaterDone = false) (response : Option Frame) :
    (c.acknowledge response).rearm.shutdownMotorDone = false := by
  have hunsent := h.motorUnsent hheater
  have hpending := h.motorPending hheater
  have hack : (c.acknowledge response).shutdownMotorDone = false := by
    have hack := acknowledge_acknowledged c response
    generalize c.acknowledge response = c' at hack
    cases hack with
    | heater _ _ _ _ _ _ => exact hpending
    | motor _ _ _ _ sent _ => exact Bool.noConfusion (hunsent.symm.trans sent)
    | other _ _ => exact hpending
  have hrearm := rearm_rearmed (c.acknowledge response)
  generalize (c.acknowledge response).rearm = c' at hrearm
  cases hrearm <;> exact hack

theorem Alive.unstuck {c : CookingController K P} (h : Alive c) (hshutdown : InShutdown c)
    {id : MsgId} (hawaits : Awaits c id) : Unstuck c id := by
  constructor
  · rcases h.attended id hawaits with ⟨hwaiting, -⟩ | ⟨hready, -⟩ | hfailed
    · exact Or.inl hwaiting
    · exact Or.inr (Or.inl hready)
    · exact Or.inr (Or.inr hfailed)
  · intro hidle now
    have hstate : c.sense.2.react.stepOta.state = .stopping ∨
        c.sense.2.react.stepOta.state = .faulted := by
      change c.sense.2.react.state = .stopping ∨ c.sense.2.react.state = .faulted
      unfold react
      split
      · exact Or.inr rfl
      · exact hshutdown.imp_right And.left
    have hwaiting : c.sense.2.react.stepOta.mcu.waiting = false := by
      change c.sense.2.react.mcu.waiting = false
      rw [react_waiting, sense_mcu]
      exact hidle
    have hpending : c.shutdownHeaterDone = false →
        c.sense.2.react.stepOta.shutdownHeaterDone = false := by
      intro hpending
      change c.sense.2.react.shutdownHeaterDone = false
      unfold react
      split
      · rfl
      · exact hpending
    rw [tick10ms_eq, advance_stopping hstate]
    have hsensed := h.sense.react.stepOta
    obtain ⟨hrearmed, hawaited⟩ := hsensed.acknowledge.rearm
    have hfree : (c.sense.2.react.stepOta.acknowledge c.sense.1).rearm.mcu.waiting = false := by
      rw [rearm_waiting, acknowledge_mcu]
      exact hwaiting
    rcases hawaits with ⟨rfl, -, hheater⟩ | ⟨rfl, -, -⟩
    · rcases hrearmed.proceed_sends hfree hawaited now with hsent | ⟨hdone, -⟩ | ⟨hdone, -⟩
      · exact Or.inr (Or.inl hsent)
      · exact Or.inl (Or.inl ⟨rfl, hdone⟩)
      · have := motorDone_rearm hsensed.inOrder (hpending hheater) c.sense.1
        exact Bool.noConfusion (this.symm.trans hdone)
    · rcases hrearmed.proceed_sends hfree hawaited now with hsent | ⟨-, hsent⟩ | ⟨-, hdone⟩
      · exact Or.inr (Or.inr hsent)
      · exact Or.inr (Or.inl hsent)
      · exact Or.inl hdone

/-- No shutdown gets stuck unless a direct request takes the place of its command. -/
theorem shutdown_never_stuck (c : CookingController K P) (h : AppReachable Considerate c)
    (hshutdown : InShutdown c) : ∀ id, Awaits c id → Unstuck c id :=
  fun _ hawaits => (alive_of_reachable h).unstuck hshutdown hawaits

/-! The runs on a frame-level link. -/

open Packets

/-- The user stops an idle device. -/
def stopRun : List (AppEvent FrameLink ManualMode) := [.stop, .tick 10]

theorem shutdown_never_stuck_stopRun :
    Unstuck (play (initial {} none) stopRun) MsgId.heaterOff := by
  refine shutdown_never_stuck _ ?_ (Or.inl (by decide +kernel)) MsgId.heaterOff
    (Or.inl ⟨rfl, by decide +kernel, by decide +kernel⟩)
  refine (appReachable_initial _ _).foldl stopRun ?_
  intro event hevent c now request heq
  subst heq
  simp [stopRun] at hevent

/-- The first HeaterOff and its retry are lost. After the timeout, and before the next tick,
the user tares the scale; the answer to that is all that comes back. -/
def tareRun : List (AppEvent FrameLink ManualMode) :=
  [.stop, .tick 10, .poll 61, .poll 112, .direct 113 .tare,
    .link { sends := 3, inbox := [Frame.ofBytes .response 2 MsgId.scaleTare []], stamp := 2 },
    .poll 115, .tick 120]

theorem shutdown_stuck :
    AppReachable (fun _ _ => True) (play (initial {} none) tareRun) ∧
      InShutdown (play (initial {} none) tareRun) ∧
      Awaits (play (initial {} none) tareRun) MsgId.heaterOff ∧
      ¬ Unstuck (play (initial {} none) tareRun) MsgId.heaterOff := by
  refine ⟨(appReachable_initial _ _).foldl tareRun fun _ _ _ => trivial, Or.inl (by decide +kernel),
    Or.inl ⟨rfl, by decide +kernel, by decide +kernel⟩, ?_⟩
  rintro ⟨hattended, -⟩
  revert hattended
  decide +kernel

end Culina.ShutdownProgress
