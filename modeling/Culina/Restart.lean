import Culina.Sessions
import Culina.Packets

/-!
Starting a program. An accepted program waits behind a shutdown of its own; left
undisturbed it comes to run, unless the client still remembers a fault from before the
call. That memory is only cleared when a program begins, so a controller that has seen
a fault of the safety processor accepts every program and runs none.
-/
namespace Culina.Restart

open Wire Ports Client McuClient Cooking CookingController Sessions Packets Runs

variable {K P : Type} [LinkPort K] [Program K P]

/-- A poll or a tick of a stopping controller in which no FAULT frame arrives and no
request fails. The link may do anything else. -/
def Undisturbed (c : CookingController K P) (event : AppEvent K P) : Prop :=
  c.state = .stopping ∧
    match event with
    | .link _ => True
    | .poll now => (∀ frame ∈ LinkPort.incoming c.mcu.link, ¬ IsFault frame) ∧ ¬ Fails c.mcu now
    | .tick _ => True
    | _ => False

/-- The client holds the acknowledgement of the command. -/
def Acked (c : CookingController K P) (id : MsgId) : Prop :=
  c.mcu.responseReady = true ∧ c.mcu.response.type = .response ∧ c.mcu.response.msgId = id

/-- The session runs exactly that program. -/
def Started (c : CookingController K P) (program : P) : Prop :=
  c.state = .running ∧ c.program = some program

/-- The program is kept, and the acknowledgements of both commands bring it to run. -/
structure Awaiting (c : CookingController K P) (program : P) : Prop where
  stopping : c.state = .stopping
  pending : c.pendingProgram = some program
  start : c.startAfterShutdown = true
  heater : Acked c MsgId.heaterOff → c.shutdownHeaterSent = true →
    ∀ now, (c.tick10ms now).shutdownHeaterDone = true
  motor : c.shutdownHeaterDone = true → Acked c MsgId.motorStop → c.shutdownMotorSent = true →
    ∀ now, Started (c.tick10ms now) program

/-- Every undisturbed run keeps the program or starts it. -/
def Honoured (start : CookingController K P) (program : P) : Prop :=
  ∀ events c, Run (Guarded Undisturbed apply) start events c → Awaiting c program ∨ Started c program

/-! The client. -/

omit [Program K P] in
theorem request_quiet {c : McuClient K} (hok : c.lastCommandStatus = .ok) (now : Millis) (id : MsgId)
    (payload : List Byte) : (c.request now id payload).2.lastCommandStatus = .ok ∧
      (c.request now id payload).2.lastFault = c.lastFault := by
  have hrequest := request_requested c now id payload
  generalize (c.request now id payload).1 = status at hrequest
  generalize (c.request now id payload).2 = c' at hrequest
  cases hrequest with
  | accepted accepts => exact ⟨rfl, rfl⟩
  | unsent _ _ _ _ _ => exact ⟨hok, rfl⟩
  | refused _ _ => exact ⟨hok, rfl⟩

omit [Program K P] in
/-- The frame loop keeps the fault memory when no FAULT frame comes in. -/
theorem pollFrames_lastFault [LawfulLinkPort K] (fuel : ℕ) (c : McuClient K) (now : Millis)
    (hframes : ∀ frame ∈ LinkPort.incoming c.link, ¬ IsFault frame) :
    (c.pollFrames fuel now).lastFault = c.lastFault := by
  induction fuel generalizing c with
  | zero => rfl
  | succ fuel ih =>
    have hframe := LawfulLinkPort.poll_frame c.link now
    have htail := LawfulLinkPort.poll_incoming c.link now
    unfold pollFrames
    cases hpoll : LinkPort.poll c.link now with
    | mk polled link =>
      rw [hpoll] at hframe htail
      cases polled with
      | none => rfl
      | some frame =>
        have hmem : frame ∈ LinkPort.incoming c.link := List.mem_of_mem_head? hframe.symm
        have hreceived := receive_received { c with link } frame now
        dsimp only at htail ⊢
        generalize ({ c with link } : McuClient K).receive frame now = c' at hreceived
        have hkept : c'.link = link ∧ c'.lastFault = c.lastFault := by
          cases hreceived with
          | sample type => exact ⟨rfl, rfl⟩
          | fault type => exact absurd type (hframes frame hmem)
          | answer found => exact ⟨rfl, rfl⟩
          | ignored stray => exact ⟨rfl, rfl⟩
        rw [ih c' ?_, hkept.2]
        intro frame' hframe'
        rw [hkept.1, htail] at hframe'
        exact hframes frame' (List.mem_of_mem_tail hframe')

omit [Program K P] in
theorem poll_lastFault [LawfulLinkPort K] {c : McuClient K} {now : Millis}
    (hframes : ∀ frame ∈ LinkPort.incoming c.link, ¬ IsFault frame) :
    (c.poll now).lastFault = c.lastFault := by
  have htimers : (c.pollTimers now).lastFault = c.lastFault ∧
      LinkPort.incoming (c.pollTimers now).link = LinkPort.incoming c.link := by
    have htimed := pollTimers_timed c now
    generalize c.pollTimers now = c' at htimed
    cases htimed with
    | quiet early => exact ⟨rfl, rfl⟩
    | gaveUp waiting => exact ⟨rfl, LawfulLinkPort.cancel_incoming c.link⟩
    | unsent waiting early first failed => exact ⟨rfl, LawfulLinkPort.send_incoming _ _ _ _ _⟩
    | retried waiting early first sent => exact ⟨rfl, LawfulLinkPort.send_incoming _ _ _ _ _⟩
  have hbeat : (c.poll now).lastFault = ((c.pollTimers now).pollLink now).lastFault := by
    have hbeaten := pollHeartbeat_beaten ((c.pollTimers now).pollLink now) now
    rw [McuClient.poll]
    generalize ((c.pollTimers now).pollLink now).pollHeartbeat now = c' at hbeaten ⊢
    cases hbeaten <;> rfl
  rw [hbeat, pollLink, pollFrames_lastFault, htimers.1]
  rw [htimers.2]
  exact hframes

/-! The invariant. -/

/-- The shutdown in front of the program, with nothing in its way. -/
structure Clear (c : CookingController K P) (program : P) : Prop where
  stopping : c.state = .stopping
  pending : c.pendingProgram = some program
  start : c.startAfterShutdown = true
  unfaulted : c.faultShutdown = false
  noFault : c.mcu.lastFault = noFault
  fine : c.mcu.lastCommandStatus = .ok
  inOrder : c.shutdownMotorSent = true → c.shutdownHeaterDone = true
  unfinished : c.shutdownMotorDone = false

omit [Program K P] in
theorem Clear.proceed {c : CookingController K P} {program : P} (h : Clear c program) (now : Millis) :
    Clear (c.proceed now) program ∧
      (c.shutdownHeaterDone = true → (c.proceed now).shutdownHeaterDone = true) := by
  have hproceed := proceed_proceeded c now
  generalize c.proceed now = c' at hproceed
  cases hproceed with
  | waits _ _ => exact ⟨h, id⟩
  | heater pending _ _ =>
    obtain ⟨hfine, hfault⟩ := request_quiet h.fine now MsgId.heaterOff []
    exact ⟨⟨h.stopping, h.pending, h.start, h.unfaulted, hfault.trans h.noFault, hfine, h.inOrder,
      h.unfinished⟩, id⟩
  | motor heater _ _ _ =>
    obtain ⟨hfine, hfault⟩ := request_quiet h.fine now MsgId.motorStop []
    exact ⟨⟨h.stopping, h.pending, h.start, h.unfaulted, hfault.trans h.noFault, hfine,
      fun _ => heater, h.unfinished⟩, id⟩
  | begins _ _ motor _ _ _ => exact Bool.noConfusion (h.unfinished.symm.trans motor)
  | rests _ motor _ => exact Bool.noConfusion (h.unfinished.symm.trans motor)

omit [Program K P] in
theorem started_proceed {c : CookingController K P} {program : P}
    (hheater : c.shutdownHeaterDone = true) (hmotor : c.shutdownMotorDone = true)
    (hpending : c.pendingProgram = some program) (hstart : c.startAfterShutdown = true)
    (hunfaulted : c.faultShutdown = false) (now : Millis) : Started (c.proceed now) program := by
  have hproceed := proceed_proceeded c now
  generalize c.proceed now = c' at hproceed
  cases hproceed with
  | waits _ motor =>
    have := (motor hheater).1
    exact Bool.noConfusion (this.symm.trans hmotor)
  | heater pending _ _ => exact Bool.noConfusion (pending.symm.trans hheater)
  | motor _ pending _ _ => exact Bool.noConfusion (pending.symm.trans hmotor)
  | begins program' _ _ pending _ _ =>
    have hsame : some program' = some program := pending.symm.trans hpending
    exact ⟨rfl, hsame⟩
  | rests _ _ unstarted =>
    have := unstarted hstart hunfaulted
    rw [hpending] at this
    cases this

omit [Program K P] in
/-- One pass of the sequence: the heater's answer is noted, and the motor's answer starts the
program. -/
theorem Clear.runStoppingSequence {c : CookingController K P} {program : P} (h : Clear c program)
    (response : Option Frame) (now : Millis) :
    (Clear (c.runStoppingSequence response now) program ∨
        Started (c.runStoppingSequence response now) program) ∧
      ∀ answer, response = some answer → answer.type = .response →
        (answer.msgId = MsgId.heaterOff → c.shutdownHeaterSent = true →
          (c.runStoppingSequence response now).shutdownHeaterDone = true) ∧
        (answer.msgId = MsgId.motorStop → c.shutdownMotorSent = true →
          Started (c.runStoppingSequence response now) program) := by
  have hrearm : (c.acknowledge response).rearm = c.acknowledge response := by
    refine rearm_of_ok ?_
    rw [acknowledge_mcu]
    exact h.fine
  have hack := acknowledge_acknowledged c response
  rw [CookingController.runStoppingSequence, hrearm]
  generalize c.acknowledge response = c' at hack
  cases hack with
  | heater answer taken type msgId sent pending =>
    have hclear : Clear { c with shutdownHeaterDone := true } program :=
      ⟨h.stopping, h.pending, h.start, h.unfaulted, h.noFault, h.fine, fun _ => rfl, h.unfinished⟩
    obtain ⟨hproceed, hdone⟩ := hclear.proceed now
    refine ⟨Or.inl hproceed, ?_⟩
    intro answer' htaken _
    rw [taken] at htaken
    cases htaken
    refine ⟨fun _ _ => hdone rfl, ?_⟩
    intro hmotor
    rw [msgId] at hmotor
    cases hmotor
  | motor answer taken type msgId sent pending =>
    have hstarted := started_proceed (c := { c with shutdownMotorDone := true }) (h.inOrder sent) rfl
      h.pending h.start h.unfaulted now
    refine ⟨Or.inr hstarted, ?_⟩
    intro answer' htaken _
    rw [taken] at htaken
    cases htaken
    refine ⟨?_, fun _ _ => hstarted⟩
    intro hheater
    rw [msgId] at hheater
    cases hheater
  | other heater motor =>
    obtain ⟨hproceed, hdone⟩ := h.proceed now
    refine ⟨Or.inl hproceed, ?_⟩
    intro answer htaken htype
    constructor
    · intro hmsgId hsent
      exact hdone (heater answer htaken htype hmsgId hsent)
    · intro hmsgId hsent
      have := motor answer htaken htype hmsgId hsent
      exact Bool.noConfusion (h.unfinished.symm.trans this)

theorem Clear.tick10ms {c : CookingController K P} {program : P} (h : Clear c program)
    (now : Millis) :
    (Clear (c.tick10ms now) program ∨ Started (c.tick10ms now) program) ∧
      (Acked c MsgId.heaterOff → c.shutdownHeaterSent = true →
        (c.tick10ms now).shutdownHeaterDone = true) ∧
      (Acked c MsgId.motorStop → c.shutdownMotorSent = true → Started (c.tick10ms now) program) := by
  have hquiet : ¬ c.Alarmed := by
    rintro ⟨-, hfault | hfailed⟩
    · exact hfault h.noFault
    · exact hfailed h.fine
  have hsensed : Clear c.sense.2.stepOta program := by
    refine ⟨h.stopping, h.pending, h.start, h.unfaulted, ?_, ?_, h.inOrder, h.unfinished⟩
    · change c.sense.2.mcu.lastFault = _
      rw [sense_mcu]
      exact h.noFault
    · change c.sense.2.mcu.lastCommandStatus = _
      rw [sense_mcu]
      exact h.fine
  obtain ⟨hclear, hanswers⟩ := hsensed.runStoppingSequence c.sense.1 now
  rw [tick10ms_quiet hquiet, advance_stopping (Or.inl hsensed.stopping)]
  refine ⟨hclear, ?_, ?_⟩
  · rintro ⟨hready, htype, hmsgId⟩ hsent
    exact (hanswers c.mcu.response (by rw [sense_fst, if_pos hready]) htype).1 hmsgId hsent
  · rintro ⟨hready, htype, hmsgId⟩ hsent
    exact (hanswers c.mcu.response (by rw [sense_fst, if_pos hready]) htype).2 hmsgId hsent

theorem Clear.awaiting {c : CookingController K P} {program : P} (h : Clear c program) :
    Awaiting c program :=
  ⟨h.stopping, h.pending, h.start, fun hacked hsent now => (h.tick10ms now).2.1 hacked hsent,
    fun _ hacked hsent now => (h.tick10ms now).2.2 hacked hsent⟩

theorem Clear.apply [LawfulLinkPort K] {c : CookingController K P} {program : P}
    (h : Clear c program) {event : AppEvent K P} (hundisturbed : Undisturbed c event) :
    Clear (Sessions.apply c event) program ∨ Started (Sessions.apply c event) program := by
  obtain ⟨-, hquiet⟩ := hundisturbed
  cases event with
  | link link =>
    exact Or.inl ⟨h.stopping, h.pending, h.start, h.unfaulted, h.noFault, h.fine, h.inOrder,
      h.unfinished⟩
  | poll now =>
    obtain ⟨hframes, hfine⟩ := hquiet
    refine Or.inl ⟨h.stopping, h.pending, h.start, h.unfaulted, (poll_lastFault hframes).trans h.noFault,
      ?_, h.inOrder, h.unfinished⟩
    rcases poll_status hfine with hstatus | hok
    · exact hstatus.trans h.fine
    · exact hok
  | tick now => exact (h.tick10ms now).1
  | direct now request => exact hquiet.elim
  | start program => exact hquiet.elim
  | stop => exact hquiet.elim
  | userNext => exact hquiet.elim
  | verify image expectedCrc => exact hquiet.elim

/-! The start. -/

omit [LinkPort K] [Program K P] in
theorem startProgram_ok {c : CookingController K P} {program : P}
    (hok : (c.startProgram (some program)).1 = .ok) :
    (c.startProgram (some program)).2 =
      { c.beginShutdown false with pendingProgram := some program, startAfterShutdown := true } := by
  unfold startProgram at hok ⊢
  dsimp only at hok ⊢
  split at hok
  · cases hok
  · rw [if_neg ‹_›]

/-- An accepted program comes to run exactly when no fault is remembered at the call. -/
theorem start_honoured_iff [LawfulLinkPort K] (c : CookingController K P) (program : P)
    (hok : (c.startProgram (some program)).1 = .ok) :
    Honoured (c.startProgram (some program)).2 program ↔ c.mcu.lastFault = noFault := by
  rw [startProgram_ok hok]
  constructor
  · intro hhonoured
    by_contra hfault
    -- the first tick already takes the old fault for a new one
    have halarmed : ({ c.beginShutdown false with
        pendingProgram := some program, startAfterShutdown := true } :
          CookingController K P).Alarmed := ⟨by simp [beginShutdown], Or.inl hfault⟩
    obtain ⟨hstate, -⟩ := tick10ms_alarmed_state halarmed 0
    rcases hhonoured [.tick 0] _ (Run.snoc Run.nil ⟨⟨rfl, trivial⟩, rfl⟩) with hawaiting | hstarted
    · have := hawaiting.stopping
      rw [Sessions.apply, hstate] at this
      cases this
    · have := hstarted.1
      rw [Sessions.apply, hstate] at this
      cases this
  · intro hfault events c' hrun
    have hkept := hrun.keeps (fun c => Clear c program ∨ Started c program) ?_ ?_
    · rcases hkept with hclear | hstarted
      · exact Or.inl hclear.awaiting
      · exact Or.inr hstarted
    · exact Or.inl ⟨rfl, rfl, rfl, rfl, hfault, rfl, fun h => (by cases h), rfl⟩
    · rintro c event _ (hclear | hstarted) ⟨hundisturbed, rfl⟩
      · exact hclear.apply hundisturbed
      · -- a started session is not stopping
        have := hundisturbed.1
        rw [hstarted.1] at this
        cases this

/-! The runs on a frame-level link. -/

/-- 60 °C at dial 5 for an hour. -/
def simmer : ManualMode := ManualMode.ofSeconds 600 5 3600

def fresh : CookingController FrameLink ManualMode := initial {} none

theorem start_honoured_iff_fresh :
    Honoured (fresh.startProgram (some simmer)).2 simmer ↔ fresh.mcu.lastFault = noFault :=
  start_honoured_iff fresh simmer (by decide +kernel)

/-- A sensor fault arrives at an idle device, and its shutdown is answered to the end. -/
def faultRun : List (AppEvent FrameLink ManualMode) :=
  [.link { inbox := [Frame.ofBytes .telemetry 0 MsgId.fault [FaultCode.sensorFailure.toByte]] },
    .poll 5, .tick 10, .link { sends := 1, inbox := [Frame.ofBytes .response 0 MsgId.heaterOff []] },
    .poll 11, .tick 20,
    .link { sends := 2, inbox := [Frame.ofBytes .response 1 MsgId.motorStop []], stamp := 1 }, .poll 21,
    .tick 30]

/-- The next program is accepted, and discarded by the next tick. -/
theorem start_lost :
    AppReachable (fun _ _ => True) (play fresh faultRun) ∧
      ((play fresh faultRun).startProgram (some simmer)).1 = .ok ∧
      ¬ Honoured ((play fresh faultRun).startProgram (some simmer)).2 simmer := by
  refine ⟨(appReachable_initial _ _).foldl faultRun fun _ _ _ => trivial, by decide +kernel, ?_⟩
  intro hhonoured
  have hrun : Run (Guarded Undisturbed apply) ((play fresh faultRun).startProgram (some simmer)).2
      [.tick 40] (apply ((play fresh faultRun).startProgram (some simmer)).2 (.tick 40)) :=
    Run.snoc Run.nil ⟨⟨by decide +kernel, trivial⟩, rfl⟩
  rcases hhonoured _ _ hrun with hawaiting | hstarted
  · exact absurd hawaiting.stopping (by decide +kernel)
  · exact absurd hstarted.1 (by decide +kernel)

end Culina.Restart
