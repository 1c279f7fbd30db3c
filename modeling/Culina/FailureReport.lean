import Culina.Sessions
import Culina.Packets

/-!
Failed commands and the cooking session. A command that fails while a session runs is
owed to the controller until its next tick. The client keeps the failure in one status
that every accepted request resets, so the tick only learns of it if no direct request
comes in between.
-/
namespace Culina.FailureReport

open Wire Ports Client McuClient Cooking CookingController Sessions Packets Runs

variable {K P : Type} [LinkPort K] [Program K P]

/-- The application, and whether a failure is owed to the next tick. -/
structure Watch (K P : Type) where
  controller : CookingController K P
  owed : Bool := false

def Watch.owes (s : Watch K P) : AppEvent K P → Bool
  | .poll now =>
      s.owed || decide (s.controller.state = .running ∧ Fails s.controller.mcu now)
  | .tick _ => false
  | .start _ => false
  | .stop => false
  | _ => s.owed

def Watch.apply (s : Watch K P) (event : AppEvent K P) : Watch K P where
  controller := Sessions.apply s.controller event
  owed := s.owes event

def Watch.play (s : Watch K P) (events : List (AppEvent K P)) : Watch K P :=
  events.foldl Watch.apply s

def Watch.Reachable (allowed : Watch K P → AppEvent K P → Prop) : Watch K P → Prop :=
  Runs.Reachable (fun s => ∃ link ota, s = ⟨initial link ota, false⟩) (Guarded allowed Watch.apply)

/-- No direct request is accepted while a failure is owed. -/
def Patient (s : Watch K P) (event : AppEvent K P) : Prop :=
  ∀ now request, event = .direct now request → s.owed = true →
    ¬ s.controller.mcu.Accepts request.msgId request.payload

/-- The next tick sees the failure and faults the session, and the session does not run
again before a program is started anew. -/
structure Surfaced (c : CookingController K P) : Prop where
  status : c.mcu.lastCommandStatus ≠ .ok
  faulted : ∀ now, (c.tick10ms now).state = .faulted
  unticked : ∀ now, c.tick10ms now = (c.sense.2.beginShutdown true).stepOta.proceed now
  silent : ∀ now events, (∀ program, AppEvent.start (some program) ∉ events) →
    (Sessions.play (c.tick10ms now) events).state ≠ .running

/-! What keeps the failure. -/

/-- An owed failure is still in the status. -/
structure Owing (s : Watch K P) : Prop where
  running : s.controller.state = .running
  idle : s.controller.mcu.waiting = false
  failed : s.controller.mcu.lastCommandStatus ≠ .ok

theorem owing_apply {s : Watch K P} {event : AppEvent K P} (h : s.owed = true → Owing s)
    (hpatient : Patient s event) (howed : (s.apply event).owed = true) : Owing (s.apply event) := by
  cases event with
  | link link =>
    obtain ⟨hrunning, hidle, hfailed⟩ := h howed
    exact ⟨hrunning, hidle, hfailed⟩
  | poll now =>
    rcases Bool.or_eq_true_iff.mp howed with howed | hfails
    · obtain ⟨hrunning, hidle, hfailed⟩ := h howed
      obtain ⟨hidle', -, -, hstatus⟩ := poll_idle hidle now
      refine ⟨hrunning, hidle', ?_⟩
      change (s.controller.mcu.poll now).lastCommandStatus ≠ .ok
      rwa [hstatus]
    · obtain ⟨hrunning, -, hidle, hfailed⟩ := of_decide_eq_true hfails
      exact ⟨hrunning, hidle, hfailed⟩
  | tick now => cases howed
  | direct now request =>
    obtain ⟨hrunning, hidle, hfailed⟩ := h howed
    have hmcu : (s.apply (.direct now request)).controller.mcu =
        (s.controller.mcu.request now request.msgId request.payload).2 := by
      rw [← request.issue_eq]
      rfl
    obtain ⟨link, nextSeq, pendingSeq, hkept⟩ :=
      request_unaccepted now (hpatient now request rfl howed)
    rw [hkept] at hmcu
    refine ⟨hrunning, ?_, ?_⟩
    · rw [hmcu]
      exact hidle
    · rw [hmcu]
      exact hfailed
  | start program => cases howed
  | stop => cases howed
  | userNext =>
    obtain ⟨hrunning, hidle, hfailed⟩ := h howed
    exact ⟨hrunning, hidle, hfailed⟩
  | verify image expectedCrc =>
    obtain ⟨hrunning, hidle, hfailed⟩ := h howed
    exact ⟨hrunning, hidle, hfailed⟩

/-! What keeps the session silent. -/

/-- The session does not run and no program is to be started. -/
structure Silent (c : CookingController K P) : Prop where
  resting : c.state ≠ .running
  unplanned : c.pendingProgram = none

omit [LinkPort K] [Program K P] in
theorem Silent.stop {c : CookingController K P} (h : Silent c) : Silent c.stop := by
  unfold CookingController.stop
  split_ifs
  · exact ⟨h.resting, rfl⟩
  · exact ⟨by simp [beginShutdown], rfl⟩
  · exact h

omit [Program K P] in
theorem Silent.runStoppingSequence {c : CookingController K P} (h : Silent c)
    (response : Option Frame) (now : Millis) : Silent (c.runStoppingSequence response now) := by
  have hacknowledged : Silent (c.acknowledge response) := by
    have hack := acknowledge_acknowledged c response
    generalize c.acknowledge response = c' at hack
    cases hack <;> exact ⟨h.resting, h.unplanned⟩
  have hrearmed : Silent (c.acknowledge response).rearm := by
    have hrearm := rearm_rearmed (c.acknowledge response)
    generalize (c.acknowledge response).rearm = c' at hrearm
    cases hrearm <;> exact ⟨hacknowledged.resting, hacknowledged.unplanned⟩
  rw [CookingController.runStoppingSequence]
  generalize (c.acknowledge response).rearm = c at hrearmed ⊢
  have hproceed := proceed_proceeded c now
  generalize c.proceed now = c' at hproceed
  cases hproceed with
  | waits _ _ => exact hrearmed
  | heater _ _ _ => exact ⟨hrearmed.resting, hrearmed.unplanned⟩
  | motor _ _ _ _ => exact ⟨hrearmed.resting, hrearmed.unplanned⟩
  | begins program _ _ pending _ _ =>
    rw [hrearmed.unplanned] at pending
    cases pending
  | rests _ _ _ =>
    refine ⟨?_, hrearmed.unplanned⟩
    dsimp only
    split <;> decide

theorem Silent.tick10ms {c : CookingController K P} (h : Silent c) (now : Millis) :
    Silent (c.tick10ms now) := by
  by_cases halarmed : c.Alarmed
  · obtain ⟨hstate, hpending⟩ := tick10ms_alarmed_state halarmed now
    exact ⟨by simp [hstate], hpending⟩
  · rw [tick10ms_quiet halarmed]
    have hsensed : Silent c.sense.2.stepOta := ⟨h.resting, h.unplanned⟩
    generalize c.sense.1 = response
    generalize c.sense.2.stepOta = c at hsensed ⊢
    have hadvance := advance_advanced c response now
    generalize c.advance response now = c' at hadvance
    cases hadvance with
    | plays running _ played => exact absurd running hsensed.resting
    | stops stopping => exact hsensed.runStoppingSequence response now
    | rests _ _ => exact hsensed

theorem Silent.play {c : CookingController K P} (h : Silent c) (events : List (AppEvent K P))
    (hstart : ∀ program, AppEvent.start (some program) ∉ events) :
    Silent (Sessions.play c events) := by
  induction events generalizing c with
  | nil => exact h
  | cons event rest ih =>
    refine ih ?_ fun program hmem => hstart program (List.mem_cons_of_mem _ hmem)
    cases event with
    | link link => exact ⟨h.resting, h.unplanned⟩
    | poll now => exact ⟨h.resting, h.unplanned⟩
    | tick now => exact h.tick10ms now
    | direct now request => exact ⟨h.resting, h.unplanned⟩
    | start program =>
      cases program with
      | none => exact h
      | some program => exact absurd List.mem_cons_self (hstart program)
    | stop => exact h.stop
    | userNext => exact ⟨h.resting, h.unplanned⟩
    | verify image expectedCrc => exact ⟨h.resting, h.unplanned⟩

/-! The report. -/

theorem Owing.surfaced {s : Watch K P} (h : Owing s) : Surfaced s.controller := by
  have halarmed : s.controller.Alarmed := by
    refine ⟨?_, Or.inr h.failed⟩
    rw [h.running]
    decide
  refine ⟨h.failed, ?_, tick10ms_alarmed halarmed, ?_⟩
  · intro now
    exact (tick10ms_alarmed_state halarmed now).1
  · intro now events hstart
    obtain ⟨hstate, hpending⟩ := tick10ms_alarmed_state halarmed now
    have hsilent : Silent (s.controller.tick10ms now) := ⟨by simp [hstate], hpending⟩
    exact (hsilent.play events hstart).resting

/-- A failure reaches the next tick if no direct request is accepted before it. -/
theorem failure_surfaced (s : Watch K P) (h : Watch.Reachable Patient s) (howed : s.owed = true) :
    Surfaced s.controller := by
  have hinv : s.owed = true → Owing s := by
    refine h.keeps (fun s => s.owed = true → Owing s) ?_ ?_
    · rintro _ ⟨link, ota, rfl⟩ howed
      cases howed
    · rintro s event _ h ⟨hpatient, rfl⟩
      exact owing_apply h hpatient
  exact (hinv howed).surfaced

/-! The runs on a frame-level link. -/

def start : Watch FrameLink ManualMode := ⟨initial {} none, false⟩

/-- Both shutdown commands are answered and the session begins at 30 ms. Its first command
and the retry are lost, so that it times out in the last poll. -/
def timeoutRun : List (AppEvent FrameLink ManualMode) :=
  [.start (some (ManualMode.ofSeconds 600 5 3600)), .tick 10,
    .link { sends := 1, inbox := [Frame.ofBytes .response 0 MsgId.heaterOff []] }, .poll 11,
    .tick 20, .link { sends := 2, inbox := [Frame.ofBytes .response 1 MsgId.motorStop []], stamp := 1 },
    .poll 21, .tick 30, .tick 40, .poll 91, .poll 142]

theorem failure_surfaced_timeoutRun : Surfaced (start.play timeoutRun).controller := by
  refine failure_surfaced _ ?_ (by decide +kernel)
  refine Reachable.foldl (Reachable.init ⟨_, _, rfl⟩) timeoutRun ?_
  intro event hevent s now request heq
  subst heq
  simp [timeoutRun] at hevent

/-- The scale is tared between the timeout and the tick: the status is clean again and the
tick goes on with the session. -/
theorem failure_lost :
    Watch.Reachable (fun _ _ => True) ((start.play timeoutRun).apply (.direct 143 .tare)) ∧
      ((start.play timeoutRun).apply (.direct 143 .tare)).owed = true ∧
      ((start.play timeoutRun).apply (.direct 143 .tare)).controller.mcu.lastCommandStatus = .ok ∧
      ¬ Surfaced ((start.play timeoutRun).apply (.direct 143 .tare)).controller ∧
      (((start.play timeoutRun).apply (.direct 143 .tare)).controller.tick10ms 150).state = .running :=
  ⟨Reachable.step (Reachable.foldl (Reachable.init ⟨_, _, rfl⟩) timeoutRun fun _ _ _ => trivial)
    ⟨trivial, rfl⟩, by decide +kernel, by decide +kernel,
    fun h => absurd (h.faulted 150) (by decide +kernel), by decide +kernel⟩

end Culina.FailureReport
