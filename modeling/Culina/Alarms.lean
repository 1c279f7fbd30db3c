import Culina.FaultEntries
import Culina.Freshness
import Culina.SessionTime

/-!
Alarms. A fault that the safety processor enters is on the display side in the same millisecond, and the
controller gives up its session at its next tick, whatever the user does in between. It never runs a
program again.
-/
namespace Culina.Alarms

open Wire Writer Drives Ports Commands Safety SafetyMcu Supervision SerialLink WholeFrames FaultEntries FaultLatch
open Lid Plant MainLoop Client McuClient Cooking CookingController Sessions Replies
open Simulator Lockstep Device RemoteCalls Freshness ShutdownTime SessionTime Runs

/-! The tick that enters a fault. -/

section Ticks

variable {K H : Type} [LinkPort K] [Board H] {s : SafetyMcu K H} {code : FaultCode} {now : Millis}

theorem frameStage_telemetry (s : SafetyMcu K H) (now : Millis) : (s.frameStage now).1.telemetry = s.telemetry := by
  refine pollFrames_keeps s now (fun t _ => t.telemetry = s.telemetry) _ (fun _ _ _ h => h)
    (fun t frame _ h => ?_) [] rfl
  have hsame : (t.handleFrame frame now).telemetry = t.telemetry := rfl
  rw [hsame]
  exact h

/-- Behind the checks the code is latched, and held for the report. -/
theorem judge_entered (hentered : entries s now = [code]) :
    ((looped s now).judge now).fault = code ∧
      ((looped s now).judge now).telemetry.pendingFault = code := by
  unfold entries at hentered
  rw [judge, linkStage_entry]
  cases hsensor : sensorEntry s with
  | some first =>
    obtain ⟨rfl, hfault⟩ := looped_of_sensorEntry hsensor now
    have hlatched : (looped s now).fault ≠ .none := by
      rw [hfault]
      decide
    have hinter := interlockEntry_of_fault hlatched
    have hstage : (looped s now).interlockStage = looped s now := by
      rw [interlockStage_entry, hinter]
      rfl
    have htelemetry : (looped s now).telemetry.pendingFault = .sensorFailure := by
      rw [looped, frameStage_telemetry, sampleStage_entry, hsensor]
      rfl
    have hlink := linkEntry_of_fault hlatched now
    rw [hsensor, hinter, hstage, hlink] at hentered
    rw [hstage, hlink]
    cases hentered
    exact ⟨hfault, htelemetry⟩
  | none =>
    cases hinter : interlockEntry (looped s now) with
    | some first =>
      have hstage : (looped s now).interlockStage = (looped s now).enterFault first := by
        rw [interlockStage_entry, hinter]
        rfl
      rw [hsensor, hinter, hstage] at hentered
      rw [hstage]
      cases hlink : linkEntry ((looped s now).enterFault first) now with
      | some second =>
        rw [hlink] at hentered
        cases hentered
      | none =>
        rw [hlink] at hentered
        cases hentered
        exact ⟨rfl, rfl⟩
    | none =>
      cases hlink : linkEntry (looped s now).interlockStage now with
      | some second =>
        rw [hsensor, hinter, hlink] at hentered
        cases hentered
        exact ⟨rfl, rfl⟩
      | none =>
        rw [hsensor, hinter, hlink] at hentered
        cases hentered

end Ticks

/-! What the client makes of the report. -/

theorem watch_report {f : Frame} {seq : Byte} {payload : Byte}
    (h : content f = content (Frame.ofBytes .telemetry seq MsgId.fault [payload])) (now : Millis) (seen : View) :
    watch now seen f = (seen.1, payload) := by
  have hfits : [payload].length ≤ kMaxPayload := by
    rw [List.length_singleton]
    decide
  simp only [content, Prod.mk.injEq] at h
  obtain ⟨htype, -, hid, hlen, hbytes⟩ := h
  rw [Frame.bytes_ofBytes _ _ _ _ hfits] at hbytes
  have hfault : IsFault f := ⟨htype, hid, hlen⟩
  have hother : ¬ IsSample f := by
    intro hsample
    have hsame : MsgId.fault = MsgId.telemetry := hid.symm.trans hsample.2.1
    exact absurd hsame (by decide)
  have hfirst : getElem f.payload 0 kMaxPayload_pos = payload :=
    payload_of_bytes hbytes (by rw [List.length_singleton]; exact Nat.zero_lt_one) kMaxPayload_pos
  unfold watch
  rw [if_neg hother, if_pos hfault, hfirst]

/-- Samples leave the fault alone. -/
theorem watch_samples {received : List Frame} (hsamples : ∀ f ∈ received, f.msgId = MsgId.telemetry) (now : Millis)
    (seen : View) : (received.foldl (watch now) seen).2 = seen.2 := by
  induction received generalizing seen with
  | nil => rfl
  | cons f received ih =>
    obtain ⟨hsample, hsamples⟩ := List.forall_mem_cons.mp hsamples
    have hother : ¬ IsFault f := fun h => absurd (hsample.symm.trans h.2.1) (by decide)
    rw [List.foldl_cons, ih hsamples]
    unfold watch
    rw [if_neg hother]
    split <;> rfl

variable {P : Type} {s : SystemSim P} {frames : List Frame}

/-- The client shows the fault that the tick has to report, if there is one. -/
theorem Watched.lastFault {c c' : McuClient Link} (h : Watched c c' (publishing s) (soon s)) :
    c'.lastFault = if (publisher s).telemetry.pendingFault = .none then c.lastFault
      else (publisher s).telemetry.pendingFault.toByte := by
  obtain ⟨received, hreceived, hview⟩ := h
  have hfault : c'.lastFault = (received.foldl (watch (soon s)) (view c)).2 := congrArg Prod.snd hview
  have hcases := published_cases (publisher s).telemetry (telemetryData (publisher s)) (soon s)
  have hpublishing : publishing s = (published (publisher s).telemetry (telemetryData (publisher s)) (soon s)).1 :=
    publishedIn_eq _ _
  have hsplit : ∃ samples : List Frame, (∀ f ∈ samples, f.msgId = MsgId.telemetry) ∧
      publishing s = faultFrames (publisher s).telemetry ++ samples := by
    rw [hpublishing]
    split_ifs at hcases
    · exact ⟨[], fun _ hf => absurd hf List.not_mem_nil, by rw [hcases.1, List.append_nil]⟩
    · obtain ⟨⟨seq, hframes⟩, -⟩ := hcases
      exact ⟨_, List.forall_mem_singleton.mpr rfl, hframes⟩
  obtain ⟨samples, hsamples, hframes⟩ := hsplit
  rw [hframes, List.map_append] at hreceived
  obtain ⟨first, last, rfl, hfirst, hlast⟩ := List.map_eq_append_iff.mp hreceived
  have hothers : ∀ g ∈ last, g.msgId = MsgId.telemetry := by
    intro g hg
    obtain ⟨sample, hsample, hsame⟩ := List.mem_map.mp (hlast ▸ List.mem_map_of_mem hg)
    exact (congrArg (fun said => said.2.2.1) hsame).symm.trans (hsamples sample hsample)
  rw [hfault, List.foldl_append, watch_samples hothers]
  unfold faultFrames at hfirst
  by_cases hquiet : (publisher s).telemetry.pendingFault = .none
  · rw [if_neg (not_not.mpr hquiet)] at hfirst
    rw [if_pos hquiet, List.map_eq_nil_iff.mp hfirst]
    rfl
  · rw [if_pos hquiet] at hfirst
    obtain ⟨f, rfl⟩ : ∃ f, first = [f] := by
      rw [← List.length_eq_one_iff]
      have := congrArg List.length hfirst
      simpa using this
    have hsame : content f = content (Frame.ofBytes .telemetry (publisher s).telemetry.seq MsgId.fault
        [(publisher s).telemetry.pendingFault.toByte]) := List.singleton_inj.mp hfirst
    have hread := watch_report hsame (soon s) (view c)
    rw [if_neg hquiet, List.foldl_cons, List.foldl_nil, hread]

theorem polled_lastFault (hlinked : Linked s frames) (hinStep : InStep s) :
    s.polled.mcu.lastFault = if (publisher s).telemetry.pendingFault = .none then s.app.mcu.lastFault
      else (publisher s).telemetry.pendingFault.toByte := by
  have hnow := (pass_paced hinStep.paced hinStep.divider s.appToMcu).nowMs
  obtain ⟨-, hwatched, -⟩ := hlinked.polled hnow
  exact Watched.lastFault hwatched

/-- A fault that is entered in a millisecond is known to the application in it. -/
theorem polled_entered (hlinked : Linked s frames) (hinStep : InStep s) {code : FaultCode}
    (hentered : entries (found s) (soon s) = [code]) (hcode : code ≠ .none) :
    s.polled.mcu.lastFault = code.toByte := by
  have hpending : (publisher s).telemetry.pendingFault = code := by
    rw [publisher, behind, driveStage_telemetry]
    exact (judge_entered hentered).2
  rw [polled_lastFault hlinked hinStep, hpending, if_neg hcode]

/-! What the controller makes of it. -/

/-- A session that has failed shuts down as one that has. -/
def Marked (app : CookingController Link P) : Prop := app.state = .faulted → app.faultShutdown = true

section Controller

variable {app : CookingController Link P} {now : Millis}

theorem Marked.acknowledge (h : Marked app) (response : Option Frame) : Marked (app.acknowledge response) := by
  have hack := acknowledge_acknowledged app response
  generalize app.acknowledge response = app' at hack
  cases hack <;> exact h

theorem Marked.rearm (h : Marked app) : Marked app.rearm := by
  have hrearm := rearm_rearmed app
  generalize app.rearm = app' at hrearm
  cases hrearm <;> exact h

theorem Marked.proceed (h : Marked app) (now : Millis) : Marked (app.proceed now) := by
  have hproceed := proceed_proceeded app now
  generalize app.proceed now = app' at hproceed
  cases hproceed with
  | waits _ _ | heater _ _ _ | motor _ _ _ _ => exact h
  | begins _ _ _ _ _ _ => exact fun hstate => SessionState.noConfusion hstate
  | rests _ _ _ =>
    intro hstate
    by_contra hfault
    rw [if_neg hfault] at hstate
    cases hstate

theorem marked_beginShutdown (app : CookingController Link P) (faulted : Bool) :
    Marked (app.beginShutdown faulted) := by
  cases faulted with
  | true => exact fun _ => rfl
  | false => exact fun hstate => SessionState.noConfusion hstate

theorem Marked.tick10ms [Program Link P] (h : Marked app) (now : Millis) : Marked (app.tick10ms now) := by
  have hsensed : Marked app.sense.2 := h
  have hreact : Marked app.sense.2.react.stepOta := by
    unfold react
    split
    · exact marked_beginShutdown app.sense.2 true
    · exact hsensed
  have hadvance := advance_advanced app.sense.2.react.stepOta app.sense.1 now
  rw [tick10ms_eq]
  generalize app.sense.2.react.stepOta = app' at hreact hadvance ⊢
  generalize hafter : app'.advance app.sense.1 now = after at hadvance ⊢
  cases hadvance with
  | plays _ _ played =>
    cases played with
    | goesOn _ _ _ => exact hreact
    | finishes _ _ _ => exact marked_beginShutdown _ false
  | stops _ => exact ((hreact.acknowledge _).rearm).proceed now
  | rests _ _ => exact hreact

theorem request_lastFault (c : McuClient Link) (now : Millis) (id : MsgId) (payload : List Byte) :
    (c.request now id payload).2.lastFault = c.lastFault := by
  have hrequest := request_requested c now id payload
  generalize (c.request now id payload).1 = status at hrequest
  generalize (c.request now id payload).2 = c' at hrequest
  cases hrequest with
  | accepted _ => rfl
  | unsent _ _ _ _ _ => rfl
  | refused _ _ => rfl

/-- The sequence of a failed session leaves the fault as it is, and ends no other way. -/
theorem proceed_failed (hstate : app.state = .faulted) (hfault : app.faultShutdown = true) (now : Millis) :
    (app.proceed now).state = .faulted ∧ (app.proceed now).mcu.lastFault = app.mcu.lastFault := by
  have hproceed := proceed_proceeded app now
  generalize app.proceed now = app' at hproceed
  cases hproceed with
  | waits _ _ => exact ⟨hstate, rfl⟩
  | heater _ _ _ | motor _ _ _ _ => exact ⟨hstate, request_lastFault _ _ _ _⟩
  | begins _ _ _ _ _ unfaulted => exact Bool.noConfusion (hfault.symm.trans unfaulted)
  | rests _ _ _ =>
    rw [if_pos hfault]
    exact ⟨rfl, rfl⟩

/-- A controller whose client shows a fault has failed behind its next tick, and the client still shows it. -/
theorem tick10ms_failed [Program Link P] (h : Marked app) (hshown : app.mcu.lastFault ≠ noFault) (now : Millis) :
    (app.tick10ms now).state = .faulted ∧ (app.tick10ms now).mcu.lastFault = app.mcu.lastFault := by
  by_cases halarmed : app.Alarmed
  · have hsame : (app.sense.2.beginShutdown true).stepOta.mcu.lastFault = app.mcu.lastFault := by
      change app.sense.2.mcu.lastFault = _
      rw [sense_mcu]
    rw [tick10ms_alarmed halarmed, ← hsame]
    exact proceed_failed rfl rfl now
  · have hstate : app.state = .faulted := by
      by_contra hstate
      exact halarmed ⟨hstate, Or.inl hshown⟩
    have hsame : (sensed app).mcu.lastFault = app.mcu.lastFault := by rw [sensed_mcu]
    have hsensed : Marked (sensed app) := h
    have hmarked : Marked ((sensed app).acknowledge app.sense.1) := Marked.acknowledge hsensed _
    have hstate' := (acknowledge_state (sensed app) app.sense.1).trans hstate
    have hmcu := acknowledge_mcu (sensed app) app.sense.1
    rw [tick10ms_sequence halarmed (Or.inr hstate), ← hsame, ← hmcu]
    generalize (sensed app).acknowledge app.sense.1 = app' at hmarked hstate' ⊢
    have hrearm := rearm_rearmed app'
    have hrearmed := (rearm_state app').trans hstate'
    have hproceed := proceed_failed hrearmed (hmarked.rearm hrearmed) now
    refine ⟨hproceed.1, hproceed.2.trans ?_⟩
    generalize app'.rearm = app'' at hrearm
    cases hrearm <;> rfl

end Controller

/-! What the user makes of it. -/

variable [Program Link P]

/-- Between two milliseconds the session is only ever opened or stopped. -/
structure Interferes (app app' : CookingController Link P) : Prop where
  lastFault : app'.mcu.lastFault = app.mcu.lastFault
  state : app'.state = app.state ∨ app'.state = .stopping
  marked : Marked app → Marked app'

theorem next_interferes (s : SystemSim P) {action : SystemSim.Action P} (htime : isStepMs action = false) :
    Interferes s.app (s.next action).app ∧ (s.next action).appDivider = s.appDivider := by
  refine ⟨?_, ?_⟩
  · have hshutdown : Interferes s.app (s.app.beginShutdown false) :=
      ⟨rfl, Or.inr rfl, fun _ => marked_beginShutdown s.app false⟩
    have hsame : Interferes s.app s.app := ⟨rfl, Or.inl rfl, id⟩
    cases action with
    | stepMs => exact Bool.noConfusion htime
    | touch _ => exact hsame
    | userNext | verify _ _ => exact ⟨rfl, Or.inl rfl, id⟩
    | direct request =>
      refine ⟨?_, Or.inl rfl, id⟩
      change (request.issue s.app.mcu s.nowMs).2.lastFault = _
      rw [DirectRequest.issue_eq]
      exact request_lastFault _ _ _ _
    | start program =>
      change Interferes s.app (s.app.startProgram program).2
      unfold startProgram
      split
      · exact hsame
      · split
        · exact hsame
        · exact ⟨rfl, Or.inr rfl, fun _ hstate => SessionState.noConfusion hstate⟩
    | stop =>
      change Interferes s.app s.app.stop
      unfold CookingController.stop
      split
      · exact ⟨rfl, Or.inl rfl, id⟩
      · split
        · exact hshutdown
        · exact hsame
  · cases action with
    | stepMs => exact Bool.noConfusion htime
    | _ => rfl

theorem marked_of_operated (h : Operated s) : Marked s.app := by
  refine h.keeps (fun s => Marked s.app) ?_ ?_
  · intro s hs
    obtain ⟨scaleNoise, tempNoise, rfl⟩ := hs
    exact fun hstate => SessionState.noConfusion hstate
  · rintro s action s' hmarked ⟨-, rfl⟩
    cases htime : isStepMs action with
    | false => exact (next_interferes s htime).1.marked hmarked
    | true =>
      cases action with
      | stepMs =>
        change Marked s.stepMs.app
        unfold SystemSim.stepMs
        split
        · have hpolled : Marked s.polled := hmarked
          exact hpolled.tick10ms _
        · exact hmarked
      | _ => exact Bool.noConfusion htime

/-! Runs. -/

/-- The application knows of a fault. -/
def Warned (s : SystemSim P) : Prop := s.app.mcu.lastFault ≠ noFault

omit [Program Link P] in
theorem toByte_ne {code : FaultCode} (h : code ≠ .none) : code.toByte ≠ noFault := by
  cases code with
  | none => exact absurd rfl h
  | overtemp | motorStall | sensorFailure | linkLost => decide

omit [Program Link P] in
theorem Warned.polled (h : Warned s) (hlinked : Linked s frames) (hinStep : InStep s) :
    s.polled.mcu.lastFault ≠ noFault := by
  rw [polled_lastFault hlinked hinStep]
  split_ifs with hquiet
  · exact h
  · exact toByte_ne hquiet

/-- In every tenth millisecond the controller gives up its session. -/
theorem stepMs_failed (hmarked : Marked s.app) (hshown : s.polled.mcu.lastFault ≠ noFault) :
    s.stepMs.app.mcu.lastFault = s.polled.mcu.lastFault ∧
      (10 ≤ s.appDivider + 1 ∧ s.stepMs.app.state = .faulted ∨
        s.stepMs.appDivider = s.appDivider + 1 ∧ s.stepMs.app.state = s.app.state) := by
  rcases Nat.lt_or_ge (s.appDivider + 1) 10 with hearly | hlate
  · rw [stepMs_early hearly]
    exact ⟨rfl, Or.inr ⟨rfl, rfl⟩⟩
  · obtain ⟨happ, -⟩ := stepMs_late hlate
    have hpolled : Marked s.polled := hmarked
    obtain ⟨hstate, hfault⟩ := tick10ms_failed hpolled hshown s.ticked.board.sensors.nowMs
    rw [happ]
    exact ⟨hfault, Or.inl ⟨hlate, hstate⟩⟩

/-- Step lemma: the application does not forget a fault. -/
theorem Warned.next (h : Warned s) (hs : Operated s) (action : SystemSim.Action P) : Warned (s.next action) := by
  cases htime : isStepMs action with
  | false =>
    rw [Warned, (next_interferes s htime).1.lastFault]
    exact h
  | true =>
    cases action with
    | stepMs =>
      obtain ⟨frames, hlinked⟩ := linked_of_operated hs
      have hshown := Warned.polled h hlinked (inStep_of_reachable hs)
      change s.stepMs.app.mcu.lastFault ≠ noFault
      rw [(stepMs_failed (marked_of_operated hs) hshown).1]
      exact hshown
    | _ => exact Bool.noConfusion htime

/-- No program runs. -/
def Halted (s : SystemSim P) : Prop := s.app.state = .faulted ∨ s.app.state = .stopping

theorem Halted.next (h : Halted s) (hs : Operated s) (hwarned : Warned s) (action : SystemSim.Action P) :
    Halted (s.next action) := by
  cases htime : isStepMs action with
  | false =>
    rcases (next_interferes s htime).1.state with hsame | hstopping
    · rw [Halted, hsame]
      exact h
    · exact Or.inr hstopping
  | true =>
    cases action with
    | stepMs =>
      obtain ⟨frames, hlinked⟩ := linked_of_operated hs
      have hshown := Warned.polled hwarned hlinked (inStep_of_reachable hs)
      rcases (stepMs_failed (marked_of_operated hs) hshown).2 with ⟨-, hfailed⟩ | ⟨-, hsame⟩
      · exact Or.inl hfailed
      · change s.stepMs.app.state = .faulted ∨ s.stepMs.app.state = .stopping
        rw [hsame]
        exact h
    | _ => exact Bool.noConfusion htime

/-- The controller is to give up within `n` milliseconds. -/
structure Pending (n : ℕ) (s : SystemSim P) : Prop where
  operated : Operated s
  warned : Warned s
  soon : 10 ≤ n + s.appDivider

theorem Pending.pos (h : Pending 0 s) : False := by
  have := (inStep_of_reachable h.operated).divider
  have := h.soon
  omega

theorem Pending.stepMs {n : ℕ} (h : Pending (n + 1) s) : Pending n s.stepMs ∨ s.stepMs.app.state = .faulted := by
  obtain ⟨frames, hlinked⟩ := linked_of_operated h.operated
  have hshown := Warned.polled h.warned hlinked (inStep_of_reachable h.operated)
  rcases (stepMs_failed (marked_of_operated h.operated) hshown).2 with ⟨-, hfailed⟩ | ⟨hdivider, -⟩
  · exact Or.inr hfailed
  · refine Or.inl ⟨h.operated.next .stepMs trivial, h.warned.next h.operated .stepMs, ?_⟩
    have := h.soon
    omega

theorem Pending.spares {n : ℕ} (h : Pending n s) {action : SystemSim.Action P} (hallowed : s.Allowed action)
    (htime : isStepMs action = false) : Pending n (s.next action) := by
  refine ⟨h.operated.next action hallowed, h.warned.next h.operated action, ?_⟩
  rw [(next_interferes s htime).2]
  exact h.soon

/-- Run lemma: on the way of every run long enough the session fails. -/
theorem meets_faulted {n : ℕ} (h : Pending n s ∨ s.app.state = .faulted) {actions : List (SystemSim.Action P)}
    (hactions : Along SystemSim.Allowed SystemSim.next s actions) (hlong : n ≤ actions.countP isStepMs) :
    ∃ front back, actions = front ++ back ∧ front.countP isStepMs ≤ n ∧
      (front.foldl SystemSim.next s).app.state = .faulted := by
  refine Along.meets Pending (fun s => s.app.state = .faulted) (fun s hs => hs.pos) ?_ ?_ h hactions hlong
  · intro n s action _ htime hs
    cases action with
    | stepMs => exact hs.stepMs
    | _ => exact Bool.noConfusion htime
  · intro n s action hallowed htime hs
    exact Or.inl (hs.spares hallowed htime)

/-- Run lemma: behind it no program runs. -/
theorem reaches_halted {n : ℕ} (h : Pending n s ∨ Operated s ∧ Warned s ∧ Halted s)
    {actions : List (SystemSim.Action P)}
    (hactions : Along SystemSim.Allowed SystemSim.next s actions) (hlong : n ≤ actions.countP isStepMs) :
    Halted (actions.foldl SystemSim.next s) := by
  refine (Along.reaches Pending (fun s => Operated s ∧ Warned s ∧ Halted s) (fun s hs => hs.pos) ?_ ?_ ?_
    h hactions hlong).2.2
  · intro n s action hallowed htime hs
    have hwarned := hs.warned.next hs.operated action
    cases action with
    | stepMs => exact hs.stepMs.imp_right fun hfailed => ⟨hs.operated.next _ hallowed, hwarned, Or.inl hfailed⟩
    | _ => exact Bool.noConfusion htime
  · intro n s action hallowed htime hs
    exact hs.spares hallowed htime
  · rintro s action hallowed ⟨hs, hwarned, hhalted⟩
    exact ⟨hs.next action hallowed, hwarned.next hs action, hhalted.next hs hwarned action⟩

/-! Faults of the simulator. -/

/-- The processor enters the fault in the next millisecond. -/
def Enters (s : SystemSim P) (code : FaultCode) : Prop := entries (found s) (soon s) = [code]

omit [Program Link P] in
theorem Enters.ne_none {code : FaultCode} (h : Enters s code) : code ≠ .none := by
  rcases entries_cases (found s) (soon s) with hnone | ⟨code', hcode, hentered⟩
  · exact absurd (h.symm.trans hnone) (List.cons_ne_nil _ _)
  · rw [List.singleton_inj.mp (h.symm.trans hentered)]
    exact hcode

theorem Enters.latched {code : FaultCode} (h : Enters s code) : s.stepMs.rig.machine.mcu.fault = code := by
  rw [stepMs_machine, ticked_mcu, tick1ms_fault]
  exact (judge_entered h).1

/-- The sensor of the simulator answers every read, and its link is never lost. -/
theorem Enters.cause (h : Operated s) {code : FaultCode} (hentered : Enters s code) :
    code = .overtemp ∨ code = .motorStall := by
  have hsound := (inStep_of_reachable h).paced.sound
  have hbounds := (Rig.stepped_served hsound ⟨s.appToMcu, []⟩).inBounds (step_inBounds hsound.bounds)
  have hread := readDeciCelsius_working hbounds.sensor
  have hread : Board.readDeciCelsius (found s).handler.board = _ := hread
  have hmem : code ∈ entries (found s) (soon s) := by
    rw [show entries _ _ = [code] from hentered]
    exact List.mem_singleton_self code
  unfold entries at hmem
  rw [List.mem_append, List.mem_append, Option.mem_toList, Option.mem_toList, Option.mem_toList] at hmem
  rcases hmem with (hsensor | hinter) | hlink
  · have hok : (refreshed (found s)).tempSensorOk = true := by
      unfold refreshed sampleInputs
      dsimp only
      rw [hread]
    unfold sensorEntry at hsensor
    rw [if_neg fun hfailed => Bool.noConfusion (hok.symm.trans hfailed.1)] at hsensor
    cases hsensor
  · unfold interlockEntry Inputs.evaluate at hinter
    split_ifs at hinter
    all_goals cases hinter
    · exact Or.inl rfl
    · exact Or.inr rfl
    · exact absurd rfl hentered.ne_none
  · unfold linkEntry at hlink
    split_ifs at hlink
    cases hlink
    exact absurd hentered.latched (device_safe (h.next .stepMs trivial)).1

/-- A fault is on the display side in the millisecond that enters it, with the heater and the motor off; no
later than ten milliseconds on the controller has given up, whatever the user does, and it runs no program
any more. -/
theorem fault_surfaces (h : Operated s) {code : FaultCode} (hentered : Enters s code) :
    (code = .overtemp ∨ code = .motorStall) ∧
      s.stepMs.rig.board.sensors.heater.watts = 0 ∧ s.stepMs.rig.board.sensors.motor.duty = 0 ∧
      s.stepMs.app.mcu.lastFault = code.toByte ∧
      ∀ actions, Along SystemSim.Allowed SystemSim.next s.stepMs actions → 9 ≤ actions.countP isStepMs →
        (∃ front back, actions = front ++ back ∧ front.countP isStepMs ≤ 9 ∧
          (front.foldl SystemSim.next s.stepMs).app.state = .faulted) ∧
        (actions.foldl SystemSim.next s.stepMs).app.state ≠ .running := by
  have hinStep := inStep_of_reachable h
  obtain ⟨frames, hlinked⟩ := linked_of_operated h
  have hnext : Operated s.stepMs := h.next .stepMs trivial
  have hlatched : s.stepMs.rig.machine.mcu.fault ≠ .none := by
    rw [hentered.latched]
    exact hentered.ne_none
  have hshown := polled_entered hlinked hinStep hentered hentered.ne_none
  have hknown : s.polled.mcu.lastFault ≠ noFault := by
    rw [hshown]
    exact toByte_ne hentered.ne_none
  obtain ⟨hkept, hcontroller⟩ := stepMs_failed (marked_of_operated h) hknown
  have hwarned : Warned s.stepMs := by
    rw [Warned, hkept]
    exact hknown
  have hsound := (inStep_of_reachable hnext).paced.sound
  have hpending : Pending 9 s.stepMs ∨ s.stepMs.app.state = .faulted := by
    rcases hcontroller with ⟨-, hfailed⟩ | ⟨hdivider, -⟩
    · exact Or.inr hfailed
    · exact Or.inl ⟨hnext, hwarned, by omega⟩
  refine ⟨hentered.cause h, ?_, ?_, hkept.trans hshown, fun actions hactions hlong => ⟨?_, fun hrunning => ?_⟩⟩
  · rw [hsound.watts, stepMs_machine, ticked_mcu]
    refine tick1ms_powerW_latched _ ?_
    rw [← ticked_mcu, ← stepMs_machine]
    exact hlatched
  · exact hsound.duty.trans (hsound.supervised.latched hlatched).1.2.2
  · exact meets_faulted hpending hactions hlong
  · have hhalted : Halted (actions.foldl SystemSim.next s.stepMs) :=
      reaches_halted (hpending.imp_right fun hfailed => ⟨hnext, hwarned, Or.inl hfailed⟩) hactions hlong
    rw [Halted, hrunning] at hhalted
    rcases hhalted with hfailed | hstopping
    · cases hfailed
    · cases hstopping

/-- The motor is turned on in a bowl that it cannot stir. -/
def stuck : SystemSim ManualMode :=
  ((quiet.next (.direct (.setMotor 500 0))).next (.touch (.add 0 1000000000))).next .stepMs

theorem stuck_operated : Operated stuck := by
  refine ((quiet_operated.next (.direct (.setMotor 500 0)) trivial).next (.touch (.add 0 1000000000)) ?_).next
    .stepMs trivial
  exact ⟨le_rfl, by decide +kernel⟩

theorem fault_surfaces_stuck : 0 < stuck.rig.board.sensors.motor.duty ∧
    stuck.stepMs.rig.board.sensors.motor.duty = 0 ∧ stuck.stepMs.app.mcu.lastFault = 2 := by
  have hentered : Enters stuck .motorStall := by
    unfold Enters
    decide +kernel
  have hsurfaces := fault_surfaces stuck_operated hentered
  exact ⟨by decide +kernel, hsurfaces.2.2.1, hsurfaces.2.2.2.1⟩

end Culina.Alarms
