import Culina.AcknowledgedShutdown
import Culina.Lid
import Culina.Restart

/-!
Outputs off. What the flags of the controller stand for holds in every state of the two
processors, so a session starts or comes to rest only over outputs that are off.
-/
namespace Culina.OutputsOff

open Wire Drives Ports Client McuClient Cooking CookingController Packets Appliance Runs
open AcknowledgedShutdown Lid Sessions
open Commands hiding Reply

/-- What travels back to the client: an answer to a packet the handler has handled, a response
only if the handler accepted it, or a frame that is no answer at all. -/
def Answers (handled : List Handling) (reply : Reply) : Prop :=
  match reply.origin with
  | none => reply.frame.type ≠ .response ∧ reply.frame.type ≠ .nack
  | some packet => reply.frame.seq = BitVec.ofNat 8 packet.stamp ∧
      ∃ entry ∈ handled, entry.packet = packet ∧
        (reply.frame.type = .response → entry.Accepted reply.frame.msgId)

theorem Answers.mono {handled handled' : List Handling} {reply : Reply}
    (h : Answers handled reply) (hmem : ∀ entry ∈ handled, entry ∈ handled') :
    Answers handled' reply := by
  unfold Answers at h ⊢
  cases horigin : reply.origin with
  | none => simpa only [horigin] using h
  | some packet =>
    simp only [horigin] at h ⊢
    obtain ⟨hseq, entry, hentry, hanswered⟩ := h
    exact ⟨hseq, entry, hmem entry hentry, hanswered⟩

/-- A reply to a handled packet shows a number that the client has drawn. -/
theorem Answers.echoes {handled : List Handling} {reply : Reply} (h : Answers handled reply)
    {count : ℕ} (hbelow : ∀ entry ∈ handled, entry.packet.stamp < count) : reply.Echoes count := by
  unfold Answers at h
  unfold Reply.Echoes
  cases horigin : reply.origin with
  | none => simpa only [horigin] using h
  | some packet =>
    simp only [horigin] at h ⊢
    obtain ⟨hseq, entry, hentry, hpacket, -⟩ := h
    exact ⟨hpacket ▸ hbelow entry hentry, hseq⟩

theorem answers_replyTo {packet : Packet} {reply : Commands.Reply} {handled : List Handling}
    (hshown : packet.frame.seq = BitVec.ofNat 8 packet.stamp) :
    Answers (handled ++ [⟨packet, some reply⟩]) (replyTo packet reply) := by
  refine ⟨hshown, ⟨packet, some reply⟩, List.mem_append_right _ (List.mem_singleton_self _), rfl, ?_⟩
  intro htype
  refine ⟨rfl, reply.payload, ?_⟩
  obtain ⟨type, payload⟩ := reply
  cases htype
  rfl

variable {H P : Type}

/-- The invariant of the two processors. -/
structure Inv [Board H] (s : Device H P) : Prop where
  sound : Sound s.controller s.controller.sense.1 s.handled s.mark
  marked : s.mark ≤ s.handled.length
  answers : ∀ reply ∈ s.replies, Answers s.handled reply
  witnessed : Witnessed s.handler s.handled

theorem sense_keeps (c c' : CookingController FrameLink P)
    (hready : c'.mcu.responseReady = c.mcu.responseReady)
    (hresponse : c'.mcu.response = c.mcu.response) : c'.sense.1 = c.sense.1 := by
  rw [sense_fst, sense_fst, hready, hresponse]

theorem sound_settled {c : CookingController FrameLink P} {handled : List Handling} {mark : ℕ}
    (h : Sound c none handled mark) : Sound c c.sense.1 handled mark := by
  have hnone : c.sense.1 = none := by
    rw [sense_fst, h.unready]
    rfl
  rw [hnone]
  exact h

variable [Board H]

/-- Replies that wait before the client claim nothing. -/
theorem loaded_sound {s : Device H P} (h : Inv s) (count : ℕ) :
    Sound (loaded s count) s.controller.sense.1 s.handled s.mark := by
  have hsound := h.sound
  refine ⟨⟨hsound.numbered.ordered, hsound.numbered.pending⟩, hsound.ready, hsound.taken,
    ⟨hsound.inOrder.heaterDone, hsound.inOrder.motorSent, hsound.inOrder.motorDone⟩,
    hsound.onlyStops, hsound.running, ?_⟩
  exact hsound.backed.mono hsound.inOrder ⟨rfl, rfl, rfl, rfl⟩ (fun _ hmem => hmem) rfl
    (fun _ _ hmem => Or.inl hmem) fun _ _ _ hexpects => ⟨hexpects.waiting, hexpects.held⟩

section

variable [Program FrameLink P]

omit [Program FrameLink P] in
/-- A response that the poll matches comes from a command the handler accepted. -/
theorem ackedFrom_of_matches {s : Device H P} (h : Inv s) {now : Millis} {count number : ℕ} {id : MsgId}
    (hfresh : ∀ reply ∈ s.replies.take count,
      reply.Fresh (drawn ((loaded s count).mcu.pollTimers now)))
    (hexpects : Expects (loaded s count).mcu s.controller.sense.1 s.handled id number) {frame : Frame}
    (hmem : frame ∈ (loaded s count).mcu.link.inbox)
    (hmatches : ((loaded s count).mcu.pollTimers now).Matches frame)
    (htype : frame.type = .response) : AckedFrom s.handled id number := by
  have hsound := loaded_sound h count
  have htimed := pollTimers_timed (loaded s count).mcu now
  have hgrown := drawn_timed_le htimed
  have hnumbered := hsound.numbered.timed htimed
  have hmatched := hmatches
  obtain ⟨-, hwaiting, hmsgId, -⟩ := hmatched
  obtain ⟨hout, hsame⟩ := waiting_of_timed htimed hwaiting
  obtain ⟨reply, hreply, rfl⟩ := List.mem_map.mp hmem
  have hanswers := h.answers reply (List.mem_of_mem_take hreply)
  have hechoes := hanswers.echoes fun entry hentry => (hsound.recent entry hentry).trans_le hgrown
  obtain ⟨packet, horigin, hlast⟩ :=
    hnumbered.origin_of_matches hechoes (hfresh reply hreply) hmatches
  unfold Answers at hanswers
  simp only [horigin] at hanswers
  obtain ⟨-, entry, hentry, rfl, haccepted⟩ := hanswers
  obtain ⟨hpending, hlt⟩ := hexpects.waiting hout
  refine ⟨entry, hentry, ?_, by omega⟩
  rw [← hpending, ← hsame, ← hmsgId]
  exact haccepted htype

/-- The poll takes in replies, and sends again only what was sent before. -/
theorem inv_poll {s : Device H P} (h : Inv s) (now : Millis) (count : ℕ)
    (hfresh : ∀ reply ∈ s.replies.take count,
      reply.Fresh (drawn ((loaded s count).mcu.pollTimers now))) :
    Inv (next s (.poll now count)) := by
  refine ⟨?_, h.marked, fun reply hmem => h.answers reply (List.mem_of_mem_drop hmem), h.witnessed⟩
  have hsound := loaded_sound h count
  obtain ⟨hnumbered, hgrown⟩ := hsound.numbered.poll now
  refine ⟨hnumbered, ?_, ?_, ⟨hsound.inOrder.heaterDone, hsound.inOrder.motorSent,
    hsound.inOrder.motorDone⟩, ?_, hsound.running, ?_⟩
  · intro hready
    exact (sense_fst _).trans (if_pos hready)
  · intro hwaiting
    obtain ⟨hout, -, hsame⟩ := poll_waiting hwaiting
    have hunready : (loaded s count).mcu.responseReady ≠ true := by
      intro hready
      cases (hsound.taken hout).symm.trans (hsound.ready hready)
    refine (sense_fst _).trans (if_neg ?_)
    exact fun hready => hunready (hsame.symm.trans hready)
  · intro hsent hwaiting
    obtain ⟨hout, hmsgId, -⟩ := poll_waiting hwaiting
    have hstops := hsound.onlyStops hsent hout
    rwa [← hmsgId] at hstops
  · refine hsound.backed.mono hsound.inOrder ⟨rfl, rfl, rfl, rfl⟩ (fun _ hmem => hmem) rfl ?_ ?_
    · intro hsent packet hmem
      rcases List.mem_append.mp hmem with hhandled | hout
      · exact Or.inl (List.mem_append_left _ hhandled)
      · rcases poll_outbox _ now packet hout with hold | hping | ⟨hwaiting, hmsgId⟩
        · exact Or.inl (List.mem_append_right _ hold)
        · right
          rw [Harmless, hping]
          decide
        · right
          rw [Harmless, hmsgId]
          rcases hsound.onlyStops hsent hwaiting with hoff | hstop
          · rw [hoff]
            decide
          · rw [hstop]
            decide
    · intro id number _ hexpects
      constructor
      · intro hwaiting
        obtain ⟨hout, hmsgId, -⟩ := poll_waiting hwaiting
        obtain ⟨hpending, hlt⟩ := hexpects.waiting hout
        exact ⟨hmsgId.trans hpending, hlt.trans_le hgrown⟩
      · intro answer hheld htype
        have hready : ((loaded s count).mcu.poll now).responseReady = true := by
          by_contra hunready
          rw [sense_fst] at hheld
          cases hheld.symm.trans (if_neg hunready)
        have hanswer : answer = ((loaded s count).mcu.poll now).response := by
          rw [sense_fst] at hheld
          cases hheld.symm.trans (if_pos hready)
          rfl
        rcases poll_ready hready with ⟨hold, hsame⟩ | ⟨frame, hmem, hmatches, hsame⟩
        · rw [hanswer, hsame] at htype
          exact hexpects.held _ (hsound.ready hold) htype
        · rw [hanswer, hsame] at htype
          exact ackedFrom_of_matches h hfresh hexpects hmem hmatches htype

theorem inv_tick {s : Device H P} (h : Inv s) (now : Millis) : Inv (next s (.tick now)) := by
  refine ⟨sound_settled (h.sound.tick10ms now).1, ?_, h.answers, h.witnessed⟩
  change (if TickBegins s.controller now then s.handled.length else s.mark) ≤ s.handled.length
  split
  · exact le_rfl
  · exact h.marked

theorem inv_start {s : Device H P} (h : Inv s) (program : Option P) :
    Inv (next s (.start program)) := by
  cases program with
  | none => exact h
  | some program =>
    by_cases hengaged : s.controller.Engaged
    · have hrefused : s.controller.startProgram (some program) = (.notReady, s.controller) :=
        if_pos hengaged
      have hsame : next s (.start (some program)) = s := by
        simp [next, hrefused]
      rw [hsame]
      exact h
    · have hstarted : s.controller.startProgram (some program) =
          (.ok, { s.controller.beginShutdown false with
            pendingProgram := some program, startAfterShutdown := true }) := if_neg hengaged
      have hnext : next s (.start (some program)) =
          { s with
            controller := { s.controller.beginShutdown false with
              pendingProgram := some program, startAfterShutdown := true }
            mark := s.handled.length } := by
        simp [next, hstarted]
      rw [hnext]
      have hsound := h.sound
      rw [← sense_keeps s.controller { s.controller.beginShutdown false with
        pendingProgram := some program, startAfterShutdown := true } rfl rfl] at hsound
      refine ⟨sound_of_unsent ⟨hsound.numbered.ordered, hsound.numbered.pending⟩ hsound.ready
        hsound.taken ⟨?_, ?_, ?_⟩ rfl, le_rfl, h.answers, h.witnessed⟩
      · exact fun hdone => (by cases hdone)
      · exact fun hsent => (by cases hsent)
      · exact fun hdone => (by cases hdone)

theorem inv_stop {s : Device H P} (h : Inv s) : Inv (next s .stop) := by
  have hsound := h.sound
  by_cases hpending : s.controller.state = .stopping ∧ s.controller.startAfterShutdown = true
  · have hnext : next s .stop = { s with
        controller := { s.controller with startAfterShutdown := false, pendingProgram := none } } := by
      simp [next, stop, hpending]
    rw [hnext]
    rw [← sense_keeps s.controller { s.controller with
      startAfterShutdown := false, pendingProgram := none } rfl rfl] at hsound
    exact ⟨⟨hsound.numbered, hsound.ready, hsound.taken, ⟨hsound.inOrder.heaterDone,
      hsound.inOrder.motorSent, hsound.inOrder.motorDone⟩, hsound.onlyStops, hsound.running,
      ⟨hsound.backed.heater, hsound.backed.motor⟩⟩, h.marked, h.answers, h.witnessed⟩
  · by_cases hbegins : s.controller.state ≠ .stopping ∧ s.controller.state ≠ .faulted
    · have hnext : next s .stop = { s with
          controller := s.controller.beginShutdown false, mark := s.handled.length } := by
        simp [next, stop, hbegins]
      rw [hnext]
      rw [← sense_keeps s.controller (s.controller.beginShutdown false) rfl rfl] at hsound
      exact ⟨sound_of_unsent ⟨hsound.numbered.ordered, hsound.numbered.pending⟩ hsound.ready
        hsound.taken (inOrder_beginShutdown s.controller false) rfl, le_rfl, h.answers, h.witnessed⟩
    · have hnext : next s .stop = s := by
        simp only [next, stop, if_neg hpending, if_neg hbegins]
      rw [hnext]
      exact h

/-- The safety processor takes the next packet: nothing sent is lost, and what it accepts is on
record. -/
theorem inv_handle {s : Device H P} (h : Inv s) (state : Inputs) (faulted : Bool) :
    Inv (next s (.handle state faulted)) := by
  cases hout : outbox s with
  | nil =>
    have hnext : next s (.handle state faulted) = s := by simp [next, hout]
    rw [hnext]
    exact h
  | cons packet rest =>
    have hnext : next s (.handle state faulted) =
        { s with
          controller := setOutbox s.controller rest
          handler := (s.handler.execute packet.frame state faulted).2
          replies := s.replies ++
            ((s.handler.execute packet.frame state faulted).1.map (replyTo packet)).toList
          handled := s.handled ++ [⟨packet, (s.handler.execute packet.frame state faulted).1⟩] } := by
      simp [next, hout]
    rw [hnext]
    have hsound := h.sound
    rw [← sense_keeps s.controller (setOutbox s.controller rest) rfl rfl] at hsound
    have hmem : ∀ entry ∈ s.handled, entry ∈ s.handled ++
        [⟨packet, (s.handler.execute packet.frame state faulted).1⟩] :=
      fun entry => List.mem_append_left _
    have htrail : ∀ reply, trail (s.handled ++ [⟨packet, reply⟩]) (setOutbox s.controller rest).mcu =
        trail s.handled s.controller.mcu := by
      intro reply
      have hlink : s.controller.mcu.link.outbox = packet :: rest := hout
      simp [trail, setOutbox, hlink]
    have hordered := hsound.numbered.ordered
    refine ⟨⟨⟨?_, hsound.numbered.pending⟩, hsound.ready, hsound.taken,
      ⟨hsound.inOrder.heaterDone, hsound.inOrder.motorSent, hsound.inOrder.motorDone⟩,
      hsound.onlyStops, hsound.running, ?_⟩, ?_, ?_, h.witnessed.handle packet state faulted⟩
    · change Ordered _ (trail _ _)
      rw [htrail]
      exact hordered
    · refine hsound.backed.mono hsound.inOrder ⟨rfl, rfl, rfl, rfl⟩ hmem ?_ ?_ ?_
      · exact List.take_append_of_le_length h.marked
      · intro _ sent hsent
        rw [htrail] at hsent
        exact Or.inl hsent
      · intro id number _ hexpects
        exact ⟨hexpects.waiting, fun answer hheld htype => (hexpects.held answer hheld htype).mono hmem⟩
    · have hmarked := h.marked
      simp only [List.length_append]
      omega
    · intro reply hreply
      rcases List.mem_append.mp hreply with hold | hnew
      · exact (h.answers reply hold).mono hmem
      · rw [Option.mem_toList, Option.map_eq_some_iff] at hnew
        obtain ⟨answer, hanswer, rfl⟩ := hnew
        rw [hanswer]
        refine answers_replyTo (hordered.shown packet ?_)
        refine List.mem_append_right _ ?_
        change packet ∈ outbox s
        rw [hout]
        exact List.mem_cons_self

omit [Board H] [Program FrameLink P] in
/-- What else happens to the devices of the safety processor switches nothing on. -/
theorem witnessed_of_le {handler handler' : CommandHandler H} {handled : List Handling}
    (h : Witnessed handler handled) (hheater : handler'.pid.enabled = true → handler.pid.enabled = true)
    (hmotor : handler'.motor.targetRpm ≤ handler.motor.targetRpm) : Witnessed handler' handled := by
  refine ⟨fun henabled => h.heater (hheater henabled), fun htarget => h.motor ?_⟩
  omega

theorem inv_keepRequests {s : Device H P} (h : Inv s) {kept : List Packet}
    (hkept : kept.Sublist (outbox s)) : Inv (next s (.keepRequests kept)) := by
  have hsound := h.sound
  rw [← sense_keeps s.controller (setOutbox s.controller kept) rfl rfl] at hsound
  have htrail : (trail s.handled (setOutbox s.controller kept).mcu).Sublist
      (trail s.handled s.controller.mcu) := (List.Sublist.refl _).append hkept
  refine ⟨⟨⟨hsound.numbered.ordered.sublist htrail, hsound.numbered.pending⟩, hsound.ready,
    hsound.taken, ⟨hsound.inOrder.heaterDone, hsound.inOrder.motorSent, hsound.inOrder.motorDone⟩,
    hsound.onlyStops, hsound.running, ?_⟩, h.marked, h.answers, h.witnessed⟩
  exact hsound.backed.mono hsound.inOrder ⟨rfl, rfl, rfl, rfl⟩ (fun _ hmem => hmem) rfl
    (fun _ packet hmem => Or.inl (htrail.subset hmem))
    fun _ _ _ hexpects => ⟨hexpects.waiting, hexpects.held⟩

theorem inv_step {s : Device H P} (h : Inv s) (action : Action H P) (henabled : Enabled s action) :
    Inv (next s action) := by
  cases action with
  | tick now => exact inv_tick h now
  | poll now count => exact inv_poll h now count henabled
  | start program => exact inv_start h program
  | stop => exact inv_stop h
  | userNext =>
    have hsound := h.sound
    rw [← sense_keeps s.controller s.controller.userNext rfl rfl] at hsound
    exact ⟨⟨hsound.numbered, hsound.ready, hsound.taken, ⟨hsound.inOrder.heaterDone,
      hsound.inOrder.motorSent, hsound.inOrder.motorDone⟩, hsound.onlyStops, hsound.running,
      ⟨hsound.backed.heater, hsound.backed.motor⟩⟩, h.marked, h.answers, h.witnessed⟩
  | handle state faulted => exact inv_handle h state faulted
  | cap rpm =>
    refine ⟨h.sound, h.marked, h.answers, witnessed_of_le h.witnessed id ?_⟩
    change (if _ then _ else _) ≤ _
    split
    · omega
    · exact le_rfl
  | drive => exact ⟨h.sound, h.marked, h.answers, witnessed_of_le h.witnessed id le_rfl⟩
  | heat measuredC dtSeconds =>
    refine ⟨h.sound, h.marked, h.answers, witnessed_of_le h.witnessed ?_ le_rfl⟩
    intro henabled
    rwa [← HeaterPid.update_enabled s.handler.pid measuredC dtSeconds]
  | sense board => exact ⟨h.sound, h.marked, h.answers, witnessed_of_le h.witnessed id le_rfl⟩
  | stopMotor =>
    exact ⟨h.sound, h.marked, h.answers, witnessed_of_le h.witnessed id (Nat.zero_le _)⟩
  | disableHeater =>
    exact ⟨h.sound, h.marked, h.answers, witnessed_of_le h.witnessed (fun h => (by cases h)) le_rfl⟩
  | tell frame =>
    refine ⟨h.sound, h.marked, ?_, h.witnessed⟩
    intro reply hreply
    rcases List.mem_append.mp hreply with hold | hnew
    · exact h.answers reply hold
    · rw [List.mem_singleton] at hnew
      subst hnew
      exact henabled
  | keepRequests kept => exact inv_keepRequests h henabled
  | keepReplies kept =>
    exact ⟨h.sound, h.marked, fun reply hreply => h.answers reply (henabled.subset hreply),
      h.witnessed⟩

/-! Where sessions begin and end. -/

omit [Board H] [Program FrameLink P] in
theorem not_enters_of_same {c c' : CookingController FrameLink P} (hstate : c'.state = c.state)
    (hmotor : c'.shutdownMotorDone = c.shutdownMotorDone) : ¬ Enters c c' := by
  rintro (⟨hresting, hrunning⟩ | ⟨hresting, hdone⟩ | ⟨hincomplete, hfaulted, hdone⟩)
  · exact hresting (hstate.symm.trans hrunning)
  · exact hresting (hstate.symm.trans hdone)
  · exact hincomplete ⟨hstate.symm.trans hfaulted, hmotor.symm.trans hdone⟩

omit [Board H] [Program FrameLink P] in
theorem not_enters_stopping {c c' : CookingController FrameLink P} (hstate : c'.state = .stopping) :
    ¬ Enters c c' := by
  rintro (⟨-, hrunning⟩ | ⟨-, hdone⟩ | ⟨-, hfaulted, -⟩)
  · cases hstate.symm.trans hrunning
  · cases hstate.symm.trans hdone
  · cases hstate.symm.trans hfaulted

omit [Board H] [Program FrameLink P] in
theorem not_enters_start (c : CookingController FrameLink P) (program : Option P) :
    ¬ Enters c (c.startProgram program).2 := by
  cases program with
  | none => exact not_enters_of_same rfl rfl
  | some program =>
    by_cases hengaged : c.Engaged
    · have hrefused : c.startProgram (some program) = (.notReady, c) := if_pos hengaged
      rw [hrefused]
      exact not_enters_of_same rfl rfl
    · have hstate : (c.startProgram (some program)).2.state = .stopping := by
        simp [startProgram, hengaged, beginShutdown]
      exact not_enters_stopping hstate

omit [Board H] [Program FrameLink P] in
theorem not_enters_stop (c : CookingController FrameLink P) : ¬ Enters c c.stop := by
  unfold stop
  split
  · exact not_enters_of_same rfl rfl
  · split
    · exact not_enters_stopping rfl
    · exact not_enters_of_same rfl rfl

/-- Only a tick starts a session or lets one come to rest. -/
theorem tick_of_enters {s : Device H P} {action : Action H P}
    (h : Enters s.controller (next s action).controller) : ∃ now, action = .tick now := by
  cases action with
  | tick now => exact ⟨now, rfl⟩
  | start program => exact absurd h (not_enters_start s.controller program)
  | stop => exact absurd h (not_enters_stop s.controller)
  | handle state faulted =>
    refine absurd h ?_
    cases hout : outbox s with
    | nil =>
      have hnext : next s (.handle state faulted) = s := by simp [next, hout]
      rw [hnext]
      exact not_enters_of_same rfl rfl
    | cons packet rest =>
      have hnext : (next s (.handle state faulted)).controller = setOutbox s.controller rest := by
        simp [next, hout]
      rw [hnext]
      exact not_enters_of_same rfl rfl
  | poll now count => exact absurd h (not_enters_of_same rfl rfl)
  | userNext => exact absurd h (not_enters_of_same rfl rfl)
  | cap rpm => exact absurd h (not_enters_of_same rfl rfl)
  | drive => exact absurd h (not_enters_of_same rfl rfl)
  | heat measuredC dtSeconds => exact absurd h (not_enters_of_same rfl rfl)
  | sense board => exact absurd h (not_enters_of_same rfl rfl)
  | stopMotor => exact absurd h (not_enters_of_same rfl rfl)
  | disableHeater => exact absurd h (not_enters_of_same rfl rfl)
  | tell frame => exact absurd h (not_enters_of_same rfl rfl)
  | keepRequests kept => exact absurd h (not_enters_of_same rfl rfl)
  | keepReplies kept => exact absurd h (not_enters_of_same rfl rfl)

omit [Program FrameLink P] in
theorem inv_initial {s : Device H P} (h : Initial s) : Inv s := by
  obtain ⟨accepts, ota, board, rfl⟩ := h
  refine ⟨?_, le_rfl, fun _ hmem => absurd hmem List.not_mem_nil, ?_⟩
  · refine sound_of_unsent ⟨⟨?_, List.Pairwise.nil, ?_⟩, ?_⟩ ?_ ?_ ⟨?_, ?_, ?_⟩ rfl
    · exact fun _ hmem => absurd hmem List.not_mem_nil
    · exact fun _ hmem => absurd hmem List.not_mem_nil
    · exact fun hwaiting => (by cases hwaiting)
    · exact fun hready => (by cases hready)
    · exact fun hwaiting => (by cases hwaiting)
    · exact fun hdone => (by cases hdone)
    · exact fun hsent => (by cases hsent)
    · exact fun hdone => (by cases hdone)
  · exact ⟨fun henabled => (by cases henabled), fun htarget => absurd rfl htarget⟩

theorem inv_reachable {s : Device H P} (h : Reachable Initial (Guarded Enabled next) s) : Inv s := by
  refine h.keeps Inv (fun _ => inv_initial) ?_
  rintro s action _ hinv ⟨henabled, rfl⟩
  exact inv_step hinv action henabled

/-- A controller that starts a session or comes to rest does so over outputs that are off. -/
theorem acknowledged_shutdown {s : Device H P} (h : Reachable Initial (Guarded Enabled next) s)
    (action : Action H P) (henabled : Enabled s action)
    (henters : Enters s.controller (next s action).controller) : ShutDown (next s action) := by
  have hinv := inv_reachable h
  have hnext := inv_step hinv action henabled
  obtain ⟨now, rfl⟩ := tick_of_enters henters
  exact ((hinv.sound.tick10ms now).2 henters).shutDown hnext.sound.numbered hnext.witnessed

end

/-! A session that starts. -/

def idle : Device (SimBoard SteadySensors) ManualMode :=
  { controller := Sessions.initial {} none, handler := { board := { sensors := {} } } }

/-- The start of a program up to the acknowledgement of its second command. -/
def startRun : List (Action (SimBoard SteadySensors) ManualMode) :=
  [.start (some Restart.simmer), .tick 10, .handle {} false, .poll 11 1, .tick 20, .handle {} false,
    .poll 21 1]

theorem fresh_of_le {count : ℕ} (hcount : count ≤ 256) (reply : Reply) : reply.Fresh count := by
  intro packet _
  omega

theorem reachable_started :
    Reachable Initial (Guarded Enabled next) (startRun.foldl next idle) := by
  have hidle : Reachable Initial (Guarded Enabled next) idle := Reachable.init ⟨_, _, _, rfl⟩
  have hoff := ((hidle.next (.start (some Restart.simmer)) trivial).next (.tick 10) trivial).next
    (.handle {} false) trivial
  have hheard := hoff.next (.poll 11 1) fun reply _ => fresh_of_le (by decide +kernel) reply
  have hstop := (hheard.next (.tick 20) trivial).next (.handle {} false) trivial
  exact hstop.next (.poll 21 1) fun reply _ => fresh_of_le (by decide +kernel) reply

theorem acknowledged_shutdown_started :
    ShutDown (next (startRun.foldl next idle) (.tick 30)) :=
  acknowledged_shutdown reachable_started (.tick 30) trivial
    (Or.inl ⟨by decide +kernel, by decide +kernel⟩)

end Culina.OutputsOff
