import Culina.RecipeCommands

/-!
Weigh steps and the tare. The recipe goes on when the tare is sent, while the samples on their way
were measured before it. Over channels that keep their order and lose nothing, a sample was measured
after the tare exactly when it reaches the client behind the tare's response; a weigh step that comes
before such a sample is completed by whatever stood in the bowl.
-/
namespace Culina.WeighSteps

open Wire Ports Client McuClient Cooking CookingController Packets Runs Programs RecipeParser
open Appliance hiding next
open RecipeCommands hiding Permitted

/-! One tare at a time. -/

def IsTareAnswer (frame : Frame) : Prop :=
  (frame.type = .response ∨ frame.type = .nack) ∧ frame.msgId = MsgId.scaleTare

instance (frame : Frame) : Decidable (IsTareAnswer frame) := inferInstanceAs (Decidable (_ ∧ _))

/-- The numbers of the tares on their way to the handler. -/
def asked (outbox : List Packet) : List Byte :=
  (outbox.filter fun packet => packet.frame.msgId = MsgId.scaleTare).map fun packet => packet.frame.seq

/-- The numbers of the answers on their way back. -/
def answers (replies : List Reply) : List Byte :=
  (replies.filter fun reply => IsTareAnswer reply.frame).map fun reply => reply.frame.seq

/-- A tare on its way is the outstanding request. -/
structure Orderly (c : McuClient FrameLink) (replies : List Reply) : Prop where
  started : c.waiting = true → c.requestStartedMs = c.sentAtMs
  one : asked c.link.outbox ++ answers replies = [] ∨
    (asked c.link.outbox ++ answers replies = [c.pendingSeq] ∧ c.waiting = true ∧
      c.pendingMsgId = MsgId.scaleTare)

theorem asked_append (outbox outbox' : List Packet) :
    asked (outbox ++ outbox') = asked outbox ++ asked outbox' := by
  unfold asked
  rw [List.filter_append, List.map_append]

theorem answers_append (replies replies' : List Reply) :
    answers (replies ++ replies') = answers replies ++ answers replies' := by
  unfold answers
  rw [List.filter_append, List.map_append]

theorem asked_singleton (packet : Packet) : asked [packet] =
    if packet.frame.msgId = MsgId.scaleTare then [packet.frame.seq] else [] := by
  unfold asked
  by_cases htare : packet.frame.msgId = MsgId.scaleTare <;> simp [htare]

theorem answers_singleton (reply : Reply) : answers [reply] =
    if IsTareAnswer reply.frame then [reply.frame.seq] else [] := by
  unfold answers
  by_cases htare : IsTareAnswer reply.frame <;> simp [htare]

theorem mem_answers {replies : List Reply} {reply : Reply} (hmem : reply ∈ replies)
    (htare : IsTareAnswer reply.frame) : reply.frame.seq ∈ answers replies :=
  List.mem_map_of_mem (List.mem_filter.mpr ⟨hmem, decide_eq_true htare⟩)

theorem Orderly.idle {c : McuClient FrameLink} {replies : List Reply} (h : Orderly c replies)
    (hidle : c.waiting = false) : asked c.link.outbox = [] ∧ answers replies = [] := by
  rcases h.one with hnone | ⟨-, hwaiting, -⟩
  · exact List.append_eq_nil_iff.mp hnone
  · exact Bool.noConfusion (hidle.symm.trans hwaiting)

theorem Orderly.request {c : McuClient FrameLink} {replies : List Reply} (h : Orderly c replies)
    (now : Millis) (id : MsgId) (payload : List Byte) :
    Orderly (c.request now id payload).2 replies := by
  have hrequest := request_requested c now id payload
  generalize (c.request now id payload).1 = status at hrequest
  generalize (c.request now id payload).2 = c' at hrequest
  cases hrequest with
  | accepted accepts =>
    refine ⟨fun _ => rfl, ?_⟩
    obtain ⟨hasked, hanswers⟩ := h.idle accepts.idle
    have houtbox : (c.accepted now id payload).link.outbox = c.link.outbox ++ [packet c id payload] := by
      change (tried c id payload).outbox = _
      rw [tried_outbox, if_pos accepts.sent]
    rw [houtbox, asked_append, hasked, hanswers, asked_singleton, List.append_nil, List.nil_append]
    by_cases htare : id = MsgId.scaleTare
    · exact Or.inr ⟨if_pos htare, rfl, htare⟩
    · exact Or.inl (if_neg htare)
  | unsent _ idle _ sends failed =>
    refine ⟨h.started, Or.inl ?_⟩
    obtain ⟨hasked, hanswers⟩ := h.idle idle
    have houtbox := @untried_outbox c id payload (sends ▸ failed)
    change asked (tried c id payload).outbox ++ _ = []
    rw [houtbox, hasked, hanswers]
    rfl
  | refused _ _ => exact h

/-- Taking in the first replies. -/
theorem Orderly.heard {c c' : McuClient FrameLink} {replies : List Reply} (h : Orderly c replies)
    (count : ℕ) (hheard : Heard c ((replies.take count).map Reply.frame) c') :
    Orderly c' (replies.drop count) := by
  have hsplit : answers replies = answers (replies.take count) ++ answers (replies.drop count) := by
    rw [← answers_append, List.take_append_drop]
  have hone := h.one
  rw [hsplit] at hone
  have hmatches {frame : Frame} (hpending : c.waiting = true ∧ c.pendingMsgId = MsgId.scaleTare)
      (hseq : frame.seq = c.pendingSeq) (htare : IsTareAnswer frame) : c.Matches frame :=
    ⟨htare.1, hpending.1, htare.2.trans hpending.2.symm, hseq⟩
  cases hheard with
  | nothing store lastFault unmatched =>
    refine ⟨h.started, ?_⟩
    rcases hone with hnone | ⟨hone, hpending⟩
    · left
      rw [List.append_eq_nil_iff, List.append_eq_nil_iff] at hnone
      exact List.append_eq_nil_iff.mpr ⟨hnone.1, hnone.2.2⟩
    · right
      have htaken : answers (replies.take count) = [] := by
        by_contra hne
        obtain ⟨seq, hseq⟩ := List.exists_mem_of_ne_nil _ hne
        have hpendingSeq : seq = c.pendingSeq := by
          have hmem : seq ∈ asked c.link.outbox ++ (answers (replies.take count) ++
              answers (replies.drop count)) :=
            List.mem_append_right _ (List.mem_append_left _ hseq)
          rw [hone] at hmem
          exact List.mem_singleton.mp hmem
        obtain ⟨reply, hreply, rfl⟩ := List.mem_map.mp hseq
        obtain ⟨hreply, htare⟩ := List.mem_filter.mp hreply
        exact unmatched reply.frame (List.mem_map_of_mem hreply)
          (hmatches hpending hpendingSeq (of_decide_eq_true htare))
      rw [htaken, List.nil_append] at hone
      exact ⟨hone, hpending⟩
  | answer frame store lastFault found =>
    refine ⟨nofun, Or.inl ?_⟩
    rcases hone with hnone | ⟨hone, hpending⟩
    · rw [List.append_eq_nil_iff, List.append_eq_nil_iff] at hnone
      exact List.append_eq_nil_iff.mpr ⟨hnone.1, hnone.2.2⟩
    · have hfound : c.Matches frame := by simpa using List.find?_some found
      obtain ⟨reply, hreply, rfl⟩ := List.mem_map.mp (List.mem_of_find?_eq_some found)
      have hmem := mem_answers hreply ⟨hfound.1, hfound.2.2.1.trans hpending.2⟩
      have hlength := congrArg List.length hone
      rw [List.length_append, List.length_append, List.length_singleton] at hlength
      have hpos := List.length_pos_of_mem hmem
      have hasked : asked c.link.outbox = [] := List.eq_nil_of_length_eq_zero (by omega)
      have hdropped : answers (replies.drop count) = [] := List.eq_nil_of_length_eq_zero (by omega)
      exact List.append_eq_nil_iff.mpr ⟨hasked, hdropped⟩

theorem Orderly.beaten {c c' : McuClient FrameLink} {replies : List Reply} (h : Orderly c replies)
    {now : Millis} (hbeaten : Beaten c now c') : Orderly c' replies := by
  have htried : asked (tried c MsgId.ping []).outbox = asked c.link.outbox := by
    rw [tried_outbox]
    split
    · have hping : (packet c MsgId.ping []).frame.msgId ≠ MsgId.scaleTare :=
        (by decide : MsgId.ping ≠ MsgId.scaleTare)
      rw [asked_append, asked_singleton, if_neg hping, List.append_nil]
    · rfl
  have hone : asked (tried c MsgId.ping []).outbox ++ answers replies = [] ∨
      (asked (tried c MsgId.ping []).outbox ++ answers replies = [c.pendingSeq] ∧ c.waiting = true ∧
        c.pendingMsgId = MsgId.scaleTare) := by
    rw [htried]
    exact h.one
  cases hbeaten with
  | quiet _ => exact h
  | unsent _ _ => exact ⟨h.started, hone⟩
  | sent _ _ _ => exact ⟨h.started, hone⟩

theorem Orderly.poll {c : McuClient FrameLink} {replies : List Reply} (h : Orderly c replies)
    {now : Millis} (htimely : Timely c now) (count : ℕ) :
    Orderly ((load c ((replies.take count).map Reply.frame)).poll now) (replies.drop count) ∧
      ((load c ((replies.take count).map Reply.frame)).poll now).pendingMsgId = c.pendingMsgId := by
  obtain ⟨-, heard, hheard, hbeaten⟩ := poll_stages (load c ((replies.take count).map Reply.frame)) now
  have hloaded : Orderly (load c ((replies.take count).map Reply.frame)) replies := ⟨h.started, h.one⟩
  rw [pollTimers_timely hloaded.started htimely] at hheard
  have hunloaded : Orderly (load heard []) (replies.drop count) :=
    ⟨(hloaded.heard count hheard).started, (hloaded.heard count hheard).one⟩
  refine ⟨hunloaded.beaten hbeaten, ?_⟩
  have hpending : heard.pendingMsgId = c.pendingMsgId := by cases hheard <;> rfl
  rw [← hpending]
  generalize (load c ((replies.take count).map Reply.frame)).poll now = polled at hbeaten
  cases hbeaten <;> rfl

/-! The controller: when a program begins, the request before was a MotorStop. -/

structure Steady (c : CookingController FrameLink GuidedRecipe) (replies : List Reply) : Prop where
  client : Orderly c.mcu replies
  inOrder : c.InOrder
  sent : c.shutdownHeaterSent = true → c.mcu.pendingMsgId ≠ MsgId.scaleTare
  running : c.state = .running → c.shutdownHeaterSent = false

/-- The flags are in order as long as the same flags are. -/
theorem inOrder_congr {c c' : CookingController FrameLink GuidedRecipe} (h : c.InOrder)
    (heaterSent : c'.shutdownHeaterSent = c.shutdownHeaterSent)
    (heaterDone : c'.shutdownHeaterDone = c.shutdownHeaterDone)
    (motorSent : c'.shutdownMotorSent = c.shutdownMotorSent)
    (motorDone : c'.shutdownMotorDone = c.shutdownMotorDone) : c'.InOrder := by
  obtain ⟨hheaterDone, hmotorSent, hmotorDone⟩ := h
  constructor
  · rwa [heaterDone, heaterSent]
  · rwa [motorSent, heaterDone]
  · rwa [motorDone, motorSent]

/-- No answer to an earlier tare is on its way then. -/
theorem Steady.untared {c : CookingController FrameLink GuidedRecipe} {replies : List Reply}
    (h : Steady c replies) (hmotor : c.shutdownMotorDone = true) : answers replies = [] := by
  have hsent := h.inOrder.heaterDone (h.inOrder.motorSent (h.inOrder.motorDone hmotor))
  rcases h.client.one with hnone | ⟨-, -, htare⟩
  · exact (List.append_eq_nil_iff.mp hnone).2
  · exact absurd htare (h.sent hsent)

section

variable {c : CookingController FrameLink GuidedRecipe} {replies : List Reply}

theorem Steady.beginShutdown (h : Steady c replies) (faulted : Bool) :
    Steady (c.beginShutdown faulted) replies :=
  ⟨⟨h.client.started, h.client.one⟩, inOrder_beginShutdown c faulted, nofun, fun _ => rfl⟩

theorem Steady.sense (h : Steady c replies) : Steady c.sense.2 replies := by
  have hclient : Orderly c.sense.2.mcu replies ∧
      c.sense.2.mcu.pendingMsgId = c.mcu.pendingMsgId := by
    rw [sense_mcu]
    exact ⟨⟨h.client.started, h.client.one⟩, rfl⟩
  refine ⟨hclient.1, inOrder_congr h.inOrder rfl rfl rfl rfl, fun hsent => ?_, h.running⟩
  rw [hclient.2]
  exact h.sent hsent

theorem Steady.acknowledge (h : Steady c replies) (response : Option Frame) :
    Steady (c.acknowledge response) replies := by
  have hclient := acknowledge_mcu c response
  have hsent := acknowledge_heaterSent c response
  have hstate := acknowledge_state c response
  refine ⟨hclient ▸ h.client, h.inOrder.acknowledge response, ?_, ?_⟩
  · rw [hclient, hsent]
    exact h.sent
  · rw [hstate, hsent]
    exact h.running

theorem Steady.rearm (h : Steady c replies) : Steady c.rearm replies := by
  have hinOrder := h.inOrder.rearm
  have hrearm := rearm_rearmed c
  generalize c.rearm = c' at hinOrder hrearm
  cases hrearm with
  | none _ => exact h
  | heater _ _ => exact ⟨⟨h.client.started, h.client.one⟩, hinOrder, nofun, fun _ => rfl⟩
  | motor _ _ _ => exact ⟨⟨h.client.started, h.client.one⟩, hinOrder, h.sent, h.running⟩
  | late _ _ _ => exact ⟨⟨h.client.started, h.client.one⟩, hinOrder, h.sent, h.running⟩

theorem pendingMsgId_request {client : McuClient FrameLink} {id : MsgId} (hid : id ≠ MsgId.scaleTare)
    (hbefore : client.pendingMsgId ≠ MsgId.scaleTare) (now : Millis) (payload : List Byte) :
    (client.request now id payload).2.pendingMsgId ≠ MsgId.scaleTare := by
  have hrequest := request_requested client now id payload
  generalize (client.request now id payload).1 = status at hrequest
  generalize (client.request now id payload).2 = client' at hrequest
  cases hrequest with
  | accepted _ => exact hid
  | unsent _ _ _ _ _ => exact hbefore
  | refused _ _ => exact hbefore

theorem Steady.proceed (h : Steady c replies) (hstate : c.state ≠ .running) (now : Millis) :
    Steady (c.proceed now) replies := by
  have hinOrder := h.inOrder.proceed now
  have hheater := h.client.request now MsgId.heaterOff []
  have hmotor := h.client.request now MsgId.motorStop []
  have hproceed := proceed_proceeded c now
  generalize c.proceed now = c' at hinOrder hproceed
  cases hproceed with
  | waits _ _ => exact h
  | heater _ _ _ =>
    refine ⟨hheater, hinOrder, fun hsent => ?_, fun hrunning => absurd hrunning hstate⟩
    have hpending := (waiting_of_request_ok (of_decide_eq_true hsent)).2
    dsimp only
    rw [McuClient.heaterOff, hpending]
    decide
  | motor heater _ _ _ =>
    refine ⟨hmotor, hinOrder, fun hsent => ?_, fun hrunning => absurd hrunning hstate⟩
    exact pendingMsgId_request (by decide) (h.sent hsent) now []
  | begins program _ _ _ _ _ => exact ⟨⟨h.client.started, h.client.one⟩, hinOrder, nofun, fun _ => rfl⟩
  | rests _ _ _ =>
    refine ⟨h.client, hinOrder, h.sent, fun hrunning => ?_⟩
    dsimp only at hrunning
    split at hrunning <;> cases hrunning

/-- The sequence begins a program only when no answer to an earlier tare is on its way. -/
theorem Steady.proceed_running (h : Steady c replies) (hstate : c.state ≠ .running) {now : Millis}
    (hbegins : (c.proceed now).state = .running) : answers replies = [] := by
  have hproceed := proceed_proceeded c now
  generalize c.proceed now = c' at hproceed hbegins
  cases hproceed with
  | waits _ _ => exact absurd hbegins hstate
  | heater _ _ _ => exact absurd hbegins hstate
  | motor _ _ _ _ => exact absurd hbegins hstate
  | begins _ _ motor _ _ _ => exact h.untared motor
  | rests _ motor _ => exact h.untared motor

theorem Steady.tick10ms (h : Steady c replies) (now : Millis) :
    Steady (c.tick10ms now) replies ∧
      (c.state = .stopping → (c.tick10ms now).state = .running → answers replies = []) := by
  have hreacted : Steady c.sense.2.react.stepOta replies := by
    have hreact : Steady c.sense.2.react replies := by
      unfold CookingController.react
      split
      · exact h.sense.beginShutdown true
      · exact h.sense
    exact ⟨hreact.client, inOrder_congr hreact.inOrder rfl rfl rfl rfl, hreact.sent, hreact.running⟩
  have hreactState : c.state = .stopping → c.sense.2.react.stepOta.state ≠ .running := by
    intro hstopping
    change c.sense.2.react.state ≠ .running
    unfold CookingController.react
    split
    · exact nofun
    · change c.state ≠ .running
      rw [hstopping]
      exact nofun
  rw [tick10ms_eq]
  generalize c.sense.2.react.stepOta = c₁ at hreacted hreactState
  have hadvance := advance_advanced c₁ c.sense.1 now
  generalize c₁.advance c.sense.1 now = c' at hadvance
  cases hadvance with
  | plays running c' played =>
    refine ⟨?_, fun hstopping => absurd running (hreactState hstopping)⟩
    have hsent := hreacted.running running
    cases played with
    | goesOn program mcu requests =>
      have hclient := requests.keeps (fun client => Orderly client replies) hreacted.client
        fun _ id payload hkept => hkept.request now id payload
      exact ⟨hclient, inOrder_congr hreacted.inOrder rfl rfl rfl rfl,
        fun hheater => Bool.noConfusion (hsent.symm.trans hheater), hreacted.running⟩
    | finishes program mcu requests =>
      have hclient := requests.keeps (fun client => Orderly client replies) hreacted.client
        fun _ id payload hkept => hkept.request now id payload
      exact ⟨⟨hclient.started, hclient.one⟩, inOrder_beginShutdown _ false, nofun, fun _ => rfl⟩
  | stops stopping =>
    have hstate : (c₁.acknowledge c.sense.1).rearm.state ≠ .running := by
      rw [rearm_state, acknowledge_state]
      rcases stopping with hstate | hstate <;> rw [hstate] <;> exact nofun
    have hrearmed := (hreacted.acknowledge c.sense.1).rearm
    exact ⟨hrearmed.proceed hstate now, fun _ hbegins => hrearmed.proceed_running hstate hbegins⟩
  | rests _ _ =>
    exact ⟨hreacted, fun hstopping hbegins => absurd hbegins (hreactState hstopping)⟩

theorem Steady.startProgram (h : Steady c replies) (program : Option GuidedRecipe) :
    Steady (c.startProgram program).2 replies := by
  unfold CookingController.startProgram
  cases program with
  | none => exact h
  | some program =>
    dsimp only
    split
    · exact h
    · have hbegun := h.beginShutdown false
      exact ⟨hbegun.client, inOrder_congr hbegun.inOrder rfl rfl rfl rfl, hbegun.sent, nofun⟩

theorem Steady.stop (h : Steady c replies) : Steady c.stop replies := by
  unfold CookingController.stop
  split
  · exact ⟨h.client, inOrder_congr h.inOrder rfl rfl rfl rfl, h.sent, h.running⟩
  · split
    · exact h.beginShutdown false
    · exact h

theorem Steady.userNext (h : Steady c replies) : Steady c.userNext replies :=
  ⟨h.client, inOrder_congr h.inOrder rfl rfl rfl rfl, h.sent, h.running⟩

/-- A reply that answers no tare. -/
theorem Steady.told (h : Steady c replies) {reply : Reply} (hother : ¬ IsTareAnswer reply.frame) :
    Steady c (replies ++ [reply]) := by
  have hanswers : answers (replies ++ [reply]) = answers replies := by
    rw [answers_append, answers_singleton, if_neg hother, List.append_nil]
  refine ⟨⟨h.client.started, ?_⟩, h.inOrder, h.sent, h.running⟩
  rw [hanswers]
  exact h.client.one

/-- A request that the handler takes off the channel, and its reply. -/
theorem Steady.handled (h : Steady c replies) {packet : Packet} {rest : List Packet}
    (houtbox : c.mcu.link.outbox = packet :: rest) (reply : Option Commands.Reply) :
    Steady (setOutbox c rest) (replies ++ (reply.map (replyTo packet)).toList) := by
  refine ⟨⟨h.client.started, ?_⟩, inOrder_congr h.inOrder rfl rfl rfl rfl, h.sent, h.running⟩
  have hone := h.client.one
  rw [houtbox, ← List.singleton_append, asked_append, asked_singleton] at hone
  change asked rest ++ _ = [] ∨ (asked rest ++ _ = [c.mcu.pendingSeq] ∧ _)
  rw [answers_append]
  have hreply : answers (reply.map (replyTo packet)).toList = [] ∨
      (packet.frame.msgId = MsgId.scaleTare ∧
        answers (reply.map (replyTo packet)).toList = [packet.frame.seq]) := by
    cases reply with
    | none => exact Or.inl rfl
    | some reply =>
      change answers [replyTo packet reply] = [] ∨ (_ ∧ answers [replyTo packet reply] = _)
      rw [answers_singleton]
      by_cases hanswer : IsTareAnswer (replyTo packet reply).frame
      · exact Or.inr ⟨hanswer.2, if_pos hanswer⟩
      · exact Or.inl (if_neg hanswer)
  by_cases htare : packet.frame.msgId = MsgId.scaleTare
  · rw [if_pos htare, List.append_assoc, List.singleton_append] at hone
    obtain ⟨hone, hpending⟩ := hone.resolve_left (List.cons_ne_nil _ _)
    obtain ⟨hseq, hrest⟩ := List.cons.inj hone
    obtain ⟨hasked, hanswers⟩ := List.append_eq_nil_iff.mp hrest
    rw [hasked, hanswers]
    rcases hreply with hreply | ⟨-, hreply⟩
    · exact Or.inl hreply
    · rw [hreply, hseq]
      exact Or.inr ⟨rfl, hpending⟩
  · rw [if_neg htare, List.nil_append] at hone
    have hnone := hreply.resolve_right fun hanswer => htare hanswer.1
    rw [hnone, List.append_nil]
    exact hone

end

/-! Both processors, with what is known of each sample. -/

def IsTareResponse (frame : Frame) : Prop := frame.type = .response ∧ frame.msgId = MsgId.scaleTare

instance (frame : Frame) : Decidable (IsTareResponse frame) := inferInstanceAs (Decidable (_ ∧ _))

/-- What the client has seen since the program began: whether its newest sample was measured after
the tare, whether the tare's response has come in, and whether a sample has come in behind it. -/
structure Seen where
  fresh : Bool := false
  heard : Bool := false
  newer : Bool := false

/-- A reply comes in, with its tag. -/
def see (seen : Seen) (letter : Reply × Bool) : Seen :=
  if IsSample letter.1.frame then { seen with fresh := letter.2, newer := seen.heard }
  else if IsTareResponse letter.1.frame then { seen with heard := true }
  else seen

/-- `tared` tells whether the handler has executed a tare since the program began; the tag of a reply
in the channel tells whether that was so when it was sent. -/
structure Kitchen (H : Type) where
  device : Device H GuidedRecipe
  tared : Bool := false
  tags : List Bool := []
  seen : Seen := {}

/-- `publish` measures the weight and sends a sample of it. -/
inductive Move (H : Type) where
  | act (action : Action H GuidedRecipe)
  | publish (seq : Byte) (data : TelemetryData)

variable {H : Type} [Board H]

def move (device : Device H GuidedRecipe) : Move H → Device H GuidedRecipe
  | .act action => Appliance.next device action
  | .publish seq data =>
      let (grams, handler) := device.handler.currentGrams
      { device with
        handler
        replies := device.replies ++
          [⟨none, Frame.ofBytes .telemetry seq MsgId.telemetry (encodeTelemetry { data with grams })⟩] }

def executesTare (entry : Handling) : Bool :=
  decide (entry.packet.frame.msgId = MsgId.scaleTare) &&
    entry.reply.any fun reply => decide (reply.type = .response)

/-- The replies in the channel with their tags. -/
def letters (s : Kitchen H) : List (Reply × Bool) := s.device.replies.zip s.tags

/-- A program that begins has not tared the scale. -/
def next (s : Kitchen H) (label : Move H) : Kitchen H :=
  let device := move s.device label
  match label with
  | .act (.tick _) =>
      if s.device.controller.state = .stopping ∧ device.controller.state = .running then
        { device, tags := s.tags.map fun _ => false }
      else { s with device }
  | .act (.poll _ count) =>
      { s with device, tags := s.tags.drop count, seen := ((letters s).take count).foldl see s.seen }
  | _ =>
      let tared := s.tared || (device.handled.drop s.device.handled.length).any executesTare
      { s with
        device
        tared
        tags := s.tags ++ List.replicate (device.replies.length - s.device.replies.length) tared }

/-- Nothing is lost and no answer is late, samples are published by the safety processor alone, and
only accepted recipes are started. -/
def Permitted (s : Kitchen H) : Move H → Prop
  | .act (.poll now _) => Timely s.device.controller.mcu now
  | .act (.start program) => ∀ started, program = some started → Launches started
  | .act (.tell frame) => frame.type ≠ .response ∧ frame.type ≠ .nack ∧ ¬ IsSample frame
  | .act (.keepRequests _) => False
  | .act (.keepReplies _) => False
  | _ => True

/-- The weigh step that waits for its weight. -/
def weighing (c : CookingController FrameLink GuidedRecipe) : Option RecipeStep :=
  match c.state, c.program with
  | .running, some program =>
      if h : program.stepIndex < program.recipe.stepCount then
        let step := program.recipe.step ⟨program.stepIndex, h⟩
        if program.phase = .run ∧ step.kind = .weigh then some step else none
      else none
  | _, _ => none

/-- The tick completes a weigh step. -/
def Completes (c : CookingController FrameLink GuidedRecipe) (now : Millis) : Prop :=
  (weighing c).isSome ∧ (c.tick10ms now).program.map GuidedRecipe.phase = some .teardown

instance (c : CookingController FrameLink GuidedRecipe) (now : Millis) : Decidable (Completes c now) :=
  inferInstanceAs (Decidable (_ ∧ _))

def tickOf : Move H → Option Millis
  | .act (.tick now) => some now
  | _ => none

/-- A weigh step is completed on a sample only that was measured after the tare. -/
def Tared (s : Kitchen H) (label : Move H) : Prop :=
  ∀ now ∈ tickOf label, Completes s.device.controller now → s.seen.fresh = true

/-- While no sample has come in behind the tare's response, the weight shown is below the target. -/
def Light (s : Kitchen H) (label : Move H) : Prop :=
  ∀ _ ∈ tickOf label, ¬ s.device.controller.Alarmed → ∀ step ∈ weighing s.device.controller,
    s.seen.newer = false → s.device.controller.mcu.store.latest.grams < step.targetWeight

instance (s : Kitchen H) (label : Move H) : Decidable (Tared s label) :=
  Option.decidableForallMem (tickOf label)

instance (s : Kitchen H) (label : Move H) : Decidable (Light s label) :=
  Option.decidableForallMem (tickOf label)

/-! The order of the channel. -/

/-- Nothing has been seen of the tare. -/
structure Unseen (seen : Seen) : Prop where
  fresh : seen.fresh = false
  heard : seen.heard = false
  newer : seen.newer = false

/-- Replies sent before the tare. -/
def Earlier (front : List (Reply × Bool)) : Prop :=
  ∀ letter ∈ front, letter.2 = false ∧ ¬ IsTareResponse letter.1.frame

/-- Replies sent after it. -/
def Later (back : List (Reply × Bool)) : Prop := ∀ letter ∈ back, letter.2 = true

/-- The tare is not executed, or its response is on its way, behind all that was sent before, or it
has come in and all that is on its way was sent after it. -/
inductive Tracked : Bool → List (Reply × Bool) → Seen → Prop
  | before (front : List (Reply × Bool)) (seen : Seen) (earlier : Earlier front) (unseen : Unseen seen) :
      Tracked false front seen
  | onItsWay (front : List (Reply × Bool)) (response : Reply) (back : List (Reply × Bool)) (seen : Seen)
      (earlier : Earlier front) (answers : IsTareResponse response.frame) (later : Later back)
      (unseen : Unseen seen) : Tracked true (front ++ (response, true) :: back) seen
  | arrived (back : List (Reply × Bool)) (seen : Seen) (later : Later back)
      (heard : seen.heard = true) (same : seen.newer = seen.fresh) : Tracked true back seen

theorem Tracked.same {tared : Bool} {letters : List (Reply × Bool)} {seen : Seen}
    (h : Tracked tared letters seen) : seen.newer = seen.fresh := by
  cases h with
  | before _ _ _ unseen => rw [unseen.newer, unseen.fresh]
  | onItsWay _ _ _ _ _ _ _ unseen => rw [unseen.newer, unseen.fresh]
  | arrived _ _ _ _ same => exact same

theorem Unseen.see {seen : Seen} (h : Unseen seen) {letter : Reply × Bool} (htag : letter.2 = false)
    (hother : ¬ IsTareResponse letter.1.frame) : Unseen (see seen letter) := by
  unfold WeighSteps.see
  split
  · exact ⟨htag, h.heard, h.heard⟩
  · exact h

/-- Step lemma: the first reply of the channel comes in. -/
theorem Tracked.see {tared : Bool} {letter : Reply × Bool} {rest : List (Reply × Bool)} {seen : Seen}
    (h : Tracked tared (letter :: rest) seen) : Tracked tared rest (see seen letter) := by
  generalize hletters : letter :: rest = letters at h
  cases h with
  | before _ _ earlier unseen =>
    subst hletters
    obtain ⟨⟨htag, hother⟩, hrest⟩ := List.forall_mem_cons.mp earlier
    exact Tracked.before rest _ hrest (unseen.see htag hother)
  | onItsWay front response back _ earlier answers later unseen =>
    cases front with
    | nil =>
      obtain ⟨rfl, rfl⟩ := List.cons.inj hletters
      have hsample : ¬ IsSample response.frame := fun hsample =>
        FrameType.noConfusion (hsample.1.symm.trans answers.1)
      have hseen : WeighSteps.see seen (response, true) = { seen with heard := true } := by
        unfold WeighSteps.see
        rw [if_neg hsample, if_pos answers]
      rw [hseen]
      exact Tracked.arrived _ _ later rfl (unseen.newer.trans unseen.fresh.symm)
    | cons first front =>
      obtain ⟨rfl, rfl⟩ := List.cons.inj hletters
      obtain ⟨⟨htag, hother⟩, hfront⟩ := List.forall_mem_cons.mp earlier
      exact Tracked.onItsWay front response back _ hfront answers later (unseen.see htag hother)
  | arrived _ _ later heard same =>
    subst hletters
    obtain ⟨htag, hrest⟩ := List.forall_mem_cons.mp later
    unfold WeighSteps.see
    split
    · exact Tracked.arrived rest _ hrest heard (heard.trans htag.symm)
    · split
      · exact Tracked.arrived rest _ hrest rfl same
      · exact Tracked.arrived rest _ hrest heard same

/-- The first replies come in. -/
theorem Tracked.take {tared : Bool} {letters : List (Reply × Bool)} {seen : Seen}
    (h : Tracked tared letters seen) (count : ℕ) :
    Tracked tared (letters.drop count) ((letters.take count).foldl WeighSteps.see seen) := by
  induction count generalizing letters seen with
  | zero => exact h
  | succ count ih =>
    cases letters with
    | nil => exact h
    | cons letter rest => exact ih h.see

/-- Behind the tare any reply may be sent. -/
theorem Tracked.behind {letters : List (Reply × Bool)} {seen : Seen} (h : Tracked true letters seen)
    (reply : Reply) : Tracked true (letters ++ [(reply, true)]) seen := by
  cases h with
  | onItsWay front response back _ earlier answers later unseen =>
    rw [List.append_assoc, List.cons_append]
    refine Tracked.onItsWay front response _ _ earlier answers
      (List.forall_mem_append.mpr ⟨later, ?_⟩) unseen
    rw [List.forall_mem_singleton]
  | arrived _ _ later heard same =>
    refine Tracked.arrived _ _ (List.forall_mem_append.mpr ⟨later, ?_⟩) heard same
    rw [List.forall_mem_singleton]

/-- A reply that tells nothing of a tare. -/
theorem Tracked.told {tared : Bool} {letters : List (Reply × Bool)} {seen : Seen}
    (h : Tracked tared letters seen) {reply : Reply} (hother : ¬ IsTareResponse reply.frame) :
    Tracked tared (letters ++ [(reply, tared)]) seen := by
  cases tared with
  | true => exact h.behind reply
  | false =>
    cases h with
    | before _ _ earlier unseen =>
      refine Tracked.before _ _ (List.forall_mem_append.mpr ⟨earlier, ?_⟩) unseen
      rw [List.forall_mem_singleton]
      exact ⟨rfl, hother⟩

/-- The response to a tare that is executed. -/
theorem Tracked.executed {tared : Bool} {letters : List (Reply × Bool)} {seen : Seen}
    (h : Tracked tared letters seen) {reply : Reply} (hresponse : IsTareResponse reply.frame) :
    Tracked true (letters ++ [(reply, true)]) seen := by
  cases tared with
  | true => exact h.behind reply
  | false =>
    cases h with
    | before _ _ earlier unseen =>
      exact Tracked.onItsWay letters reply [] _ earlier hresponse nofun unseen

/-! Runs. -/

structure Inv (s : Kitchen H) : Prop where
  steady : Steady s.device.controller s.device.replies
  tags : s.tags.length = s.device.replies.length
  tracked : Tracked s.tared (letters s) s.seen

omit [Board H] in
theorem inv_initial {device : Device H GuidedRecipe} (h : Initial device) :
    Inv ({ device } : Kitchen H) := by
  obtain ⟨accepts, ota, board, rfl⟩ := h
  refine ⟨⟨⟨nofun, Or.inl rfl⟩, ⟨nofun, nofun, nofun⟩, nofun, fun _ => rfl⟩, rfl, ?_⟩
  exact Tracked.before [] {} nofun ⟨rfl, rfl, rfl⟩

theorem zip_tagged (new : List Reply) (tag : Bool) :
    new.zip (List.replicate new.length tag) = new.map fun reply => (reply, tag) := by
  induction new with
  | nil => rfl
  | cons reply rest ih => exact congrArg _ ih

omit [Board H] in
/-- The channel grows by some replies, all of them tagged alike. -/
theorem Inv.grow {s : Kitchen H} (h : Inv s) {device : Device H GuidedRecipe} {new : List Reply}
    (hreplies : device.replies = s.device.replies ++ new) {tared : Bool}
    (hsteady : Steady device.controller device.replies)
    (htracked : Tracked tared (letters s ++ new.map fun reply => (reply, tared)) s.seen) :
    Inv ({ s with
      device
      tared
      tags := s.tags ++ List.replicate (device.replies.length - s.device.replies.length) tared } :
        Kitchen H) := by
  have hcount : device.replies.length - s.device.replies.length = new.length := by
    rw [hreplies, List.length_append, Nat.add_sub_cancel_left]
  rw [hcount]
  refine ⟨hsteady, ?_, ?_⟩
  · rw [hreplies, List.length_append, List.length_append, List.length_replicate, h.tags]
  · unfold letters
    dsimp only
    rw [hreplies, List.zip_append h.tags.symm, zip_tagged]
    exact htracked

omit [Board H] in
/-- Nothing is sent, and no tare is executed. -/
theorem Inv.still {s : Kitchen H} (h : Inv s) {device : Device H GuidedRecipe}
    (hreplies : device.replies = s.device.replies) (hhandled : device.handled = s.device.handled)
    (hsteady : Steady device.controller s.device.replies) :
    Inv ({ s with
      device
      tared := s.tared || (device.handled.drop s.device.handled.length).any executesTare
      tags := s.tags ++ List.replicate (device.replies.length - s.device.replies.length)
        (s.tared || (device.handled.drop s.device.handled.length).any executesTare) } : Kitchen H) := by
  rw [hhandled, List.drop_length, List.any_nil, Bool.or_false]
  refine h.grow (hreplies.trans (List.append_nil _).symm) (hreplies ▸ hsteady) ?_
  rw [List.map_nil, List.append_nil]
  exact h.tracked

omit [Board H] in
/-- The safety processor sends what is no answer. -/
theorem Inv.told {s : Kitchen H} (h : Inv s) {device : Device H GuidedRecipe} {reply : Reply}
    (hreplies : device.replies = s.device.replies ++ [reply])
    (hhandled : device.handled = s.device.handled)
    (hcontroller : device.controller = s.device.controller)
    (hother : reply.frame.type ≠ .response ∧ reply.frame.type ≠ .nack) :
    Inv ({ s with
      device
      tared := s.tared || (device.handled.drop s.device.handled.length).any executesTare
      tags := s.tags ++ List.replicate (device.replies.length - s.device.replies.length)
        (s.tared || (device.handled.drop s.device.handled.length).any executesTare) } : Kitchen H) := by
  rw [hhandled, List.drop_length, List.any_nil, Bool.or_false]
  refine h.grow hreplies ?_ (h.tracked.told fun hresponse => hother.1 hresponse.1)
  rw [hcontroller, hreplies]
  exact h.steady.told fun hanswer => hanswer.1.elim hother.1 hother.2

/-- The handler takes the next request. -/
theorem Inv.handle {s : Kitchen H} (h : Inv s) (state : Drives.Inputs) (faulted : Bool) :
    Inv (next s (.act (.handle state faulted))) := by
  cases hbox : outbox s.device with
  | nil =>
    have hidle : Appliance.next s.device (.handle state faulted) = s.device := by
      simp only [Appliance.next, hbox]
    unfold next move
    dsimp only
    rw [hidle]
    exact h.still rfl rfl h.steady
  | cons packet rest =>
    have hsteady := h.steady.handled hbox (s.device.handler.execute packet.frame state faulted).1
    have hnext : Appliance.next s.device (.handle state faulted) = { s.device with
        controller := setOutbox s.device.controller rest
        handler := (s.device.handler.execute packet.frame state faulted).2
        replies := s.device.replies ++
          ((s.device.handler.execute packet.frame state faulted).1.map (replyTo packet)).toList
        handled := s.device.handled ++
          [⟨packet, (s.device.handler.execute packet.frame state faulted).1⟩] } := by
      simp only [Appliance.next, hbox]
    unfold next move
    dsimp only
    rw [hnext]
    dsimp only
    rw [List.drop_left, List.any_cons, List.any_nil, Bool.or_false]
    generalize (s.device.handler.execute packet.frame state faulted).1 = reply at hsteady ⊢
    refine h.grow rfl hsteady ?_
    cases reply with
    | none =>
      have hno : executesTare ⟨packet, none⟩ = false := by simp [executesTare]
      rw [hno, Bool.or_false]
      exact (List.append_nil (letters s)).symm ▸ h.tracked
    | some reply =>
      by_cases hexecutes : executesTare ⟨packet, some reply⟩ = true
      · rw [hexecutes, Bool.or_true]
        obtain ⟨htare, hresponse⟩ : packet.frame.msgId = MsgId.scaleTare ∧ reply.type = .response := by
          simpa [executesTare] using hexecutes
        have hframe : IsTareResponse (replyTo packet reply).frame := ⟨hresponse, htare⟩
        exact h.tracked.executed hframe
      · have hframe : ¬ IsTareResponse (replyTo packet reply).frame := by
          rintro ⟨hresponse, htare⟩
          have htare' : packet.frame.msgId = MsgId.scaleTare := htare
          have hresponse' : reply.type = .response := hresponse
          exact hexecutes (by simp [executesTare, htare', hresponse'])
        rw [Bool.not_eq_true] at hexecutes
        rw [hexecutes, Bool.or_false]
        exact h.tracked.told hframe

theorem Inv.poll {s : Kitchen H} (h : Inv s) {now : Millis} (count : ℕ)
    (htimely : Timely s.device.controller.mcu now) : Inv (next s (.act (.poll now count))) := by
  obtain ⟨hclient, hpending⟩ := h.steady.client.poll htimely count
  refine ⟨⟨hclient, inOrder_congr h.steady.inOrder rfl rfl rfl rfl, fun hsent => ?_,
    h.steady.running⟩, ?_, ?_⟩
  · have hpending' : (next s (.act (.poll now count))).device.controller.mcu.pendingMsgId =
        s.device.controller.mcu.pendingMsgId := hpending
    rw [hpending']
    exact h.steady.sent hsent
  · change (s.tags.drop count).length = (s.device.replies.drop count).length
    rw [List.length_drop, List.length_drop, h.tags]
  · have htaken := h.tracked.take count
    have hdrop : (letters s).drop count = (s.device.replies.drop count).zip (s.tags.drop count) :=
      List.drop_zipWith
    rw [hdrop] at htaken
    exact htaken

theorem Inv.tick {s : Kitchen H} (h : Inv s) (now : Millis) : Inv (next s (.act (.tick now))) := by
  obtain ⟨hsteady, hbegins⟩ := h.steady.tick10ms now
  unfold next move
  dsimp only [Appliance.next]
  split
  · rename_i hbegun
    have hanswers := hbegins hbegun.1 hbegun.2
    refine ⟨hsteady, (List.length_map _).trans h.tags, Tracked.before _ _ ?_ ⟨rfl, rfl, rfl⟩⟩
    intro letter hletter
    obtain ⟨hreply, htag⟩ := List.of_mem_zip hletter
    refine ⟨?_, fun hresponse => ?_⟩
    · obtain ⟨_, -, htag⟩ := List.mem_map.mp htag
      exact htag.symm
    · have hmem := mem_answers hreply ⟨Or.inl hresponse.1, hresponse.2⟩
      rw [hanswers] at hmem
      cases hmem
  · exact ⟨hsteady, h.tags, h.tracked⟩

/-- Step lemma. -/
theorem next_inv {s : Kitchen H} (h : Inv s) {label : Move H} (hpermitted : Permitted s label) :
    Inv (next s label) := by
  cases label with
  | publish seq data =>
    exact h.told rfl rfl rfl ⟨nofun, nofun⟩
  | act action =>
    cases action with
    | tick now => exact h.tick now
    | poll now count => exact h.poll count hpermitted
    | start program => exact h.still rfl rfl (h.steady.startProgram program)
    | stop => exact h.still rfl rfl h.steady.stop
    | userNext => exact h.still rfl rfl h.steady.userNext
    | handle state faulted => exact h.handle state faulted
    | cap rpm => exact h.still rfl rfl h.steady
    | drive => exact h.still rfl rfl h.steady
    | heat measuredC dtSeconds => exact h.still rfl rfl h.steady
    | sense board => exact h.still rfl rfl h.steady
    | stopMotor => exact h.still rfl rfl h.steady
    | disableHeater => exact h.still rfl rfl h.steady
    | tell frame => exact h.told rfl rfl rfl ⟨hpermitted.1, hpermitted.2.1⟩
    | keepRequests kept => exact hpermitted.elim
    | keepReplies kept => exact hpermitted.elim

/-! The tick that completes a weigh step. -/

theorem program_of_alarmed {c : CookingController FrameLink GuidedRecipe} (halarmed : c.Alarmed)
    (now : Millis) : (c.tick10ms now).program = c.program := by
  rw [tick10ms_alarmed halarmed]
  have hproceed := proceed_proceeded (c.sense.2.beginShutdown true).stepOta now
  generalize (c.sense.2.beginShutdown true).stepOta.proceed now = c' at hproceed
  cases hproceed with
  | waits _ _ => rfl
  | heater _ _ _ => rfl
  | motor heater _ _ _ => cases heater
  | begins _ heater _ _ _ _ => cases heater
  | rests heater _ _ => cases heater

theorem onTick_weigh {program : GuidedRecipe} {step : RecipeStep}
    (h : program.stepIndex < program.recipe.stepCount) (hphase : program.phase = .run)
    (hat : program.recipe.step ⟨program.stepIndex, h⟩ = step) (hkind : step.kind = .weigh)
    (client : McuClient FrameLink) (now elapsed : Millis) :
    (program.onTick client now elapsed).1.phase = .teardown ↔
      step.targetWeight ≤ client.store.latest.grams := by
  have hdone : program.stepDone step client elapsed =
      decide (client.store.latest.grams ≥ step.targetWeight) := by
    unfold GuidedRecipe.stepDone
    rw [hkind]
  unfold GuidedRecipe.onTick
  rw [dif_pos h, hat]
  simp only [hphase, hdone, decide_eq_true_eq]
  split
  · rename_i hweight
    exact iff_of_true rfl hweight
  · rename_i hlight
    rw [hphase]
    exact iff_of_false nofun hlight

theorem program_of_quiet {c : CookingController FrameLink GuidedRecipe} (hquiet : ¬ c.Alarmed)
    (hrunning : c.state = .running) {program : GuidedRecipe} (hprogram : c.program = some program)
    (now : Millis) : (c.tick10ms now).program =
      some (program.onTick c.sense.2.stepOta.mcu now (now - c.startedMs)).1 := by
  have hrunning' : c.sense.2.stepOta.state = .running := hrunning
  have hprogram' : c.sense.2.stepOta.program = some program := hprogram
  have hadvance : c.tick10ms now = c.sense.2.stepOta.runProgram program now := by
    simp [tick10ms_quiet hquiet, advance, hrunning', hprogram']
  rw [hadvance]
  unfold CookingController.runProgram
  dsimp only
  split <;> rfl

theorem weighing_some {c : CookingController FrameLink GuidedRecipe} {step : RecipeStep}
    (h : weighing c = some step) : c.state = .running ∧ ∃ program, c.program = some program ∧
      program.phase = .run ∧ ∃ hstep : program.stepIndex < program.recipe.stepCount,
        program.recipe.step ⟨program.stepIndex, hstep⟩ = step ∧ step.kind = .weigh := by
  unfold weighing at h
  split at h
  · rename_i program hstate hprogram
    split at h
    · rename_i hstep
      dsimp only at h
      split at h
      · rename_i hweighs
        cases h
        exact ⟨hstate, program, hprogram, hweighs.1, hstep, rfl, hweighs.2⟩
      · cases h
    · cases h
  · cases h

/-- A weigh step is completed by the weight shown, whatever sample that is. -/
theorem completes_iff (c : CookingController FrameLink GuidedRecipe) (now : Millis) :
    Completes c now ↔ ¬ c.Alarmed ∧
      ∃ step ∈ weighing c, step.targetWeight ≤ c.mcu.store.latest.grams := by
  unfold Completes
  cases hweighing : weighing c with
  | none => simp
  | some step =>
    obtain ⟨hrunning, program, hprogram, hphase, hstep, hat, hkind⟩ := weighing_some hweighing
    by_cases halarmed : c.Alarmed
    · rw [program_of_alarmed halarmed, hprogram]
      simp [halarmed, hphase]
    · have hweigh := onTick_weigh hstep hphase hat hkind c.sense.2.stepOta.mcu now (now - c.startedMs)
      have hmcu : c.sense.2.stepOta.mcu = { c.mcu with responseReady := false } := sense_mcu c
      have hstore : c.sense.2.stepOta.mcu.store = c.mcu.store := by rw [hmcu]
      rw [hstore] at hweigh
      rw [program_of_quiet halarmed hrunning hprogram]
      simp [halarmed, hweigh]

omit [Board H] in
theorem Inv.goal {s : Kitchen H} (h : Inv s) (label : Move H) : Tared s label ↔ Light s label := by
  unfold Tared Light
  refine forall₂_congr fun now _ => ?_
  rw [completes_iff, ← h.tracked.same]
  constructor
  · intro htared hquiet step hweighing hnewer
    by_contra hheavy
    have hfresh := htared ⟨hquiet, step, hweighing, not_lt.mp hheavy⟩
    exact Bool.noConfusion (hnewer.symm.trans hfresh)
  · rintro hlight ⟨hquiet, step, hweighing, hweight⟩
    by_contra hnewer
    rw [Bool.not_eq_true] at hnewer
    exact absurd (hlight hquiet step hweighing hnewer) (not_lt.mpr hweight)

/-- Without losses and late answers every weigh step is completed on a sample measured after the tare
exactly as long as the weight shown stays below the target until a sample has come in behind the
tare's response. -/
theorem weigh_from_tare_iff {device : Device H GuidedRecipe} (hinit : Initial device)
    (moves : List (Move H)) (hpermitted : Along Permitted next ({ device } : Kitchen H) moves) :
    Along Tared next ({ device } : Kitchen H) moves ↔ Along Light next ({ device } : Kitchen H) moves :=
  along_iff Inv (fun _ label hinv _ => hinv.goal label) (fun _ _ hinv hallowed _ => next_inv hinv hallowed)
    (inv_initial hinit) moves hpermitted

/-! A recipe that weighs 500 g. -/

def weighFile : CStrings.File where
  bytes := CStrings.codes ("name: W\nstep: weigh|weight=500".toList)

def weighRecipe : Recipe where
  name := CStrings.codes ['W']
  steps := (Vector.replicate kMaxSteps {}).set 0
    { kind := .weigh, targetWeight := 500 } kMaxSteps_pos
  stepCount := 1

theorem weighRecipe_accepted : Accepted weighRecipe := ⟨some weighFile, {}, by decide +kernel⟩

/-- So much stands in the bowl before the recipe. -/
def scaleAt (grams : ℤ) : Device Lid.SteadySensors GuidedRecipe :=
  { controller := Sessions.initial {} none, handler := { board := { raw := .ok (10 * grams) } } }

/-- The shutdown before the recipe, a sample, and the tare. -/
def untilTare : List (Move Lid.SteadySensors) :=
  [.act (.start (some { recipe := weighRecipe })),
    .act (.tick 10), .act (.handle {} false), .act (.poll 12 1),
    .act (.tick 20), .act (.handle {} false), .act (.poll 22 1),
    .publish 0 {}, .act (.poll 25 1), .act (.tick 30), .act (.tick 40)]

/-- The tare is executed only after the next tick, and the bowl filled then. -/
def weighRun : List (Move Lid.SteadySensors) :=
  untilTare ++ [.act (.tick 50), .act (.handle {} false), .act (.poll 52 1), .act (.tick 60),
    .act (.sense { raw := .ok 5200 }), .publish 1 {}, .act (.poll 65 1), .act (.tick 70)]

theorem weighRun_permitted {grams : ℤ} (hgrams : grams = 0 ∨ grams = 520) :
    Along Permitted next ({ device := scaleAt grams } : Kitchen Lid.SteadySensors) weighRun := by
  have hstart : Permitted ({ device := scaleAt grams } : Kitchen Lid.SteadySensors)
      (.act (.start (some { recipe := weighRecipe }))) := by
    intro started hstarted
    cases hstarted
    exact ⟨weighRecipe, weighRecipe_accepted, rfl⟩
  refine ⟨hstart, trivial, trivial, ?_, trivial, trivial, ?_, trivial, ?_, trivial, trivial, trivial,
    trivial, ?_, trivial, trivial, trivial, ?_, trivial, trivial⟩
  all_goals
    change Timely _ _
    rcases hgrams with rfl | rfl <;> decide +kernel

/-- With an empty bowl the step waits for the tare and the weight. -/
theorem weigh_from_tare_run :
    Completes (weighRun.dropLast.foldl next { device := scaleAt 0 }).device.controller 70 ∧
      Along Tared next ({ device := scaleAt 0 } : Kitchen Lid.SteadySensors) weighRun :=
  ⟨by decide +kernel,
    (weigh_from_tare_iff ⟨_, none, _, rfl⟩ weighRun (weighRun_permitted (Or.inl rfl))).mpr
      (by decide +kernel)⟩

/-- With 520 g in the bowl the step is complete before the tare is executed. -/
theorem weigh_untared :
    ¬ ∀ (device : Device Lid.SteadySensors GuidedRecipe) (moves : List (Move Lid.SteadySensors)),
      Initial device → Along Permitted next ({ device } : Kitchen Lid.SteadySensors) moves →
        Along Tared next ({ device } : Kitchen Lid.SteadySensors) moves := by
  intro h
  have htared := h (scaleAt 520) weighRun ⟨_, none, _, rfl⟩ (weighRun_permitted (Or.inr rfl))
  exact absurd htared (by decide +kernel)

end Culina.WeighSteps
