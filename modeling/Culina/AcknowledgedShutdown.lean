import Culina.Appliance

/-!
The acknowledged shutdown. Sequence numbers order everything the client has sent, so what
the handler has acknowledged bounds what can still reach it: once a shutdown command with
some number is acknowledged, older frames are gone, and no newer one switches an output on.
-/
namespace Culina.AcknowledgedShutdown

open Wire Drives Ports Client McuClient Cooking CookingController Packets Appliance Runs
open Commands hiding Reply

variable {P : Type}

/-- Everything sent and not lost, in the order of its numbers. -/
def trail (handled : List Handling) (c : McuClient FrameLink) : List Packet :=
  handled.map Handling.packet ++ c.link.outbox

/-- No packet from this number on carries the command. -/
def Quelled (id : MsgId) (number : ℕ) (packets : List Packet) : Prop :=
  ∀ packet ∈ packets, number ≤ packet.stamp → packet.frame.msgId ≠ id

/-- The handler has acknowledged the command under this number or a later one. -/
def AckedFrom (handled : List Handling) (id : MsgId) (number : ℕ) : Prop :=
  ∃ entry ∈ handled, entry.Accepted id ∧ number ≤ entry.packet.stamp

/-- A response that reaches the controller now acknowledges the command sent under this number.
`held` is the response that is ready or in the hands of the tick. -/
structure Expects (c : McuClient FrameLink) (held : Option Frame) (handled : List Handling)
    (id : MsgId) (number : ℕ) : Prop where
  waiting : c.waiting = true → c.pendingMsgId = id ∧ number < drawn c
  held : ∀ answer, held = some answer → answer.type = .response → AckedFrom handled id number

/-- HeaterOff is out under `number`, which no packet from before the shutdown reaches. -/
structure HeaterOut (c : McuClient FrameLink) (held : Option Frame) (handled : List Handling)
    (mark number : ℕ) : Prop where
  recent : ∀ entry ∈ handled.take mark, entry.packet.stamp < number
  quelled : Quelled MsgId.heaterSetTarget number (trail handled c)
  expects : Expects c held handled MsgId.heaterOff number

/-- HeaterOff has been acknowledged. -/
structure HeaterOff (c : McuClient FrameLink) (handled : List Handling) (mark : ℕ)
    (off : Handling) : Prop where
  mem : off ∈ handled
  accepted : off.Accepted MsgId.heaterOff
  recent : ∀ entry ∈ handled.take mark, entry.packet.stamp < off.packet.stamp
  quelled : Quelled MsgId.heaterSetTarget off.packet.stamp (trail handled c)

/-- MotorStop is out under `number`, after that HeaterOff. -/
structure MotorOut (c : McuClient FrameLink) (held : Option Frame) (handled : List Handling)
    (off : Handling) (number : ℕ) : Prop where
  after : off.packet.stamp < number
  quelled : Quelled MsgId.motorSetTarget number (trail handled c)
  expects : Expects c held handled MsgId.motorStop number

/-- MotorStop has been acknowledged, after that HeaterOff. -/
structure MotorOff (c : McuClient FrameLink) (handled : List Handling) (off stop : Handling) :
    Prop where
  mem : stop ∈ handled
  accepted : stop.Accepted MsgId.motorStop
  after : off.packet.stamp < stop.packet.stamp
  quelled : Quelled MsgId.motorSetTarget stop.packet.stamp (trail handled c)

/-- What the flags of the controller stand for. -/
structure Backed (c : CookingController FrameLink P) (held : Option Frame)
    (handled : List Handling) (mark : ℕ) : Prop where
  heater : c.shutdownHeaterSent = true → c.shutdownHeaterDone = false →
    ∃ number, HeaterOut c.mcu held handled mark number
  motor : c.shutdownHeaterDone = true → ∃ off, HeaterOff c.mcu handled mark off ∧
    (c.shutdownMotorSent = true → c.shutdownMotorDone = false →
      ∃ number, MotorOut c.mcu held handled off number) ∧
    (c.shutdownMotorDone = true → ∃ stop, MotorOff c.mcu handled off stop)

/-- The controller and the client, also between the stages of a tick. -/
structure Sound (c : CookingController FrameLink P) (held : Option Frame)
    (handled : List Handling) (mark : ℕ) : Prop where
  numbered : Numbered (handled.map Handling.packet) c.mcu
  ready : c.mcu.responseReady = true → held = some c.mcu.response
  taken : c.mcu.waiting = true → held = none
  inOrder : c.InOrder
  onlyStops : c.shutdownHeaterSent = true → c.mcu.waiting = true →
    c.mcu.pendingMsgId = MsgId.heaterOff ∨ c.mcu.pendingMsgId = MsgId.motorStop
  running : c.state = .running → c.shutdownHeaterSent = false
  backed : Backed c held handled mark

/-! What the flags stand for through the operations of the client and the channels. -/

/-- A packet that switches nothing on. -/
def Harmless (packet : Packet) : Prop :=
  packet.frame.msgId ≠ MsgId.heaterSetTarget ∧ packet.frame.msgId ≠ MsgId.motorSetTarget

theorem Quelled.grow {id : MsgId} {number : ℕ} {packets packets' : List Packet}
    (h : Quelled id number packets) (hid : id = MsgId.heaterSetTarget ∨ id = MsgId.motorSetTarget)
    (hgrow : ∀ packet ∈ packets', packet ∈ packets ∨ Harmless packet) :
    Quelled id number packets' := by
  intro packet hmem hle
  rcases hgrow packet hmem with hold | ⟨hheater, hmotor⟩
  · exact h packet hold hle
  · rcases hid with rfl | rfl
    · exact hheater
    · exact hmotor

theorem Quelled.mono {id : MsgId} {number number' : ℕ} {packets : List Packet}
    (h : Quelled id number packets) (hle : number ≤ number') : Quelled id number' packets :=
  fun packet hmem hfrom => h packet hmem (hle.trans hfrom)

theorem AckedFrom.mono {handled handled' : List Handling} {id : MsgId} {number : ℕ}
    (h : AckedFrom handled id number) (hmem : ∀ entry ∈ handled, entry ∈ handled') :
    AckedFrom handled' id number := by
  obtain ⟨entry, hentry, hacked⟩ := h
  exact ⟨entry, hmem entry hentry, hacked⟩

/-- What is backed stays backed while the flags stand, the history grows and only harmless
packets are added. -/
theorem Backed.mono {c c' : CookingController FrameLink P} {held held' : Option Frame}
    {handled handled' : List Handling} {mark : ℕ} (h : Backed c held handled mark)
    (hinOrder : c.InOrder)
    (hflags : c'.shutdownHeaterSent = c.shutdownHeaterSent ∧
      c'.shutdownHeaterDone = c.shutdownHeaterDone ∧ c'.shutdownMotorSent = c.shutdownMotorSent ∧
      c'.shutdownMotorDone = c.shutdownMotorDone)
    (hmem : ∀ entry ∈ handled, entry ∈ handled') (hmark : handled'.take mark = handled.take mark)
    (htrail : c.shutdownHeaterSent = true → ∀ packet ∈ trail handled' c'.mcu,
      packet ∈ trail handled c.mcu ∨ Harmless packet)
    (hexpects : ∀ id number, c.shutdownHeaterSent = true → Expects c.mcu held handled id number →
      Expects c'.mcu held' handled' id number) :
    Backed c' held' handled' mark := by
  obtain ⟨hheaterSent, hheaterDone, hmotorSent, hmotorDone⟩ := hflags
  constructor
  · rw [hheaterSent, hheaterDone]
    intro hsent hpending
    obtain ⟨number, hrecent, hquelled, hexpected⟩ := h.heater hsent hpending
    refine ⟨number, ?_, hquelled.grow (Or.inl rfl) (htrail hsent), hexpects _ _ hsent hexpected⟩
    rw [hmark]
    exact hrecent
  · rw [hheaterDone, hmotorSent, hmotorDone]
    intro hdone
    have hsent := hinOrder.heaterDone hdone
    obtain ⟨off, hoff, hout, hstopped⟩ := h.motor hdone
    refine ⟨off, ⟨hmem off hoff.mem, hoff.accepted, ?_, hoff.quelled.grow (Or.inl rfl) (htrail hsent)⟩,
      ?_, ?_⟩
    · rw [hmark]
      exact hoff.recent
    · intro hmotorSent hpending
      obtain ⟨number, hafter, hquelled, hexpected⟩ := hout hmotorSent hpending
      exact ⟨number, hafter, hquelled.grow (Or.inr rfl) (htrail hsent), hexpects _ _ hsent hexpected⟩
    · intro hmotorDone
      obtain ⟨stop, hstop⟩ := hstopped hmotorDone
      exact ⟨stop, hmem stop hstop.mem, hstop.accepted, hstop.after,
        hstop.quelled.grow (Or.inr rfl) (htrail hsent)⟩

/-- Flags that are down need no backing. -/
theorem backed_of_unsent {c : CookingController FrameLink P} (hinOrder : c.InOrder)
    (hunsent : c.shutdownHeaterSent = false) (held : Option Frame) (handled : List Handling)
    (mark : ℕ) : Backed c held handled mark := by
  constructor
  · intro hsent
    exact Bool.noConfusion (hunsent.symm.trans hsent)
  · intro hdone
    exact Bool.noConfusion (hunsent.symm.trans (hinOrder.heaterDone hdone))

theorem Sound.unready {c : CookingController FrameLink P} {handled : List Handling} {mark : ℕ}
    (h : Sound c none handled mark) : c.mcu.responseReady = false := by
  by_contra hready
  rw [Bool.not_eq_false] at hready
  cases h.ready hready

/-! The stages of the tick. -/

/-- A shutdown that has just begun, or a session that has, claims nothing yet. -/
theorem sound_of_unsent {c : CookingController FrameLink P} {held : Option Frame}
    {handled : List Handling} {mark : ℕ} (numbered : Numbered (handled.map Handling.packet) c.mcu)
    (ready : c.mcu.responseReady = true → held = some c.mcu.response)
    (taken : c.mcu.waiting = true → held = none) (inOrder : c.InOrder)
    (unsent : c.shutdownHeaterSent = false) : Sound c held handled mark :=
  ⟨numbered, ready, taken, inOrder, fun hsent => Bool.noConfusion (unsent.symm.trans hsent),
    fun _ => unsent, backed_of_unsent inOrder unsent held handled mark⟩

theorem Sound.beginShutdown {c : CookingController FrameLink P} {held : Option Frame}
    {handled : List Handling} {mark : ℕ} (h : Sound c held handled mark) (faulted : Bool)
    (mark' : ℕ) : Sound (c.beginShutdown faulted) held handled mark' :=
  sound_of_unsent ⟨h.numbered.ordered, h.numbered.pending⟩ h.ready h.taken
    (inOrder_beginShutdown c faulted) rfl

theorem Sound.sense {c : CookingController FrameLink P} {handled : List Handling} {mark : ℕ}
    (h : Sound c c.sense.1 handled mark) : Sound c.sense.2 c.sense.1 handled mark := by
  have hmcu := sense_mcu c
  refine ⟨?_, ?_, ?_, ⟨h.inOrder.heaterDone, h.inOrder.motorSent, h.inOrder.motorDone⟩, ?_, h.running,
    ?_⟩
  · rw [hmcu]
    exact ⟨h.numbered.ordered, h.numbered.pending⟩
  · rw [hmcu]
    intro hready
    cases hready
  · rw [hmcu]
    exact h.taken
  · rw [hmcu]
    exact h.onlyStops
  · refine h.backed.mono h.inOrder ⟨rfl, rfl, rfl, rfl⟩ (fun _ hmem => hmem) rfl ?_ ?_
    · rw [hmcu]
      exact fun _ _ hmem => Or.inl hmem
    · rw [hmcu]
      exact fun _ _ _ hexpects => ⟨hexpects.waiting, hexpects.held⟩

/-- An acknowledgement that the sequence counts is one the handler has given. -/
theorem Sound.acknowledge {c : CookingController FrameLink P} {held : Option Frame}
    {handled : List Handling} {mark : ℕ} (h : Sound c held handled mark)
    (hready : c.mcu.responseReady = false) : Sound (c.acknowledge held) none handled mark := by
  have hmcu := acknowledge_mcu c held
  have hstate := acknowledge_state c held
  have hsent := acknowledge_heaterSent c held
  refine ⟨?_, ?_, fun _ => rfl, h.inOrder.acknowledge held, ?_, ?_, ?_⟩
  · rw [hmcu]
    exact h.numbered
  · rw [hmcu]
    intro hready'
    exact Bool.noConfusion (hready.symm.trans hready')
  · rw [hmcu, hsent]
    exact h.onlyStops
  · rw [hstate, hsent]
    exact h.running
  · have hack := acknowledge_acknowledged c held
    generalize c.acknowledge held = c' at hack
    cases hack with
    | heater answer taken type msgId sent pending =>
      have hmotor := h.inOrder.motorUnsent pending
      have hmotorPending := h.inOrder.motorPending pending
      obtain ⟨number, hrecent, hquelled, hexpects⟩ := h.backed.heater sent pending
      obtain ⟨off, hmem, haccepted, hle⟩ := hexpects.held answer taken type
      constructor
      · intro _ hpending
        cases hpending
      · intro _
        refine ⟨off, ⟨hmem, haccepted, ?_, hquelled.mono hle⟩, ?_, ?_⟩
        · intro entry hentry
          exact lt_of_lt_of_le (hrecent entry hentry) hle
        · intro hsent
          exact Bool.noConfusion (hmotor.symm.trans hsent)
        · intro hdone
          exact Bool.noConfusion (hmotorPending.symm.trans hdone)
    | motor answer taken type msgId sent pending =>
      have hheater := h.inOrder.motorSent sent
      obtain ⟨off, hoff, hout, -⟩ := h.backed.motor hheater
      obtain ⟨number, hafter, hquelled, hexpects⟩ := hout sent pending
      obtain ⟨stop, hmem, haccepted, hle⟩ := hexpects.held answer taken type
      constructor
      · intro _ hpending
        exact Bool.noConfusion (hheater.symm.trans hpending)
      · intro _
        refine ⟨off, hoff, ?_, ?_⟩
        · intro _ hpending
          cases hpending
        · intro _
          exact ⟨stop, hmem, haccepted, lt_of_lt_of_le hafter hle, hquelled.mono hle⟩
    | other _ _ =>
      refine h.backed.mono h.inOrder ⟨rfl, rfl, rfl, rfl⟩ (fun _ hmem => hmem) rfl
        (fun _ _ hmem => Or.inl hmem) ?_
      intro id number _ hexpects
      exact ⟨hexpects.waiting, fun _ h => (by cases h)⟩

theorem Sound.rearm {c : CookingController FrameLink P} {handled : List Handling} {mark : ℕ}
    (h : Sound c none handled mark) : Sound c.rearm none handled mark := by
  have hrearm := rearm_rearmed c
  have hinOrder := h.inOrder.rearm
  have hnumbered : Numbered (handled.map Handling.packet) c.mcu.clearCommandStatus :=
    ⟨h.numbered.ordered, h.numbered.pending⟩
  generalize c.rearm = c' at hrearm hinOrder
  cases hrearm with
  | none _ => exact h
  | heater _ _ => exact sound_of_unsent hnumbered h.ready h.taken hinOrder rfl
  | motor _ heater pending =>
    refine ⟨hnumbered, h.ready, h.taken, hinOrder, h.onlyStops, h.running, ?_⟩
    constructor
    · intro _ hpending
      exact Bool.noConfusion (heater.symm.trans hpending)
    · intro _
      obtain ⟨off, hoff, -⟩ := h.backed.motor heater
      refine ⟨off, ⟨hoff.mem, hoff.accepted, hoff.recent, hoff.quelled⟩, fun hsent => (by cases hsent), ?_⟩
      intro hdone
      exact Bool.noConfusion (pending.symm.trans hdone)
  | late _ _ _ =>
    refine ⟨hnumbered, h.ready, h.taken, hinOrder, h.onlyStops, h.running, ?_⟩
    exact h.backed.mono h.inOrder ⟨rfl, rfl, rfl, rfl⟩ (fun _ hmem => hmem) rfl
      (fun _ _ hmem => Or.inl hmem) fun _ _ _ hexpects => ⟨hexpects.waiting, hexpects.held⟩

/-- Both commands have been acknowledged. -/
def Finished (c : CookingController FrameLink P) (handled : List Handling) (mark : ℕ) : Prop :=
  ∃ off stop, HeaterOff c.mcu handled mark off ∧ MotorOff c.mcu handled off stop

theorem mem_trail_request {handled : List Handling} {c : McuClient FrameLink} {now : Millis}
    {id : MsgId} {payload : List Byte} {packet : Packet}
    (h : packet ∈ trail handled (c.request now id payload).2) :
    packet ∈ trail handled c ∨ packet.frame.msgId = id := by
  rcases List.mem_append.mp h with hhandled | hout
  · exact Or.inl (List.mem_append_left _ hhandled)
  · exact (mem_request_outbox hout).imp_left (List.mem_append_right _)

/-- What a client sends from now on comes after all it has sent. -/
theorem quelled_request {handled : List Handling} {c : McuClient FrameLink}
    (h : Numbered (handled.map Handling.packet) c) {now : Millis} {id set : MsgId}
    {payload : List Byte} (hne : id ≠ set) :
    Quelled set (drawn c) (trail handled (c.request now id payload).2) := by
  intro packet hmem hle
  rcases mem_trail_request hmem with hold | hnew
  · exact absurd (h.ordered.below packet hold) (by omega)
  · rw [hnew]
    exact hne

/-- A shutdown command that the idle client takes is the one it expects an answer to. -/
theorem expects_request {handled : List Handling} {c : McuClient FrameLink} {now : Millis}
    {id : MsgId} {payload : List Byte} (hidle : c.waiting = false) :
    Expects (c.request now id payload).2 none handled id (drawn c) := by
  refine ⟨?_, fun _ h => (by cases h)⟩
  intro hwaiting
  have hok := request_ok_of_waiting hidle hwaiting
  exact ⟨(waiting_of_request_ok hok).2, drawn_lt_of_request_ok hok⟩

theorem Sound.recent {c : CookingController FrameLink P} {held : Option Frame}
    {handled : List Handling} {mark : ℕ} (h : Sound c held handled mark) :
    ∀ entry ∈ handled, entry.packet.stamp < drawn c.mcu := by
  intro entry hentry
  exact h.numbered.ordered.below _ (List.mem_append_left _ (List.mem_map_of_mem hentry))

theorem Sound.proceed {c : CookingController FrameLink P} {handled : List Handling} {mark : ℕ}
    (h : Sound c none handled mark) (hstate : c.state = .stopping ∨ c.state = .faulted)
    (now : Millis) :
    Sound (c.proceed now) none handled mark ∧
      ((c.proceed now).state = .running ∨ (c.proceed now).state = .done ∨
        (c.proceed now).shutdownMotorDone = true → Finished (c.proceed now) handled mark) := by
  have hunready := h.unready
  have hresting : ¬ (c.state = .running ∨ c.state = .done) := by
    rcases hstate with hstate | hstate <;> simp [hstate]
  have hproceed := proceed_proceeded c now
  have hinOrder := h.inOrder.proceed now
  generalize c.proceed now = c' at hproceed hinOrder
  cases hproceed with
  | waits heater motor =>
    refine ⟨h, ?_⟩
    rintro (hrunning | hdone | hmotor)
    · exact absurd (Or.inl hrunning) hresting
    · exact absurd (Or.inr hdone) hresting
    · have hheater := h.inOrder.motorSent (h.inOrder.motorDone hmotor)
      exact Bool.noConfusion ((motor hheater).1.symm.trans hmotor)
  | heater pending unsent idle =>
    refine ⟨⟨h.numbered.request now _ _, ?_, fun _ => rfl, hinOrder, ?_, ?_, ?_, ?_⟩, ?_⟩
    · intro hready
      exact Bool.noConfusion ((request_unready now _ _ hunready).symm.trans hready)
    · intro _ hwaiting
      exact Or.inl (waiting_of_request_ok (request_ok_of_waiting idle hwaiting)).2
    · intro hrunning
      exact absurd (Or.inl hrunning) hresting
    · intro _ _
      refine ⟨drawn c.mcu, ?_, quelled_request h.numbered (by decide), expects_request idle⟩
      intro entry hentry
      exact h.recent entry (List.mem_of_mem_take hentry)
    · intro hdone
      exact Bool.noConfusion (pending.symm.trans hdone)
    · rintro (hrunning | hdone | hmotor)
      · exact absurd (Or.inl hrunning) hresting
      · exact absurd (Or.inr hdone) hresting
      · exact Bool.noConfusion ((h.inOrder.motorPending pending).symm.trans hmotor)
  | motor heater pending unsent idle =>
    refine ⟨⟨h.numbered.request now _ _, ?_, fun _ => rfl, hinOrder, ?_, ?_, ?_, ?_⟩, ?_⟩
    · intro hready
      exact Bool.noConfusion ((request_unready now _ _ hunready).symm.trans hready)
    · intro _ hwaiting
      exact Or.inr (waiting_of_request_ok (request_ok_of_waiting idle hwaiting)).2
    · intro hrunning
      exact absurd (Or.inl hrunning) hresting
    · intro _ hpending
      exact Bool.noConfusion (heater.symm.trans hpending)
    · intro _
      obtain ⟨off, hoff, -⟩ := h.backed.motor heater
      refine ⟨off, ⟨hoff.mem, hoff.accepted, hoff.recent, ?_⟩, ?_, ?_⟩
      · refine hoff.quelled.grow (Or.inl rfl) ?_
        intro packet hmem
        refine (mem_trail_request hmem).imp_right fun hmsgId => ?_
        rw [Harmless, hmsgId]
        decide
      · intro _ _
        exact ⟨drawn c.mcu, h.recent off hoff.mem, quelled_request h.numbered (by decide),
          expects_request idle⟩
      · intro hdone
        exact Bool.noConfusion (pending.symm.trans hdone)
    · rintro (hrunning | hdone | hmotor)
      · exact absurd (Or.inl hrunning) hresting
      · exact absurd (Or.inr hdone) hresting
      · exact Bool.noConfusion (pending.symm.trans hmotor)
  | begins program heater motor pending start unfaulted =>
    obtain ⟨off, hoff, -, hstopped⟩ := h.backed.motor heater
    obtain ⟨stop, hstop⟩ := hstopped motor
    refine ⟨?_, fun _ => ⟨off, stop, ⟨hoff.mem, hoff.accepted, hoff.recent, hoff.quelled⟩,
      ⟨hstop.mem, hstop.accepted, hstop.after, hstop.quelled⟩⟩⟩
    exact sound_of_unsent ⟨h.numbered.ordered, h.numbered.pending⟩ h.ready h.taken hinOrder rfl
  | rests heater motor unstarted =>
    obtain ⟨off, hoff, -, hstopped⟩ := h.backed.motor heater
    obtain ⟨stop, hstop⟩ := hstopped motor
    refine ⟨?_, fun _ => ⟨off, stop, hoff, hstop⟩⟩
    refine ⟨h.numbered, h.ready, h.taken, hinOrder, h.onlyStops, ?_, ?_⟩
    · intro hrunning
      dsimp only at hrunning
      split at hrunning <;> cases hrunning
    · exact h.backed.mono h.inOrder ⟨rfl, rfl, rfl, rfl⟩ (fun _ hmem => hmem) rfl
        (fun _ _ hmem => Or.inl hmem) fun _ _ _ hexpects => hexpects

/-! The tick. -/

/-- A response nobody acknowledges is forgotten. -/
theorem Sound.forget {c : CookingController FrameLink P} {held : Option Frame}
    {handled : List Handling} {mark : ℕ} (h : Sound c held handled mark)
    (hready : c.mcu.responseReady = false) : Sound c none handled mark := by
  refine ⟨h.numbered, fun hready' => Bool.noConfusion (hready.symm.trans hready'), fun _ => rfl,
    h.inOrder, h.onlyStops, h.running, ?_⟩
  exact h.backed.mono h.inOrder ⟨rfl, rfl, rfl, rfl⟩ (fun _ hmem => hmem) rfl
    (fun _ _ hmem => Or.inl hmem) fun _ _ _ hexpects => ⟨hexpects.waiting, fun _ h => (by cases h)⟩

theorem Sound.stepOta {c : CookingController FrameLink P} {held : Option Frame}
    {handled : List Handling} {mark : ℕ} (h : Sound c held handled mark) :
    Sound c.stepOta held handled mark :=
  ⟨h.numbered, h.ready, h.taken, ⟨h.inOrder.heaterDone, h.inOrder.motorSent, h.inOrder.motorDone⟩,
    h.onlyStops, h.running, h.backed.mono h.inOrder ⟨rfl, rfl, rfl, rfl⟩ (fun _ hmem => hmem) rfl
      (fun _ _ hmem => Or.inl hmem) fun _ _ _ hexpects => hexpects⟩

section

variable [Program FrameLink P]

omit [Program FrameLink P] in
/-- Where a session that enters one of these states is. -/
theorem entered {c c' : CookingController FrameLink P} (h : Enters c c') :
    c'.state = .running ∨ c'.state = .done ∨ c'.shutdownMotorDone = true := by
  rcases h with ⟨-, hrunning⟩ | ⟨-, hdone⟩ | ⟨-, -, hmotor⟩
  · exact Or.inl hrunning
  · exact Or.inr (Or.inl hdone)
  · exact Or.inr (Or.inr hmotor)

/-- A tick keeps what the flags stand for; it brings the session to run or to rest only when both
commands have been acknowledged. -/
theorem Sound.tick10ms {c : CookingController FrameLink P} {handled : List Handling} {mark : ℕ}
    (h : Sound c c.sense.1 handled mark) (now : Millis) :
    Sound (c.tick10ms now) none handled (if TickBegins c now then handled.length else mark) ∧
      (Enters c (c.tick10ms now) → Finished (c.tick10ms now) handled
        (if TickBegins c now then handled.length else mark)) := by
  have hunready : c.sense.2.mcu.responseReady = false := by rw [sense_mcu]
  by_cases halarmed : c.Alarmed
  · have hbegins : TickBegins c now := Or.inl halarmed
    rw [if_pos hbegins, tick10ms_alarmed halarmed]
    have hfresh : Sound (c.sense.2.beginShutdown true).stepOta none handled handled.length :=
      ((h.sense.forget hunready).beginShutdown true handled.length).stepOta
    obtain ⟨hsound, hfinished⟩ := hfresh.proceed (Or.inr rfl) now
    exact ⟨hsound, fun henters => hfinished (entered henters)⟩
  · have hbegins : TickBegins c now ↔ c.state = .running ∧ (c.tick10ms now).state = .stopping :=
      or_iff_right halarmed
    have hsensed : Sound c.sense.2.stepOta c.sense.1 handled mark := h.sense.stepOta
    have hunready' : c.sense.2.stepOta.mcu.responseReady = false := hunready
    have hstate : c.sense.2.stepOta.state = c.state := rfl
    have htick := tick10ms_quiet halarmed now
    generalize c.sense.2.stepOta = sensed at hsensed htick hunready' hstate
    generalize c.sense.1 = response at hsensed htick
    have hadvance := advance_advanced sensed response now
    rw [← htick] at hadvance
    generalize c.tick10ms now = c' at hadvance hbegins ⊢
    cases hadvance with
    | plays running _ played =>
      have hrunning : c.state = .running := hstate.symm.trans running
      have hunsent := hsensed.running running
      have hclient : ∀ mcu, ByRequests now sensed.mcu mcu →
          Numbered (handled.map Handling.packet) mcu ∧ mcu.responseReady = false := by
        intro mcu requests
        refine requests.keeps (fun mcu => Numbered (handled.map Handling.packet) mcu ∧
          mcu.responseReady = false) ⟨hsensed.numbered, hunready'⟩ ?_
        rintro mcu id payload ⟨hnumbered, hready⟩
        exact ⟨hnumbered.request now id payload, request_unready now id payload hready⟩
      cases played with
      | goesOn program mcu requests =>
        obtain ⟨hnumbered, hready⟩ := hclient mcu requests
        have hquiet : ¬ TickBegins c now := by
          rw [hbegins]
          rintro ⟨-, hstopping⟩
          rw [running] at hstopping
          cases hstopping
        rw [if_neg hquiet]
        refine ⟨sound_of_unsent hnumbered (fun h => Bool.noConfusion (hready.symm.trans h))
          (fun _ => rfl) ⟨hsensed.inOrder.heaterDone, hsensed.inOrder.motorSent,
            hsensed.inOrder.motorDone⟩ hunsent, ?_⟩
        rintro (⟨hresting, -⟩ | ⟨-, hdone⟩ | ⟨-, hfaulted, -⟩)
        · exact absurd hrunning hresting
        · exact SessionState.noConfusion (running.symm.trans hdone)
        · exact SessionState.noConfusion (running.symm.trans hfaulted)
      | finishes program mcu requests =>
        obtain ⟨hnumbered, hready⟩ := hclient mcu requests
        have hended : TickBegins c now := hbegins.mpr (And.intro hrunning rfl)
        rw [if_pos hended]
        refine ⟨sound_of_unsent ⟨hnumbered.ordered, hnumbered.pending⟩
          (fun h => Bool.noConfusion (hready.symm.trans h)) (fun _ => rfl)
          (inOrder_beginShutdown _ false) rfl, ?_⟩
        rintro (⟨-, hstate⟩ | ⟨-, hstate⟩ | ⟨-, hstate, -⟩) <;> cases hstate
    | stops stopping =>
      have hquiet : ¬ TickBegins c now := by
        rw [hbegins, ← hstate]
        rintro ⟨hrunning, -⟩
        rcases stopping with hstopping | hfaulted
        · rw [hrunning] at hstopping
          cases hstopping
        · rw [hrunning] at hfaulted
          cases hfaulted
      rw [if_neg hquiet]
      have hrearmed := (hsensed.acknowledge hunready').rearm
      obtain ⟨hsound, hfinished⟩ := hrearmed.proceed (by rwa [rearm_state, acknowledge_state]) now
      exact ⟨hsound, fun henters => hfinished (entered henters)⟩
    | rests stopping faulted =>
      have hquiet : ¬ TickBegins c now := by
        rw [hbegins]
        rintro ⟨-, hstopping⟩
        exact stopping hstopping
      rw [if_neg hquiet]
      refine ⟨hsensed.forget hunready', ?_⟩
      rintro (⟨hresting, hrunning⟩ | ⟨hresting, hdone⟩ | ⟨-, hfaulted, -⟩)
      · exact absurd (hstate.symm.trans hrunning) hresting
      · exact absurd (hstate.symm.trans hdone) hresting
      · exact absurd hfaulted faulted

end

/-! The handler. -/

section

variable {H : Type} [Board H]

/-- A frame leaves the heater on only if it was on and no HeaterOff, or is a HeaterSetTarget. -/
theorem enabled_of_executed {h h' : CommandHandler H} {request : Frame} {state : Inputs}
    {faulted : Bool} {reply : Option Commands.Reply}
    (hexecuted : CommandHandler.Executed h request state faulted reply h')
    (henabled : h'.pid.enabled = true) :
    (h.pid.enabled = true ∧
        ¬ (request.msgId = MsgId.heaterOff ∧ ∃ payload, reply = some (respond payload))) ∨
      request.msgId = MsgId.heaterSetTarget := by
  rcases CommandHandler.pid_of_executed hexecuted with ⟨hkept, hother⟩ | ⟨-, hset, -, -⟩ | hoff
  · rw [hkept] at henabled
    exact Or.inl ⟨henabled, fun ⟨hid, payload, hreply⟩ => hother payload hreply hid⟩
  · exact Or.inr hset
  · rw [hoff] at henabled
    cases henabled

/-- A frame leaves the motor with a target only if it had one and this is no MotorStop, or is a
MotorSetTarget. -/
theorem target_of_executed {h h' : CommandHandler H} {request : Frame} {state : Inputs}
    {faulted : Bool} {reply : Option Commands.Reply}
    (hexecuted : CommandHandler.Executed h request state faulted reply h')
    (htarget : h'.motor.targetRpm ≠ 0) :
    (h.motor.targetRpm ≠ 0 ∧
        ¬ (request.msgId = MsgId.motorStop ∧ ∃ payload, reply = some (respond payload))) ∨
      request.msgId = MsgId.motorSetTarget := by
  rcases CommandHandler.motor_of_executed hexecuted with ⟨hkept, hother⟩ | ⟨-, hset, -, -⟩ |
    ⟨-, -, -, hstop⟩
  · rw [hkept] at htarget
    exact Or.inl ⟨htarget, fun ⟨hid, payload, hreply⟩ => hother payload hreply hid⟩
  · exact Or.inr hset
  · rw [hstop] at htarget
    exact absurd rfl htarget

/-- An output that is on was switched on after every acknowledged command that switches it off. -/
structure Witnessed (handler : CommandHandler H) (handled : List Handling) : Prop where
  heater : handler.pid.enabled = true → AnsweredSince (fun entry => entry.Accepted MsgId.heaterOff)
    (fun entry => entry.packet.frame.msgId = MsgId.heaterSetTarget) handled
  motor : handler.motor.targetRpm ≠ 0 → AnsweredSince (fun entry => entry.Accepted MsgId.motorStop)
    (fun entry => entry.packet.frame.msgId = MsgId.motorSetTarget) handled

theorem Witnessed.handle {handler : CommandHandler H} {handled : List Handling}
    (h : Witnessed handler handled) (packet : Packet) (state : Inputs) (faulted : Bool) :
    Witnessed (handler.execute packet.frame state faulted).2
      (handled ++ [⟨packet, (handler.execute packet.frame state faulted).1⟩]) := by
  have hexecuted := CommandHandler.execute_executed handler packet.frame state faulted
  constructor
  · intro henabled
    rcases enabled_of_executed hexecuted henabled with ⟨hbefore, hother⟩ | hset
    · exact AnsweredSince.snoc (Or.inl (h.heater hbefore)) hother
    · refine AnsweredSince.snoc (Or.inr hset) ?_
      rintro ⟨hoff, -⟩
      exact absurd (hset.symm.trans hoff) (by decide)
  · intro htarget
    rcases target_of_executed hexecuted htarget with ⟨hbefore, hother⟩ | hset
    · exact AnsweredSince.snoc (Or.inl (h.motor hbefore)) hother
    · refine AnsweredSince.snoc (Or.inr hset) ?_
      rintro ⟨hstop, -⟩
      exact absurd (hset.symm.trans hstop) (by decide)

omit [Board H] in
/-- Acknowledged commands that nothing undoes leave both outputs off. -/
theorem Finished.shutDown {s : Device H P}
    (h : Finished s.controller s.handled s.mark)
    (hnumbered : Numbered (s.handled.map Handling.packet) s.controller.mcu)
    (hwitnessed : Witnessed s.handler s.handled) : ShutDown s := by
  obtain ⟨off, stop, hoff, hstop⟩ := h
  have hordered : s.handled.Pairwise fun x y => x.packet.stamp < y.packet.stamp := by
    have hstamps := (List.pairwise_append.mp hnumbered.ordered.increasing).1
    rwa [List.pairwise_map] at hstamps
  obtain ⟨before, between, after, hsplit⟩ :=
    exists_split_of_lt (fun entry => entry.packet.stamp) hordered hoff.mem hstop.mem hstop.after
  have hquelled : ∀ id number, Quelled id number (trail s.handled s.controller.mcu) →
      ∀ entry ∈ s.handled, number ≤ entry.packet.stamp → entry.packet.frame.msgId ≠ id := by
    intro id number hquelled entry hentry
    exact hquelled _ (List.mem_append_left _ (List.mem_map_of_mem hentry))
  have hnoHeater : ∀ entry ∈ between ++ stop :: after,
      entry.packet.frame.msgId ≠ MsgId.heaterSetTarget := by
    intro entry hentry
    have hlater := (List.pairwise_cons.mp (List.pairwise_append.mp (hsplit ▸ hordered)).2.1).1 entry
      hentry
    refine hquelled _ _ hoff.quelled entry ?_ hlater.le
    rw [hsplit]
    exact List.mem_append_right _ (List.mem_cons_of_mem _ hentry)
  have hnoMotor : ∀ entry ∈ after, entry.packet.frame.msgId ≠ MsgId.motorSetTarget := by
    intro entry hentry
    have hrest := (List.pairwise_cons.mp (List.pairwise_append.mp (hsplit ▸ hordered)).2.1).2
    have hlater := (List.pairwise_cons.mp (List.pairwise_append.mp hrest).2.1).1 entry hentry
    refine hquelled _ _ hstop.quelled entry ?_ hlater.le
    rw [hsplit]
    exact List.mem_append_right _ (List.mem_cons_of_mem _ (List.mem_append_right _
      (List.mem_cons_of_mem _ hentry)))
  refine ⟨⟨before, off, between, stop, after, hsplit, ?_, hoff.accepted, hstop.accepted, hnoHeater,
    hnoMotor⟩, ?_, ?_⟩
  · -- an entry from before the mark would precede itself
    by_contra hmark
    rw [not_le] at hmark
    have hmem : off ∈ s.handled.take s.mark := by
      obtain ⟨extra, hextra⟩ := Nat.exists_eq_add_of_lt hmark
      rw [hsplit, hextra, List.take_append]
      refine List.mem_append_right _ ?_
      rw [show before.length + extra + 1 - before.length = extra + 1 by omega, List.take_succ_cons]
      exact List.mem_cons_self
    exact absurd (hoff.recent off hmem) (lt_irrefl _)
  · by_contra henabled
    rw [Bool.not_eq_false] at henabled
    obtain ⟨entry, hentry, hset⟩ := hwitnessed.heater henabled before off _ hsplit hoff.accepted
    exact hnoHeater entry hentry hset
  · by_contra htarget
    have hsplit' : s.handled = (before ++ off :: between) ++ stop :: after := by
      rw [hsplit]
      simp
    obtain ⟨entry, hentry, hset⟩ := hwitnessed.motor htarget _ stop after hsplit' hstop.accepted
    exact hnoMotor entry hentry hset

end

end Culina.AcknowledgedShutdown
