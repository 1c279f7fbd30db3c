import Culina.Appliance
import Culina.Programs
import Culina.Lid

/-!
The commands of accepted recipes. Every bound of the catalogue that the recipe reader can check,
it checks; what is left to the moment of the command is the tare, which asks for a slow motor.
Without losses, late answers and faults a session runs without a nack exactly as long as the
handler finds the motor slow whenever a tare reaches it.
-/
namespace Culina.RecipeCommands

open Wire Services Drives Ports Client McuClient Cooking CookingController Packets Appliance Runs
open Programs RecipeParser CStrings Lid
open Commands hiding Reply
open CommandHandler

variable {H : Type}

/-! Commands that depend on no measurement. -/

/-- A request that is admitted whatever is measured, or a tare. -/
structure Command (frame : Frame) : Prop where
  type : frame.type = .request
  tare : frame.msgId = MsgId.scaleTare → frame.payloadLen = 0
  others : frame.msgId ≠ MsgId.scaleTare → ∀ state, Admissible frame state

theorem command_bare {id : MsgId} (hid : BareCommand id) (seq : Byte) :
    Command (Frame.ofBytes .request seq id []) :=
  ⟨rfl, fun _ => rfl, fun _ _ => Admissible.bare hid rfl⟩

theorem command_other {id : MsgId} (hid : id ≠ MsgId.scaleTare) {payload : List Byte} {seq : Byte}
    (hadmissible : ∀ state, Admissible (Frame.ofBytes .request seq id payload) state) :
    Command (Frame.ofBytes .request seq id payload) :=
  ⟨rfl, fun htare => absurd htare hid, fun _ => hadmissible⟩

theorem command_tare (seq : Byte) : Command (Frame.ofBytes .request seq MsgId.scaleTare []) :=
  ⟨rfl, fun _ => rfl, fun htare => absurd rfl htare⟩

theorem payload_ofBytes {type : FrameType} {seq : Byte} {id : MsgId} {payload : List Byte} {i : ℕ}
    (hi : i < kMaxPayload) : (Frame.ofBytes type seq id payload).payload[i] = payload.getD i 0 := by
  simp [Frame.ofBytes]

theorem command_motor (rpm : ℕ) {rampProfile : Byte} (hramp : rampProfile < kRampBurst)
    (seq : Byte) :
    Command (Frame.ofBytes .request seq MsgId.motorSetTarget
      (putU16 (BitVec.ofNat 16 rpm) ++ [rampProfile])) := by
  refine command_other (by decide) fun _ => Admissible.motorRamped rfl rfl ?_
  rw [payload_ofBytes (by decide)]
  exact hramp

theorem getI16_putI16 {target : ℤ} (hlow : -2 ^ 15 ≤ target) (hhigh : target < 2 ^ 15) :
    getI16 ((putI16 target).getD 0 0) ((putI16 target).getD 1 0) = target := by
  have hvalue : getI16 ((putI16 target).getD 0 0) ((putI16 target).getD 1 0) =
      (getU16 ((BitVec.ofInt 16 target).setWidth 8) ((BitVec.ofInt 16 target >>> 8).setWidth 8)).toInt :=
    rfl
  rw [hvalue, getU16_putU16, BitVec.toInt_ofInt]
  exact Int.bmod_eq_of_le (by omega) (by omega)

theorem command_heater {target : DeciCelsius} (hrange : 370 ≤ target ∧ target ≤ 1600) (seq : Byte) :
    Command (Frame.ofBytes .request seq MsgId.heaterSetTarget (putI16 target)) := by
  refine command_other (by decide) fun _ => Admissible.heaterSet rfl rfl ?_
  rw [payload_ofBytes (by decide), payload_ofBytes (by decide),
    getI16_putI16 (le_trans (by decide) hrange.1) (lt_of_le_of_lt hrange.2 (by decide))]
  exact hrange

theorem command_of_asks {step : RecipeStep} (hstep : step.WellFormed) {id : MsgId}
    {payload : List Byte} (hasks : GuidedRecipe.Asks step id payload) (seq : Byte) :
    Command (Frame.ofBytes .request seq id payload) := by
  cases hasks with
  | motor rpm rampProfile ramp =>
    refine command_motor rpm ?_ seq
    rcases ramp with rfl | rfl <;> decide
  | heater kind =>
    cases hstep with
    | heat _ temp => exact command_heater temp seq
    | _ other => cases kind.symm.trans other
  | motorStop => exact command_bare (by decide) seq
  | heaterOff => exact command_bare (by decide) seq
  | tare _ => exact command_tare seq

/-- A tare that the handler takes finds the motor slow and the scale readable. -/
def TareGranted [Board H] (packet : Packet) (state : Inputs) (board : H) : Prop :=
  packet.frame.msgId = MsgId.scaleTare →
    state.rpm ≤ kTareMaxRpm ∧ ∃ raw, (Board.readRaw board).1 = .ok raw

theorem Command.granted_iff [Board H] {packet : Packet} (h : Command packet.frame) (handler : CommandHandler H)
    (state : Inputs) :
    handler.Granted packet.frame state false ↔ TareGranted packet state handler.board := by
  constructor
  · rintro ⟨⟨-, hadmissible⟩, hreadable⟩ htare
    refine ⟨?_, hreadable htare⟩
    cases hadmissible with
    | tare _ _ slow => exact slow
    | bare msgId => exact absurd (htare ▸ msgId) (by decide)
    | _ msgId => exact absurd (msgId.symm.trans htare) (by decide)
  · intro hgranted
    by_cases htare : packet.frame.msgId = MsgId.scaleTare
    · obtain ⟨hslow, hreadable⟩ := hgranted htare
      exact ⟨admits_of_running rfl (Admissible.tare htare (h.tare htare) hslow), fun _ => hreadable⟩
    · exact granted_of_admits (admits_of_running rfl (h.others htare state)) htare

/-! The client. -/

/-- No fault, no failed command, and only such commands on their way. -/
structure Fine (c : McuClient FrameLink) : Prop where
  lastFault : c.lastFault = noFault
  lastCommandStatus : c.lastCommandStatus = .ok
  started : c.waiting = true → c.requestStartedMs = c.sentAtMs
  outbox : ∀ packet ∈ c.link.outbox, Command packet.frame

theorem tried_commands {c : McuClient FrameLink} (h : ∀ packet ∈ c.link.outbox, Command packet.frame)
    {id : MsgId} {payload : List Byte}
    (hcommand : Command (Frame.ofBytes .request c.nextSeq id payload)) :
    ∀ packet ∈ (tried c id payload).outbox, Command packet.frame := by
  intro sent hsent
  rw [tried_outbox] at hsent
  split at hsent
  · rcases List.mem_append.mp hsent with hold | hnew
    · exact h sent hold
    · rw [List.mem_singleton] at hnew
      subst hnew
      exact hcommand
  · exact h sent hsent

theorem Fine.request {c : McuClient FrameLink} (h : Fine c) {id : MsgId} {payload : List Byte}
    (hcommand : ∀ seq, Command (Frame.ofBytes .request seq id payload)) (now : Millis) :
    Fine (c.request now id payload).2 := by
  have houtbox := tried_commands h.outbox (hcommand c.nextSeq)
  have hrequest := request_requested c now id payload
  generalize (c.request now id payload).1 = status at hrequest
  generalize (c.request now id payload).2 = c' at hrequest
  cases hrequest with
  | accepted _ => exact ⟨h.lastFault, rfl, fun _ => rfl, houtbox⟩
  | unsent _ _ _ _ _ => exact ⟨h.lastFault, h.lastCommandStatus, h.started, houtbox⟩
  | refused _ _ => exact h

/-- Neither a nack nor the report of a fault. -/
def Kind (frame : Frame) : Prop := frame.type ≠ .nack ∧ ¬ IsFault frame

theorem Fine.receiveAll {c : McuClient FrameLink} (h : Fine c) {frames : List Frame}
    (hkind : ∀ frame ∈ frames, Kind frame) (now : Millis) : Fine (receiveAll c frames now) := by
  induction frames generalizing c with
  | nil => exact h
  | cons frame rest ih =>
    obtain ⟨hfirst, hrest⟩ := List.forall_mem_cons.mp hkind
    refine ih (?_ : Fine (c.receive frame now)) hrest
    have hreceived := receive_received c frame now
    generalize c.receive frame now = c' at hreceived
    cases hreceived with
    | sample _ => exact ⟨h.lastFault, h.lastCommandStatus, h.started, h.outbox⟩
    | fault type => exact absurd type hfirst.2
    | answer found =>
      have htype : frame.type = .response := found.1.resolve_right hfirst.1
      refine ⟨h.lastFault, ?_, fun hwaiting => (by cases hwaiting), h.outbox⟩
      exact if_pos htype
    | ignored _ => exact h

/-- The poll comes within the response timeout of the request that is out. -/
def Timely (c : McuClient FrameLink) (now : Millis) : Prop :=
  c.waiting = true → now - c.sentAtMs ≤ kResponseTimeoutMs

instance (c : McuClient FrameLink) (now : Millis) : Decidable (Timely c now) :=
  inferInstanceAs (Decidable (_ → _))

/-- The timers leave a request alone while it is within its timeout. -/
theorem pollTimers_timely {c : McuClient FrameLink}
    (hstarted : c.waiting = true → c.requestStartedMs = c.sentAtMs) {now : Millis}
    (htimely : Timely c now) : c.pollTimers now = c := by
  by_cases hwaiting : c.waiting = true
  · have hwithin := htimely hwaiting
    have hstarted := hstarted hwaiting
    have hearly : ¬ (now - c.requestStartedMs ≥ kRequestDeadlineMs) := by
      rw [hstarted]
      simp only [kResponseTimeoutMs, kRequestDeadlineMs] at hwithin ⊢
      bv_omega
    have hquiet : ¬ (0 < (now - c.sentAtMs - kResponseTimeoutMs).toInt) := by
      generalize now - c.sentAtMs = age at hwithin
      simp only [kResponseTimeoutMs] at hwithin ⊢
      rw [BitVec.toInt_eq_toNat_cond]
      bv_omega
    unfold McuClient.pollTimers
    rw [if_neg fun hlate => hearly hlate.2, if_neg fun hlate => hquiet hlate.2]
  · exact pollTimers_idle (Bool.not_eq_true _ ▸ hwaiting) now

theorem Fine.pollTimers {c : McuClient FrameLink} (h : Fine c) {now : Millis} (htimely : Timely c now) :
    c.pollTimers now = c := pollTimers_timely h.started htimely

theorem Fine.beaten {c c' : McuClient FrameLink} (h : Fine c) {now : Millis}
    (hbeaten : Beaten c now c') : Fine c' := by
  have houtbox := tried_commands h.outbox (command_bare (by decide : BareCommand MsgId.ping) c.nextSeq)
  cases hbeaten with
  | quiet _ => exact h
  | unsent _ _ => exact ⟨h.lastFault, h.lastCommandStatus, h.started, houtbox⟩
  | sent _ _ _ => exact ⟨h.lastFault, h.lastCommandStatus, h.started, houtbox⟩

theorem Fine.poll {c : McuClient FrameLink} (h : Fine c) {now : Millis} (htimely : Timely c now)
    (hkind : ∀ frame ∈ c.link.inbox, Kind frame) : Fine (c.poll now) := by
  have hpoll : c.poll now = (load (Packets.receiveAll c c.link.inbox now) []).pollHeartbeat now := by
    rw [← pollLink_eq]
    exact congrArg (fun c' => (pollLink c' now).pollHeartbeat now) (h.pollTimers htimely)
  have hheard := h.receiveAll hkind now
  rw [hpoll]
  refine Fine.beaten ?_ (pollHeartbeat_beaten _ now)
  exact ⟨hheard.lastFault, hheard.lastCommandStatus, hheard.started, hheard.outbox⟩

/-! The session. -/

/-- No fault, and only well-formed recipes. -/
structure Calm (c : CookingController FrameLink GuidedRecipe) : Prop where
  client : Fine c.mcu
  unfaulted : c.faultShutdown = false
  state : c.state ≠ .faulted
  program : ∀ program, c.program = some program → program.recipe.WellFormed
  pending : ∀ program, c.pendingProgram = some program → program.recipe.WellFormed

section

variable {c : CookingController FrameLink GuidedRecipe}

theorem Fine.cleared {c : McuClient FrameLink} (h : Fine c) : Fine c.clearFault.clearCommandStatus :=
  ⟨rfl, rfl, h.started, h.outbox⟩

theorem stopping_ne : SessionState.stopping ≠ .faulted := by decide

theorem Calm.beginShutdown (h : Calm c) : Calm (c.beginShutdown false) :=
  ⟨⟨h.client.lastFault, rfl, h.client.started, h.client.outbox⟩, rfl, stopping_ne, h.program,
    fun _ hpending => (by cases hpending)⟩

theorem Calm.begin (h : Calm c) {program : GuidedRecipe} (hprogram : program.recipe.WellFormed)
    (now : Millis) : Calm (c.begin program now) := by
  refine ⟨h.client.cleared, rfl, ?_, ?_, fun _ hpending => (by cases hpending)⟩
  · change SessionState.running ≠ .faulted
    decide
  · intro started hstarted
    cases hstarted
    exact hprogram

theorem Calm.sense (h : Calm c) : Calm c.sense.2 := by
  refine ⟨?_, h.unfaulted, h.state, h.program, h.pending⟩
  rw [sense_mcu]
  exact ⟨h.client.lastFault, h.client.lastCommandStatus, h.client.started, h.client.outbox⟩

theorem Calm.acknowledge (h : Calm c) (response : Option Frame) : Calm (c.acknowledge response) := by
  have hack := acknowledge_acknowledged c response
  generalize c.acknowledge response = c' at hack
  cases hack with
  | heater _ _ _ _ _ _ => exact ⟨h.client, h.unfaulted, h.state, h.program, h.pending⟩
  | motor _ _ _ _ _ _ => exact ⟨h.client, h.unfaulted, h.state, h.program, h.pending⟩
  | other _ _ => exact h

theorem Calm.proceed (h : Calm c) (now : Millis) : Calm (c.proceed now) := by
  have hheater := h.client.request (command_bare (by decide : BareCommand MsgId.heaterOff)) now
  have hmotor := h.client.request (command_bare (by decide : BareCommand MsgId.motorStop)) now
  have hproceed := proceed_proceeded c now
  generalize c.proceed now = c' at hproceed
  cases hproceed with
  | waits _ _ => exact h
  | heater _ _ _ => exact ⟨hheater, h.unfaulted, h.state, h.program, h.pending⟩
  | motor _ _ _ _ => exact ⟨hmotor, h.unfaulted, h.state, h.program, h.pending⟩
  | begins program _ _ pending _ _ =>
    refine Calm.begin ?_ (h.pending program pending) now
    exact ⟨h.client, h.unfaulted, h.state, h.program, fun _ hpending => (by cases hpending)⟩
  | rests _ _ _ =>
    refine ⟨h.client, h.unfaulted, ?_, h.program, h.pending⟩
    rw [h.unfaulted]
    change SessionState.done ≠ .faulted
    decide

theorem Calm.runStoppingSequence (h : Calm c) (response : Option Frame) (now : Millis) :
    Calm (c.runStoppingSequence response now) := by
  have hack := h.acknowledge response
  unfold CookingController.runStoppingSequence
  rw [rearm_of_ok hack.client.lastCommandStatus]
  exact hack.proceed now

/-- Whatever a well-formed recipe asks for is such a command. -/
theorem Fine.onTick {client : McuClient FrameLink} (h : Fine client) {program : GuidedRecipe}
    (hprogram : program.recipe.WellFormed) (now elapsed : Millis) :
    Fine (program.onTick client now elapsed).2 := by
  rcases (program.onTick_ticked client now elapsed).2 with hsame | ⟨i, hticked⟩
  · rw [hsame]
    exact h
  · generalize (program.onTick client now elapsed).2 = client' at hticked
    cases hticked with
    | idle => exact h
    | asks id payload asked => exact h.request (command_of_asks (hprogram.step i) asked) now

theorem Calm.runProgram (h : Calm c) {program : GuidedRecipe} (hprogram : program.recipe.WellFormed)
    (now : Millis) : Calm (c.runProgram program now) := by
  have hclient := h.client.onTick hprogram now (now - c.startedMs)
  have hrecipe := (program.onTick_ticked c.mcu now (now - c.startedMs)).1
  have hcalm : Calm { c with
      program := some (program.onTick c.mcu now (now - c.startedMs)).1
      mcu := (program.onTick c.mcu now (now - c.startedMs)).2 } := by
    refine ⟨hclient, h.unfaulted, h.state, ?_, h.pending⟩
    intro started hstarted
    cases hstarted
    rw [hrecipe]
    exact hprogram
  unfold CookingController.runProgram
  dsimp only
  split
  · exact hcalm.beginShutdown
  · exact hcalm

theorem Calm.advance (h : Calm c) (response : Option Frame) (now : Millis) :
    Calm (c.advance response now) := by
  cases hstate : c.state with
  | running =>
    cases hprogram : c.program with
    | none =>
      have hrests : c.advance response now = c := by simp [CookingController.advance, hstate, hprogram]
      rw [hrests]
      exact h
    | some program =>
      have hruns : c.advance response now = c.runProgram program now := by
        simp [CookingController.advance, hstate, hprogram]
      rw [hruns]
      exact h.runProgram (h.program program hprogram) now
  | stopping =>
    rw [advance_stopping (Or.inl hstate)]
    exact h.runStoppingSequence response now
  | faulted => exact absurd hstate h.state
  | idle =>
    have hrests : c.advance response now = c := by simp [CookingController.advance, hstate]
    rw [hrests]
    exact h
  | done =>
    have hrests : c.advance response now = c := by simp [CookingController.advance, hstate]
    rw [hrests]
    exact h

theorem Calm.tick10ms (h : Calm c) (now : Millis) : Calm (c.tick10ms now) := by
  have hquiet : ¬ c.Alarmed := by
    rintro ⟨-, hfault | hfailed⟩
    · exact hfault h.client.lastFault
    · exact hfailed h.client.lastCommandStatus
  rw [tick10ms_quiet hquiet]
  refine Calm.advance ?_ _ now
  exact ⟨h.sense.client, h.unfaulted, h.state, h.program, h.pending⟩

theorem Calm.startProgram (h : Calm c) {program : Option GuidedRecipe}
    (hprogram : ∀ started, program = some started → started.recipe.WellFormed) :
    Calm (c.startProgram program).2 := by
  unfold CookingController.startProgram
  cases program with
  | none => exact h
  | some program =>
    dsimp only
    split
    · exact h
    · have hbegun := h.beginShutdown
      refine ⟨hbegun.client, hbegun.unfaulted, hbegun.state, hbegun.program, ?_⟩
      intro started hstarted
      cases hstarted
      exact hprogram program rfl

theorem Calm.stop (h : Calm c) : Calm c.stop := by
  unfold CookingController.stop
  split
  · exact ⟨h.client, h.unfaulted, h.state, h.program, fun _ hpending => (by cases hpending)⟩
  · split
    · exact h.beginShutdown
    · exact h

theorem Calm.userNext (h : Calm c) : Calm c.userNext := by
  refine ⟨h.client, h.unfaulted, h.state, ?_, h.pending⟩
  intro next hnext
  obtain ⟨program, hprogram, rfl⟩ := Option.map_eq_some_iff.mp hnext
  exact h.program program hprogram

end

/-! Both processors. -/

/-- A recipe that the reader accepts. -/
def Accepted (recipe : Recipe) : Prop := ∃ path out, parseRecipeFile path out = (.ok, recipe)

theorem Accepted.wellFormed {recipe : Recipe} (h : Accepted recipe) : recipe.WellFormed := by
  obtain ⟨path, out, hparse⟩ := h
  exact parseRecipeFile_wellFormed hparse

/-- The program that start_recipe hands to start_program. -/
def Launches (program : GuidedRecipe) : Prop :=
  ∃ recipe, Accepted recipe ∧ program = { recipe }

theorem startRecipe_accepted {recipe : Recipe} (h : Accepted recipe)
    (c : CookingController FrameLink GuidedRecipe) :
    startRecipe c (some recipe) = c.startProgram (some { recipe }) :=
  if_neg h.wellFormed.stepCount.ne'

/-- Nothing is lost, no answer is late, no fault is latched or reported, and only accepted recipes
are started; everything measured, and all else that the user and the two processors do, is free. -/
def Permitted (s : Device H GuidedRecipe) : Action H GuidedRecipe → Prop
  | .poll now _ => Timely s.controller.mcu now
  | .start program => ∀ started, program = some started → Launches started
  | .handle _ faulted => faulted = false
  | .tell frame => frame.type ≠ .response ∧ Kind frame
  | .keepRequests _ => False
  | .keepReplies _ => False
  | _ => True

/-- Every request handled so far was answered by a response, and the session is not faulted. -/
structure Executes (s : Device H GuidedRecipe) : Prop where
  responses : ∀ entry ∈ s.handled, ∃ payload, entry.reply = some (Commands.respond payload)
  state : s.controller.state ≠ .faulted

structure Inv (s : Device H GuidedRecipe) : Prop where
  calm : Calm s.controller
  handled : ∀ entry ∈ s.handled, ∃ payload, entry.reply = some (Commands.respond payload)
  replies : ∀ reply ∈ s.replies, Kind reply.frame

theorem Inv.executes {s : Device H GuidedRecipe} (h : Inv s) : Executes s := ⟨h.handled, h.calm.state⟩

theorem inv_initial {s : Device H GuidedRecipe} (h : Initial s) : Inv s := by
  obtain ⟨accepts, ota, board, rfl⟩ := h
  refine ⟨⟨⟨rfl, rfl, fun h => (by cases h), fun _ h => (by cases h)⟩, rfl, ?_, ?_, ?_⟩, ?_, ?_⟩
  · change SessionState.idle ≠ .faulted
    decide
  · exact fun _ h => (by cases h)
  · exact fun _ h => (by cases h)
  · exact fun _ h => (by cases h)
  · exact fun _ h => (by cases h)

theorem Inv.setOutbox {s : Device H GuidedRecipe} (h : Inv s) {rest : List Packet}
    (hrest : ∀ packet ∈ rest, Command packet.frame) : Calm (setOutbox s.controller rest) := by
  obtain ⟨hclient, hunfaulted, hstate, hprogram, hpending⟩ := h.calm
  exact ⟨⟨hclient.lastFault, hclient.lastCommandStatus, hclient.started, hrest⟩, hunfaulted, hstate,
    hprogram, hpending⟩

/-- The handler's step, once it has chosen its answer. -/
def answered (s : Device H GuidedRecipe) (packet : Packet) (rest : List Packet)
    (result : Option Commands.Reply × CommandHandler H) : Device H GuidedRecipe :=
  { s with
    controller := Appliance.setOutbox s.controller rest
    handler := result.2
    replies := s.replies ++ (result.1.map (replyTo packet)).toList
    handled := s.handled ++ [⟨packet, result.1⟩] }

theorem Inv.answered {s : Device H GuidedRecipe} (h : Inv s) (packet : Packet) {rest : List Packet}
    (hrest : ∀ packet ∈ rest, Command packet.frame) {payload : List Byte}
    {result : Option Commands.Reply × CommandHandler H}
    (hreply : result.1 = some (Commands.respond payload)) : Inv (answered s packet rest result) := by
  refine ⟨h.setOutbox hrest, ?_, ?_⟩
  · intro entry hentry
    rcases List.mem_append.mp hentry with hold | hnew
    · exact h.handled entry hold
    · rw [List.mem_singleton] at hnew
      subst hnew
      exact ⟨payload, hreply⟩
  · intro reply hmem
    rcases List.mem_append.mp hmem with hold | hnew
    · exact h.replies reply hold
    · rw [hreply] at hnew
      have hsame : reply = replyTo packet (Commands.respond payload) := by simpa using hnew
      subst hsame
      constructor
      · intro hnack
        cases hnack
      · rintro ⟨htelemetry, -⟩
        cases htelemetry

theorem not_executes_answered {s : Device H GuidedRecipe} {packet : Packet} {rest : List Packet}
    {result : Option Commands.Reply × CommandHandler H} (hreply : result.1 = some Commands.nack) :
    ¬ Executes (answered s packet rest result) := by
  intro h
  obtain ⟨payload, hresponse⟩ := h.responses ⟨packet, result.1⟩ (List.mem_append_right _ (by simp))
  cases hreply.symm.trans hresponse

variable [Board H]

/-- If the handler takes a tare in this step, it finds the motor slow and the scale readable. -/
def TareReady (s : Device H GuidedRecipe) : Action H GuidedRecipe → Prop
  | .handle state _ => ∀ packet ∈ (outbox s).head?, TareGranted packet state s.handler.board
  | _ => True

/-- A step of the handler goes well exactly when it takes no tare, or the tare is granted. -/
theorem Inv.handle {s : Device H GuidedRecipe} (h : Inv s) (state : Inputs) :
    (Executes (next s (.handle state false)) ↔ TareReady s (.handle state false)) ∧
      (TareReady s (.handle state false) → Inv (next s (.handle state false))) := by
  have hcommands := h.calm.client.outbox
  cases hbox : outbox s with
  | nil =>
    have hidle : next s (.handle state false) = s := by simp only [next, hbox]
    have hready : TareReady s (.handle state false) := by simp [TareReady, hbox]
    rw [hidle]
    exact ⟨⟨fun _ => hready, fun _ => h.executes⟩, fun _ => h⟩
  | cons packet rest =>
    have hmem : ∀ sent ∈ packet :: rest, Command sent.frame := by
      rw [← hbox]
      exact hcommands
    obtain ⟨hcommand, hrest⟩ := List.forall_mem_cons.mp hmem
    have hready : TareReady s (.handle state false) ↔ TareGranted packet state s.handler.board := by
      simp [TareReady, hbox]
    have hnext : next s (.handle state false) =
        RecipeCommands.answered s packet rest (s.handler.execute packet.frame state false) := by
      simp only [next, hbox, RecipeCommands.answered]
    have hreply := reply_of_executed (execute_executed s.handler packet.frame state false) hcommand.type
    rw [hready, hnext, ← hcommand.granted_iff s.handler state]
    rcases hreply with ⟨payload, hreply, hgranted⟩ | ⟨hreply, hrefused⟩
    · have hinv := h.answered packet hrest hreply
      exact ⟨⟨fun _ => hgranted, fun _ => hinv.executes⟩, fun _ => hinv⟩
    · exact ⟨⟨fun hexecutes => absurd hexecutes (not_executes_answered hreply),
        fun hgranted => absurd hgranted hrefused⟩, fun hgranted => absurd hgranted hrefused⟩

theorem Inv.poll {s : Device H GuidedRecipe} (h : Inv s) {now : Millis} (count : ℕ)
    (htimely : Timely s.controller.mcu now) : Inv (next s (.poll now count)) := by
  obtain ⟨hclient, hunfaulted, hstate, hprogram, hpending⟩ := h.calm
  have hloaded : Fine (loaded s count).mcu :=
    ⟨hclient.lastFault, hclient.lastCommandStatus, hclient.started, hclient.outbox⟩
  have hkind : ∀ frame ∈ (loaded s count).mcu.link.inbox, Kind frame := by
    intro frame hframe
    obtain ⟨reply, hreply, rfl⟩ := List.mem_map.mp hframe
    exact h.replies reply (List.mem_of_mem_take hreply)
  refine ⟨⟨hloaded.poll htimely hkind, hunfaulted, hstate, hprogram, hpending⟩, h.handled, ?_⟩
  intro reply hreply
  exact h.replies reply (List.mem_of_mem_drop hreply)

/-- Every other permitted step keeps the invariant. -/
theorem Inv.next {s : Device H GuidedRecipe} (h : Inv s) {action : Action H GuidedRecipe}
    (hpermitted : Permitted s action) (hready : TareReady s action) : Inv (next s action) := by
  cases action with
  | tick now => exact ⟨h.calm.tick10ms now, h.handled, h.replies⟩
  | poll now count => exact h.poll count hpermitted
  | start program =>
    refine ⟨h.calm.startProgram ?_, h.handled, h.replies⟩
    intro started hstarted
    obtain ⟨recipe, haccepted, rfl⟩ := hpermitted started hstarted
    exact haccepted.wellFormed
  | stop => exact ⟨h.calm.stop, h.handled, h.replies⟩
  | userNext => exact ⟨h.calm.userNext, h.handled, h.replies⟩
  | handle state faulted =>
    cases hpermitted
    exact (h.handle state).2 hready
  | tell frame =>
    refine ⟨h.calm, h.handled, ?_⟩
    intro reply hreply
    rcases List.mem_append.mp hreply with hold | hnew
    · exact h.replies reply hold
    · rw [List.mem_singleton] at hnew
      subst hnew
      exact hpermitted.2
  | keepRequests kept => exact hpermitted.elim
  | keepReplies kept => exact hpermitted.elim
  | _ => exact ⟨h.calm, h.handled, h.replies⟩

theorem Inv.goal {s : Device H GuidedRecipe} (h : Inv s) {action : Action H GuidedRecipe}
    (hpermitted : Permitted s action) : Executes (Appliance.next s action) ↔ TareReady s action := by
  cases action with
  | handle state faulted =>
    cases hpermitted
    exact (h.handle state).1
  | _ => exact ⟨fun _ => trivial, fun hready => (h.next hpermitted hready).executes⟩

/-- In every permitted run all requests are answered by responses and the session is never faulted
exactly as long as the handler finds the motor slow and the scale readable with every tare. -/
theorem recipes_execute_iff {s : Device H GuidedRecipe} (hinit : Initial s)
    (actions : List (Action H GuidedRecipe)) (hpermitted : Along Permitted next s actions) :
    Along (fun s action => Executes (next s action)) next s actions ↔
      Along TareReady next s actions :=
  along_iff Inv (fun _ _ hinv hallowed => hinv.goal hallowed)
    (fun _ _ hinv hallowed hready => hinv.next hallowed hready) (inv_initial hinit) actions hpermitted

/-! A recipe that mixes and then weighs. -/

/-- Mix at speed 5 for a second, then weigh 500 g. -/
def mixThenWeigh : File where
  bytes := codes
    ['n', 'a', 'm', 'e', ':', 'D', '\n',
      's', 't', 'e', 'p', ':', 'm', 'i', 'x', '|', 's', 'p', 'e', 'e', 'd', '=', '5', '|',
      't', 'i', 'm', 'e', '=', '1', '\n',
      's', 't', 'e', 'p', ':', 'w', 'e', 'i', 'g', 'h', '|',
      'w', 'e', 'i', 'g', 'h', 't', '=', '5', '0', '0', '\n']

def doughRecipe : Recipe where
  name := codes ['D']
  steps := ((Vector.replicate kMaxSteps {}).set 0 { kind := .mix, dialSpeed := 5, durationS := 1 }).set 1
    { kind := .weigh, targetWeight := 500 }
  stepCount := 2

theorem doughRecipe_accepted : Accepted doughRecipe :=
  ⟨some mixThenWeigh, {}, by decide +kernel⟩

def kitchen : Device SteadySensors GuidedRecipe :=
  { controller := Sessions.initial {} none, handler := { board := {} } }

/-- Up to the tare, which goes out as soon as the MotorStop of the mix step is acknowledged. -/
def untilTare : List (Action SteadySensors GuidedRecipe) :=
  [.start (some { recipe := doughRecipe }),
    .tick 10, .handle {} false, .poll 12 1,
    .tick 20, .handle {} false, .poll 22 1,
    .tick 30, .tick 40, .handle {} false, .poll 42 1,
    .tick 50, .tick 1060, .tick 1070, .handle { rpm := 5000 } false, .poll 1072 1,
    .tick 1080]

/-- The motor turns at this speed when the tare reaches the handler. -/
def mixedRun (rpm : ℕ) : List (Action SteadySensors GuidedRecipe) :=
  untilTare ++ [.handle { rpm } false]

theorem mixedRun_permitted (rpm : ℕ) : Along Permitted next kitchen (mixedRun rpm) := by
  have hstart : Permitted kitchen (.start (some { recipe := doughRecipe })) := by
    intro started hstarted
    cases hstarted
    exact ⟨doughRecipe, doughRecipe_accepted, rfl⟩
  refine And.intro hstart ?_
  refine And.intro trivial (And.intro rfl (And.intro ?_ ?_))
  · change Timely _ _
    decide +kernel
  refine And.intro trivial (And.intro rfl (And.intro ?_ ?_))
  · change Timely _ _
    decide +kernel
  refine And.intro trivial (And.intro trivial (And.intro rfl (And.intro ?_ ?_)))
  · change Timely _ _
    decide +kernel
  refine And.intro trivial (And.intro trivial (And.intro trivial (And.intro rfl (And.intro ?_ ?_))))
  · change Timely _ _
    decide +kernel
  exact And.intro trivial (And.intro rfl trivial)

theorem tareReady_of_other {s : Device H GuidedRecipe}
    (hother : (outbox s).head?.map (fun packet => packet.frame.msgId) ≠ some MsgId.scaleTare)
    (state : Inputs) : TareReady s (.handle state false) := by
  intro packet hpacket htare
  rw [Option.mem_def.mp hpacket, Option.map_some, htare] at hother
  exact absurd rfl hother

theorem mixedRun_ready {rpm : ℕ} (hslow : rpm ≤ kTareMaxRpm) :
    Along TareReady next kitchen (mixedRun rpm) := by
  refine And.intro trivial (And.intro trivial (And.intro (tareReady_of_other ?_ _) ?_))
  · decide +kernel
  refine And.intro trivial (And.intro trivial (And.intro (tareReady_of_other ?_ _) ?_))
  · decide +kernel
  refine And.intro trivial (And.intro trivial (And.intro trivial
    (And.intro (tareReady_of_other ?_ _) ?_)))
  · decide +kernel
  refine And.intro trivial (And.intro trivial (And.intro trivial (And.intro trivial
    (And.intro (tareReady_of_other ?_ _) ?_))))
  · decide +kernel
  refine And.intro trivial (And.intro trivial (And.intro ?_ trivial))
  intro _ _ _
  exact ⟨hslow, 0, by decide +kernel⟩

theorem recipes_execute_iff_mixed :
    Along (fun s action => Executes (next s action)) next kitchen (mixedRun 50) :=
  (recipes_execute_iff ⟨_, none, _, rfl⟩ _ (mixedRun_permitted 50)).mpr (mixedRun_ready le_rfl)

/-- The tare is refused while the motor still turns at 3000 RPM. -/
theorem tare_refused :
    ¬ ∀ (s : Device SteadySensors GuidedRecipe) (actions : List (Action SteadySensors GuidedRecipe)),
      Initial s → Along Permitted next s actions →
        Along (fun s action => Executes (next s action)) next s actions := by
  intro h
  have hexecutes := Along.at (h kitchen (mixedRun 3000) ⟨_, none, _, rfl⟩ (mixedRun_permitted 3000))
  have hlast : ((next (untilTare.foldl next kitchen) (.handle { rpm := 3000 } false)).handled.getLast?.bind
      Handling.reply) = some Commands.nack := by decide +kernel
  obtain ⟨entry, hentry, hnack⟩ := Option.bind_eq_some_iff.mp hlast
  obtain ⟨payload, hresponse⟩ := hexecutes.responses entry (List.mem_of_getLast? hentry)
  cases hnack.symm.trans hresponse

end Culina.RecipeCommands
