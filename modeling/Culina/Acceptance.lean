import Culina.Supervision
import Culina.Lid

/-!
The message catalogue. A request gets one reply, which is a response exactly when the
catalogue admits the request on what was measured in its tick; a refusal leaves the
drives, the tare, the lid lock and the fault alone.
-/
namespace Culina.Acceptance

open Wire Drives Ports Commands CommandHandler Safety SafetyMcu Supervision Machine SerialLink Lid

variable {K H : Type} [Board H]

section Loop

variable [LinkPort K]

/-- The frame loop that starts in the first state comes to handle the frame in the second. -/
inductive Handles (now : Millis) : SafetyMcu K H → SafetyMcu K H → Frame → Prop
  | head {s : SafetyMcu K H} {link : K} {frame : Frame}
      (polled : LinkPort.poll s.link now = (some frame, link)) : Handles now s { s with link } frame
  | tail {s t : SafetyMcu K H} {link : K} {first frame : Frame}
      (polled : LinkPort.poll s.link now = (some first, link))
      (later : Handles now (({ s with link } : SafetyMcu K H).handleFrame first now) t frame) :
      Handles now s t frame

/-- Every frame that a tick handles is handled in such a state. -/
theorem handles_of_logged (s : SafetyMcu K H) (now : Millis) (fuel : ℕ) {x : Exchange}
    (hlogged : x ∈ (s.pollFrames fuel now).2) :
    ∃ t, Handles now s t x.frame ∧ x = t.exchange x.frame now := by
  induction fuel generalizing s with
  | zero => cases hlogged
  | succ fuel ih =>
    rcases hpoll : LinkPort.poll s.link now with ⟨_ | frame, link⟩
    · simp only [pollFrames, hpoll, List.not_mem_nil] at hlogged
    · simp only [pollFrames, hpoll, List.mem_cons] at hlogged
      rcases hlogged with rfl | hlater
      · exact ⟨{ s with link }, Handles.head hpoll, rfl⟩
      · obtain ⟨t, hhandles, hexchange⟩ := ih _ hlater
        exact ⟨t, Handles.tail hpoll hhandles, hexchange⟩

theorem handles_of_exchanges (s : SafetyMcu K H) (now : Millis) {x : Exchange}
    (hlogged : x ∈ s.exchanges now) :
    ∃ t, Handles now s.sampleStage t x.frame ∧ x = t.exchange x.frame now :=
  handles_of_logged _ now _ hlogged

/-- The loop keeps the sample that all its frames are judged by. -/
theorem Handles.sampled {now : Millis} {s t : SafetyMcu K H} {frame : Frame}
    (h : Handles now s t frame) (hs : Supervised s) :
    Supervised t ∧ t.inputs = s.inputs ∧ t.tempSensorOk = s.tempSensorOk := by
  induction h with
  | head polled => exact ⟨⟨hs.latched, hs.sensor, hs.motor⟩, rfl, rfl⟩
  | tail polled _ ih =>
    refine ih (handleFrame_supervised ?_ _ now)
    exact ⟨hs.latched, hs.sensor, hs.motor⟩

/-- Without a latched fault a frame is judged by what was measured in its tick. -/
theorem current_of_running {now : Millis} {s t : SafetyMcu K H} {frame : Frame}
    (hs : Supervised s) (h : Handles now s.sampleStage t frame) (hrunning : t.fault = .none) :
    ∃ reading, (Board.readDeciCelsius s.handler.board).1 = .ok reading ∧
      t.inputs = Supervision.sampled (Board.readDeciCelsius s.handler.board).2 reading := by
  obtain ⟨htsuper, hinputs, hsensor⟩ := h.sampled (sampleStage_supervised hs)
  rcases hread : Board.readDeciCelsius s.handler.board with ⟨status | reading, board⟩
  · obtain ⟨_, hunread⟩ := sampleStage_error hs hread
    rw [htsuper.sensor (hsensor.trans hunread)] at hrunning
    cases hrunning
  · refine ⟨reading, rfl, ?_⟩
    rw [hinputs, sampleStage_ok hread]

end Loop

/-! The catalogue. -/

/-- The catalogue on the measurements of a tick: the temperature read, the board behind it, and the
scale as it answers when the request is handled. -/
inductive Catalogued (request : Frame) (fault : FaultCode) (celsius : Except Status DeciCelsius)
    (board : H) (scale : Except Status ℤ) : Prop
  | anytime (msgId : AllowedInFault request.msgId) (payloadLen : request.payloadLen = 0)
  | bare (running : fault = .none)
      (msgId : request.msgId = MsgId.scaleRead ∨ request.msgId = MsgId.lidLock)
      (payloadLen : request.payloadLen = 0)
  | motorRamped (running : fault = .none) (msgId : request.msgId = MsgId.motorSetTarget)
      (payloadLen : request.payloadLen = 3) (ramp : request.payload[2] < 3)
  | motorBurst (running : fault = .none) (msgId : request.msgId = MsgId.motorSetTarget)
      (payloadLen : request.payloadLen = 3) (ramp : request.payload[2] = 3)
      (locked : Board.isLocked board = true) (reading : DeciCelsius) (read : celsius = .ok reading)
      (cool : toCelsius reading ≤ 60)
  | heaterSet (running : fault = .none) (msgId : request.msgId = MsgId.heaterSetTarget)
      (payloadLen : request.payloadLen = 2)
      (range : 370 ≤ getI16 request.payload[0] request.payload[1] ∧
        getI16 request.payload[0] request.payload[1] ≤ 1600)
  | tare (running : fault = .none) (msgId : request.msgId = MsgId.scaleTare)
      (payloadLen : request.payloadLen = 0) (slow : Board.rpm board ≤ 50) (raw : ℤ)
      (read : scale = .ok raw)
  | lidUnlock (running : fault = .none) (msgId : request.msgId = MsgId.lidUnlock)
      (payloadLen : request.payloadLen = 0) (slow : Board.rpm board < 100)

/-- On the tick's sample the handler asks what the catalogue asks, but for the scale. -/
theorem catalogued_iff {request : Frame} {t : SafetyMcu K H} {celsius : Except Status DeciCelsius}
    {board : H} {scale : Except Status ℤ}
    (hcurrent : t.fault = .none →
      ∃ reading, celsius = .ok reading ∧ t.inputs = Supervision.sampled board reading) :
    Catalogued request t.fault celsius board scale ↔
      Admits request t.inputs (decide (t.fault ≠ .none)) ∧
        (request.msgId = MsgId.scaleTare → ∃ raw, scale = .ok raw) := by
  have hgate : t.fault = .none →
      (decide (t.fault ≠ .none) = true → AllowedInFault request.msgId) := by
    intro hrunning hfaulted
    exact absurd hrunning (of_decide_eq_true hfaulted)
  constructor
  · intro h
    cases h with
    | anytime msgId payloadLen =>
      refine ⟨⟨fun _ => msgId, Admissible.bare ?_ payloadLen⟩, fun htare => ?_⟩
      · rcases msgId with h | h | h | h <;> simp [BareCommand, h]
      · exact absurd (htare ▸ msgId) (by decide)
    | bare running msgId payloadLen =>
      refine ⟨⟨hgate running, Admissible.bare ?_ payloadLen⟩, fun htare => ?_⟩
      · rcases msgId with h | h <;> simp [BareCommand, h]
      · exact absurd (htare ▸ msgId) (by decide)
    | motorRamped running msgId payloadLen ramp =>
      refine ⟨⟨hgate running, Admissible.motorRamped msgId payloadLen ramp⟩, fun htare => ?_⟩
      exact absurd (msgId.symm.trans htare) (by decide)
    | motorBurst running msgId payloadLen ramp locked reading read cool =>
      obtain ⟨reading', hread, hinputs⟩ := hcurrent running
      obtain rfl : reading = reading' := Except.ok.inj (read.symm.trans hread)
      refine ⟨⟨hgate running, Admissible.motorBurst msgId payloadLen ramp ?_ ?_⟩, fun htare => ?_⟩
      · rw [hinputs]
        exact locked
      · rw [hinputs]
        exact cool
      · exact absurd (msgId.symm.trans htare) (by decide)
    | heaterSet running msgId payloadLen range =>
      refine ⟨⟨hgate running, Admissible.heaterSet msgId payloadLen range⟩, fun htare => ?_⟩
      exact absurd (msgId.symm.trans htare) (by decide)
    | tare running msgId payloadLen slow raw read =>
      obtain ⟨reading, hread, hinputs⟩ := hcurrent running
      refine ⟨⟨hgate running, Admissible.tare msgId payloadLen ?_⟩, fun _ => ⟨raw, read⟩⟩
      rw [hinputs]
      exact slow
    | lidUnlock running msgId payloadLen slow =>
      obtain ⟨reading, hread, hinputs⟩ := hcurrent running
      refine ⟨⟨hgate running, Admissible.lidUnlock msgId payloadLen ?_⟩, fun htare => ?_⟩
      · rw [hinputs]
        exact slow
      · exact absurd (msgId.symm.trans htare) (by decide)
  · rintro ⟨⟨hallowed, hadmissible⟩, hscale⟩
    by_cases hid : AllowedInFault request.msgId
    · cases hadmissible with
      | bare _ payloadLen => exact Catalogued.anytime hid payloadLen
      | _ msgId => exact absurd (msgId ▸ hid) (by decide)
    · have hrunning : t.fault = .none := by
        by_contra hfault
        exact hid (hallowed (decide_eq_true hfault))
      obtain ⟨reading, hread, hinputs⟩ := hcurrent hrunning
      rw [hinputs] at hadmissible
      cases hadmissible with
      | bare msgId payloadLen =>
        refine Catalogued.bare hrunning ?_ payloadLen
        rcases msgId with h | h | h | h | h | h
        · exact absurd (h ▸ (by decide : AllowedInFault MsgId.ping)) hid
        · exact absurd (h ▸ (by decide : AllowedInFault MsgId.getVersion)) hid
        · exact absurd (h ▸ (by decide : AllowedInFault MsgId.motorStop)) hid
        · exact absurd (h ▸ (by decide : AllowedInFault MsgId.heaterOff)) hid
        · exact Or.inl h
        · exact Or.inr h
      | motorRamped msgId payloadLen ramp => exact Catalogued.motorRamped hrunning msgId payloadLen ramp
      | motorBurst msgId payloadLen ramp locked cool =>
        exact Catalogued.motorBurst hrunning msgId payloadLen ramp locked reading hread cool
      | heaterSet msgId payloadLen range => exact Catalogued.heaterSet hrunning msgId payloadLen range
      | tare msgId payloadLen slow =>
        obtain ⟨raw, hraw⟩ := hscale msgId
        exact Catalogued.tare hrunning msgId payloadLen slow raw hraw
      | lidUnlock msgId payloadLen slow => exact Catalogued.lidUnlock hrunning msgId payloadLen slow

/-! Replies. -/

/-- What a refused request leaves as it was. -/
structure Kept (old new : CommandHandler H) : Prop where
  motor : new.motor = old.motor
  pid : new.pid = old.pid
  tareOffsetCounts : new.tareOffsetCounts = old.tareOffsetCounts
  isLocked : Board.isLocked new.board = Board.isLocked old.board

/-- A request is granted with a response or refused with a nack. -/
inductive Answered (granted : Prop) (old new : CommandHandler H) : Reply → Prop
  | response (payload : List Byte) (held : granted) : Answered granted old new (respond payload)
  | nack (refused : ¬ granted) (kept : Kept old new) : Answered granted old new nack

theorem kept_of_nack [LawfulBoard H] {h h' : CommandHandler H} {request : Frame} {state : Inputs}
    {faulted : Bool} {reply : Option Reply} (hexec : Executed h request state faulted reply h')
    (hnack : reply = some nack) : Kept h h' := by
  cases hexec with
  | ignored _ => exact ⟨rfl, rfl, rfl, rfl⟩
  | refused _ _ => exact ⟨rfl, rfl, rfl, rfl⟩
  | tareRefused _ _ _ _ _ => exact ⟨rfl, rfl, rfl, LawfulBoard.readRaw_isLocked _⟩
  | _ => cases hnack

theorem answered_of_executed [LawfulBoard H] {h h' : CommandHandler H} {request : Frame}
    {state : Inputs} {faulted : Bool} {reply : Option Reply}
    (hexec : Executed h request state faulted reply h') (htype : request.type = .request) :
    ∃ answer, reply = some answer ∧ Answered (h.Granted request state faulted) h h' answer := by
  rcases reply_of_executed hexec htype with ⟨payload, hreply, hgranted⟩ | ⟨hreply, hrefused⟩
  · exact ⟨_, hreply, Answered.response payload hgranted⟩
  · exact ⟨_, hreply, Answered.nack hrefused (kept_of_nack hexec hreply)⟩

variable [LinkPort K]

/-- The reply is the one send of the frame. -/
theorem handleFrame_link (t : SafetyMcu K H) (frame : Frame) (now : Millis) {reply : Reply}
    (hreply : (t.exchange frame now).reply = some reply) :
    (t.handleFrame frame now).link =
      (LinkPort.send t.link reply.type frame.seq frame.msgId reply.payload).2 := by
  simp only [exchange] at hreply
  simp only [handleFrame, CommandHandler.handle]
  rcases hexec : t.handler.execute frame t.inputs (decide (t.fault ≠ .none)) with ⟨answer, handler⟩
  rw [hexec] at hreply
  cases hreply
  rfl

theorem handleFrame_ignored (t : SafetyMcu K H) {frame : Frame} (now : Millis)
    (htype : frame.type ≠ .request) :
    t.handleFrame frame now = t ∧ (t.exchange frame now).reply = none := by
  have hstop : ¬ (IsStop frame ∧ t.canClearFault = true) := fun h => htype h.1.1
  have hexec : t.handler.execute frame t.inputs (decide (t.fault ≠ .none)) = (none, t.handler) :=
    if_pos htype
  constructor
  · simp only [handleFrame, CommandHandler.handle, hexec, if_neg htype, if_neg hstop]
  · simp only [exchange, hexec]

/-- Every frame that a tick handles is ignored, granted or refused as the catalogue says on the
measurements of the tick. -/
theorem command_acceptance [LawfulBoard H] {m : Machine H}
    (hreach : Runs.Reachable Booted Ticked m) (input : TickInput H) {t : SafetyMcu Link H}
    {frame : Frame}
    (hhandles : Handles (Machine.now (m.clock + input.elapsed)) (m.arrive input).sampleStage t frame) :
    let now := Machine.now (m.clock + input.elapsed)
    let after := t.handleFrame frame now
    let granted := Catalogued frame t.fault (Board.readDeciCelsius input.board).1
      (Board.readDeciCelsius input.board).2 (Board.readRaw t.handler.board).1
    (frame.type ≠ .request → after = t ∧ (t.exchange frame now).reply = none) ∧
      (frame.type = .request → ∃ reply, (t.exchange frame now).reply = some reply ∧
        after.link = (LinkPort.send t.link reply.type frame.seq frame.msgId reply.payload).2 ∧
        (reply.type = .response ↔ granted) ∧ (reply.type = .nack ↔ ¬ granted) ∧
        (reply.type = .nack → Kept t.handler after.handler ∧ after.fault = t.fault)) := by
  have hs := arrive_supervised (supervised_of_reachable hreach) input
  have hcurrent := current_of_running hs hhandles
  refine ⟨handleFrame_ignored t _, fun htype => ?_⟩
  have hexec := handleFrame_executed t frame (Machine.now (m.clock + input.elapsed))
  obtain ⟨reply, hreply, hanswered⟩ := answered_of_executed hexec htype
  refine ⟨reply, hreply, handleFrame_link t frame _ hreply, ?_⟩
  have hgranted : Catalogued frame t.fault (Board.readDeciCelsius input.board).1
      (Board.readDeciCelsius input.board).2 (Board.readRaw t.handler.board).1 ↔
      t.handler.Granted frame t.inputs (decide (t.fault ≠ .none)) := catalogued_iff hcurrent
  rw [← hgranted] at hanswered
  cases hanswered with
  | response payload held =>
    refine ⟨⟨fun _ => held, fun _ => rfl⟩, ⟨fun h => ?_, fun h => absurd held h⟩, fun h => ?_⟩
    · cases h
    · cases h
  | nack refused kept =>
    refine ⟨⟨fun h => ?_, fun h => absurd h refused⟩, ⟨fun _ => refused, fun _ => rfl⟩, fun _ => ⟨kept, ?_⟩⟩
    · cases h
    · have hstop : ¬ IsStop frame := by
        rintro ⟨-, hid, hlen⟩
        exact refused (Catalogued.anytime (Or.inl hid) hlen)
      rw [handleFrame_fault, if_neg fun h => hstop h.1]

/-! A tare while the motor turns at 51 RPM. -/

def turningBoard : SimBoard SteadySensors := { sensors := { rpm := 51 } }

def turningMachine : Machine (SimBoard SteadySensors) :=
  ⟨.boot ⟨⟨fun _ len => len, 0, [], []⟩, {}, 0, [], 0⟩ turningBoard (now 0), 0, [], none⟩

def tareInput : TickInput (SimBoard SteadySensors) where
  elapsed := 1
  rx := Writer.writeFrame kTxCapacity .request 7 MsgId.scaleTare []
  board := turningBoard

def tareTime : Millis := now (turningMachine.clock + tareInput.elapsed)

def tarePoll : Option Frame × Link :=
  LinkPort.poll (turningMachine.arrive tareInput).sampleStage.link tareTime

def tareFrame : Frame := tarePoll.1.getD {}

/-- The processor as it handles the tare. -/
def tareMcu : SafetyMcu Link (SimBoard SteadySensors) :=
  { (turningMachine.arrive tareInput).sampleStage with link := tarePoll.2 }

theorem command_acceptance_tare :
    ∃ reply, (tareMcu.exchange tareFrame tareTime).reply = some reply ∧ reply.type = .nack ∧
      Kept tareMcu.handler (tareMcu.handleFrame tareFrame tareTime).handler := by
  have hsome : tarePoll.1.isSome = true := by decide +kernel
  obtain ⟨frame, hframe⟩ := Option.isSome_iff_exists.mp hsome
  have hfirst : tarePoll.1 = some tareFrame := by
    rw [tareFrame, hframe, Option.getD_some]
  have hpoll : tarePoll = (some tareFrame, tarePoll.2) := by
    rw [← hfirst, Prod.mk.eta]
  have hhandles : Handles tareTime (turningMachine.arrive tareInput).sampleStage tareMcu tareFrame :=
    Handles.head hpoll
  have hreach : Runs.Reachable Booted Ticked turningMachine :=
    Runs.Reachable.init ⟨_, turningBoard, 0, rfl⟩
  obtain ⟨reply, hreply, -, -, hnack, hkept⟩ :=
    (command_acceptance hreach tareInput hhandles).2 (by decide +kernel)
  have htype : reply.type = .nack := by
    rw [hnack]
    have hid : tareFrame.msgId = MsgId.scaleTare := by decide +kernel
    intro hgranted
    cases hgranted with
    | anytime msgId => exact absurd (hid ▸ msgId) (by decide)
    | bare _ msgId => exact absurd (hid ▸ msgId) (by decide)
    | tare _ _ _ slow => exact absurd slow (by decide)
    | _ _ msgId => exact absurd (hid.symm.trans msgId) (by decide)
  exact ⟨reply, hreply, htype, (hkept htype).1⟩

end Culina.Acceptance
