import Culina.LinkLoss

/-!
What the processors write. Over a UART that takes all it is offered a tick of the safety processor
writes the answers to the frames it handles, in order, and then what it publishes; the client
receives held frames one by one.
-/
namespace Culina.Replies

open Wire Layout Framing Writer Drives Ports Commands Safety SafetyMcu Supervision SerialLink
open WholeFrames Client McuClient LinkLoss

/-! The tick. -/

section Ticks

variable {H : Type} [Board H] {s : SafetyMcu Link H}

/-- What is sent back for a handled frame. -/
def answered (x : Exchange) : Option Frame :=
  x.reply.map fun reply => Frame.ofBytes reply.type x.frame.seq x.frame.msgId reply.payload

/-- A reply is a response or a refusal, and no longer than a weight. -/
structure Plain (reply : Reply) : Prop where
  type : reply.type = .response ∨ reply.type = .nack
  payload : reply.payload.length ≤ 4

theorem nack_plain : Plain nack := ⟨Or.inr rfl, Nat.zero_le _⟩

theorem respond_plain {payload : List Byte} (h : payload.length ≤ 4) : Plain (respond payload) :=
  ⟨Or.inl rfl, h⟩

omit [Board H] in
/-- A command without payload is refused or answered by its own reply. -/
theorem withoutPayload_plain {h : CommandHandler H} {request : Frame} {answer : Reply × CommandHandler H}
    (hanswer : Plain answer.1) : Plain (h.withoutPayload request answer).1 := by
  unfold CommandHandler.withoutPayload
  split
  · exact nack_plain
  · exact hanswer

theorem handler_plain (h : CommandHandler H) (request : Frame) (state : Inputs)
    {entry : CommandHandler.Entry H} (hentry : entry ∈ CommandHandler.kHandlers) :
    Plain (entry.handler h request state).1 := by
  have hsilent : Plain (respond []) := respond_plain (Nat.zero_le _)
  simp only [CommandHandler.kHandlers, List.mem_cons, List.not_mem_nil, or_false] at hentry
  rcases hentry with rfl | rfl | rfl | rfl | rfl | rfl | rfl | rfl | rfl | rfl
  · exact withoutPayload_plain hsilent
  · exact withoutPayload_plain (respond_plain (show 3 ≤ 4 by decide))
  · dsimp only
    unfold CommandHandler.handleMotorSetTarget
    dsimp only
    have hspeed : ∀ rpm : BitVec 16, Plain (respond (putU16 rpm)) :=
      fun _ => respond_plain (show 2 ≤ 4 by decide)
    split_ifs
    · exact nack_plain
    · exact nack_plain
    · exact nack_plain
    · exact hspeed _
    · exact hspeed _
    · exact hspeed _
    · exact hspeed _
  · exact withoutPayload_plain hsilent
  · dsimp only
    unfold CommandHandler.handleHeaterSetTarget
    dsimp only
    split_ifs
    · exact nack_plain
    · exact nack_plain
    · exact hsilent
  · exact withoutPayload_plain hsilent
  · dsimp only
    unfold CommandHandler.handleScaleTare
    split
    · exact nack_plain
    · split
      · exact hsilent
      · exact nack_plain
  · exact withoutPayload_plain (respond_plain le_rfl)
  · exact withoutPayload_plain (respond_plain (show 1 ≤ 4 by decide))
  · dsimp only
    unfold CommandHandler.handleLidUnlock
    split
    · exact nack_plain
    · exact hsilent

/-- Exactly the requests are answered. -/
theorem execute_plain {h : CommandHandler H} {request : Frame} (hrequest : request.type = .request)
    (state : Inputs) (faulted : Bool) :
    ∃ reply, (h.execute request state faulted).1 = some reply ∧ Plain reply := by
  unfold CommandHandler.execute
  rw [if_neg (not_not.mpr hrequest)]
  split
  · exact ⟨nack, rfl, nack_plain⟩
  · split
    · rename_i entry hfind
      exact ⟨_, rfl, handler_plain h request state (List.mem_of_find?_eq_some hfind)⟩
    · exact ⟨nack, rfl, nack_plain⟩

theorem execute_reply {h : CommandHandler H} {request : Frame} {state : Inputs} {faulted : Bool}
    {reply : Reply} (hreply : (h.execute request state faulted).1 = some reply) : Plain reply := by
  by_cases hrequest : request.type = .request
  · obtain ⟨reply', hreply', hplain⟩ := execute_plain (h := h) hrequest state faulted
    rw [hreply] at hreply'
    cases hreply'
    exact hplain
  · unfold CommandHandler.execute at hreply
    rw [if_pos hrequest] at hreply
    cases hreply

/-- What a link has sent since it had written `before`, with nothing held back. -/
structure Wrote (before : List Byte) (link : Link) (frames : List Frame) : Prop where
  clear : Clear link
  wire : link.uart.wire = before ++ frames.flatMap (wireBytes kVersion)
  short : ∀ f ∈ frames, f.payloadLen ≤ kMaxPayload

theorem Wrote.send {before : List Byte} {link : Link} {frames : List Frame} (h : Wrote before link frames)
    (type : FrameType) (seq : Byte) (msgId : MsgId) {payload : List Byte}
    (hlen : payload.length ≤ kMaxPayload) :
    (link.send type seq msgId payload).1 = .ok ∧
      Wrote before (link.send type seq msgId payload).2
        (frames ++ [Frame.ofBytes type seq msgId payload]) := by
  obtain ⟨hok, hclear, hwire⟩ := send_clear h.clear type seq msgId hlen
  refine ⟨hok, hclear, ?_, ?_⟩
  · rw [hwire, h.wire, List.flatMap_append, List.flatMap_singleton, List.append_assoc]
  · intro f hf
    rcases List.mem_append.mp hf with hold | hnew
    · exact h.short f hold
    · rw [List.mem_singleton.mp hnew]
      exact hlen

theorem Wrote.poll {before : List Byte} {link : Link} {frames : List Frame} (h : Wrote before link frames)
    (now : Millis) : Wrote before (link.poll now).2 frames := by
  obtain ⟨hclear, hwire⟩ := poll_clear h.clear now
  exact ⟨hclear, hwire.trans h.wire, h.short⟩

theorem handleFrame_wrote {before : List Byte} {frames : List Frame} (h : Wrote before s.link frames)
    (frame : Frame) (now : Millis) :
    Wrote before (s.handleFrame frame now).link (frames ++ (answered (s.exchange frame now)).toList) := by
  simp only [handleFrame, CommandHandler.handle, answered, exchange]
  rcases hexec : s.handler.execute frame s.inputs (decide (s.fault ≠ .none)) with ⟨_ | reply, handler⟩
  · rw [Option.map_none, Option.toList_none, List.append_nil]
    exact h
  · have hshort : reply.payload.length ≤ kMaxPayload := (execute_reply (congrArg Prod.fst hexec)).payload.trans (by decide)
    exact (h.send reply.type frame.seq frame.msgId hshort).2

/-- The frame loop writes the answers. -/
theorem frameStage_wrote (h : Clear s.link) (now : Millis) :
    Wrote s.link.uart.wire (s.frameStage now).1.link ((s.frameStage now).2.filterMap answered) := by
  have hstart : Wrote s.link.uart.wire s.link (([] : List Exchange).filterMap answered) :=
    ⟨h, (List.append_nil _).symm, fun _ hf => absurd hf List.not_mem_nil⟩
  refine pollFrames_polls s now (fun t log => Wrote s.link.uart.wire t.link (log.filterMap answered)) _
    (fun t log ht => ht.poll now) (fun t frame log ht => ?_) [] hstart
  rw [List.filterMap_append]
  have hone : [t.exchange frame now].filterMap answered = (answered (t.exchange frame now)).toList := by
    cases hframe : answered (t.exchange frame now) <;> simp [hframe]
  rw [hone]
  exact handleFrame_wrote ht frame now

/-- Every handled request is answered. -/
theorem exchanges_answered (s : SafetyMcu Link H) (now : Millis) :
    ∀ x ∈ s.exchanges now, x.frame.type = .request → ∃ reply, x.reply = some reply ∧ Plain reply := by
  refine pollFrames_keeps s.sampleStage now
    (fun _ log => ∀ x ∈ log, x.frame.type = .request → ∃ reply, x.reply = some reply ∧ Plain reply) _
    (fun _ _ _ h => h) (fun t frame log h x hx => ?_) [] (fun _ hx => absurd hx List.not_mem_nil)
  rcases List.mem_append.mp hx with hold | hnew
  · exact h x hold
  · rw [List.mem_singleton.mp hnew]
    exact fun hrequest => execute_plain hrequest _ _

/-! What is published. -/

/-- What a publisher sends over a link that accepts it, and the publisher behind it. -/
def published (publisher : TelemetryPublisher) (data : TelemetryData) (now : Millis) :
    List Frame × TelemetryPublisher :=
  let report := if publisher.pendingFault ≠ .none then
      [Frame.ofBytes .telemetry publisher.seq MsgId.fault [publisher.pendingFault.toByte]] else []
  let publisher := if publisher.pendingFault ≠ .none then
      { publisher with seq := publisher.seq + 1, pendingFault := .none } else publisher
  if now - publisher.lastPublishMs < kPeriodMs then (report, publisher)
  else
    (report ++ [Frame.ofBytes .telemetry publisher.seq MsgId.telemetry (encodeTelemetry data)],
      { publisher with seq := publisher.seq + 1, lastPublishMs := now })

theorem published_telemetry (publisher : TelemetryPublisher) (data : TelemetryData) (now : Millis) :
    ∀ f ∈ (published publisher data now).1, f.type = .telemetry := by
  have hreport : ∀ f ∈ (if publisher.pendingFault ≠ .none then
      [Frame.ofBytes .telemetry publisher.seq MsgId.fault [publisher.pendingFault.toByte]] else []),
      f.type = .telemetry := by
    intro f hf
    split_ifs at hf
    · rw [List.mem_singleton.mp hf]
      rfl
    · exact absurd hf List.not_mem_nil
  intro f hf
  unfold published at hf
  dsimp only at hf
  generalize (if publisher.pendingFault ≠ .none then
    [Frame.ofBytes .telemetry publisher.seq MsgId.fault [publisher.pendingFault.toByte]] else []) = report
    at hreport hf
  by_cases hearly : now - (if publisher.pendingFault ≠ .none then
      { publisher with seq := publisher.seq + 1, pendingFault := .none } else publisher).lastPublishMs < kPeriodMs
  · rw [if_pos hearly] at hf
    exact hreport f hf
  · rw [if_neg hearly] at hf
    rcases List.mem_append.mp hf with hold | hnew
    · exact hreport f hold
    · rw [List.mem_singleton.mp hnew]
      rfl

theorem publishSample_wrote {before : List Byte} {link : Link} {frames : List Frame}
    (h : Wrote before link frames) (publisher : TelemetryPublisher) (data : TelemetryData) (now : Millis)
    (hquiet : publisher.pendingFault = .none) :
    (publisher.publishSample link data now).1 = (published publisher data now).2 ∧
      Wrote before (publisher.publishSample link data now).2
        (frames ++ (published publisher data now).1) := by
  have hlen : (encodeTelemetry data).length ≤ kMaxPayload := by
    rw [encodeTelemetry_length]
    decide
  obtain ⟨hok, hwrote⟩ := h.send .telemetry publisher.seq MsgId.telemetry hlen
  unfold TelemetryPublisher.publishSample published
  simp only [hquiet, ne_eq, not_true_eq_false, if_false, List.nil_append]
  split
  · rw [List.append_nil]
    exact ⟨rfl, h⟩
  · change (LinkPort.send link .telemetry publisher.seq MsgId.telemetry (encodeTelemetry data)).1 = .ok at hok
    dsimp only
    rw [if_pos hok]
    exact ⟨rfl, hwrote⟩

/-- A link that takes all it is offered publishes everything that is due. -/
theorem maybePublish_wrote {before : List Byte} {link : Link} {frames : List Frame}
    (h : Wrote before link frames) (publisher : TelemetryPublisher) (data : TelemetryData) (now : Millis) :
    (publisher.maybePublish link data now).1 = (published publisher data now).2 ∧
      Wrote before (publisher.maybePublish link data now).2
        (frames ++ (published publisher data now).1) := by
  by_cases hquiet : publisher.pendingFault = .none
  · unfold TelemetryPublisher.maybePublish
    rw [if_neg (not_not.mpr hquiet)]
    exact publishSample_wrote h publisher data now hquiet
  · have hlen : [publisher.pendingFault.toByte].length ≤ kMaxPayload := by
      rw [List.length_singleton]
      decide
    obtain ⟨hok, hwrote⟩ := h.send .telemetry publisher.seq MsgId.fault hlen
    change (LinkPort.send link .telemetry publisher.seq MsgId.fault [publisher.pendingFault.toByte]).1 = .ok
      at hok
    have hsample := publishSample_wrote hwrote
      { publisher with seq := publisher.seq + 1, pendingFault := .none } data now rfl
    unfold TelemetryPublisher.maybePublish
    rw [if_pos hquiet]
    dsimp only
    rw [if_neg (not_not.mpr hok)]
    refine ⟨hsample.1.trans ?_, ?_⟩
    · unfold published
      simp only [hquiet, ne_eq, not_false_eq_true, not_true_eq_false, if_true, if_false]
      split <;> rfl
    · have hframes : frames ++ (published publisher data now).1 =
          frames ++ [Frame.ofBytes .telemetry publisher.seq MsgId.fault [publisher.pendingFault.toByte]] ++
            (published { publisher with seq := publisher.seq + 1, pendingFault := .none } data now).1 := by
        unfold published
        simp only [hquiet, ne_eq, not_false_eq_true, not_true_eq_false, if_true, if_false, List.nil_append]
        split <;> simp
      rw [hframes]
      exact hsample.2

/-- The sample that a tick has to publish. -/
def telemetryData (s : SafetyMcu Link H) : TelemetryData where
  tick := s.tickCount
  deciCelsius := fromCelsius s.inputs.tempC
  rpm := s.inputs.rpm
  grams := s.handler.currentGrams.1
  flags := s.flags

theorem publishStage_eq (s : SafetyMcu Link H) (now : Millis) :
    s.publishStage now =
      { s with
        handler := s.handler.currentGrams.2
        telemetry := (s.telemetry.maybePublish s.link (telemetryData s) now).1
        link := (s.telemetry.maybePublish s.link (telemetryData s) now).2 } := rfl

/-- What a tick publishes, told from the state behind its frame loop. -/
def publishedIn (s : SafetyMcu Link H) (now : Millis) : List Frame :=
  let t := ((looped s now).judge now).driveStage
  (published t.telemetry (telemetryData t) now).1

/-- A tick writes the answers to its frames and what it publishes. -/
theorem tick1ms_wrote (h : Clear s.link) (now : Millis) :
    Wrote s.link.uart.wire (s.tick1ms now).link
      ((s.exchanges now).filterMap answered ++ publishedIn s now) := by
  have hloop := frameStage_wrote (s := s.sampleStage) (by rwa [sampleStage_link]) now
  rw [sampleStage_link] at hloop
  have hdrive : Wrote s.link.uart.wire ((looped s now).judge now).driveStage.link
      ((s.exchanges now).filterMap answered) := by
    rw [driveStage_link, judge_link]
    exact hloop
  rw [tick1ms_eq, publishedIn]
  generalize ((looped s now).judge now).driveStage = t at hdrive ⊢
  exact (maybePublish_wrote hdrive t.telemetry (telemetryData t) now).2

end Ticks

/-! The client. -/

variable {c : McuClient Link} {frames : List Frame}

/-- A received frame leaves the link alone. -/
theorem receive_link (c : McuClient Link) (link : Link) (frame : Frame) (now : Millis) :
    ({ c with link } : McuClient Link).receive frame now = { c.receive frame now with link } := by
  have hmatches : ({ c with link } : McuClient Link).Matches frame ↔ c.Matches frame := Iff.rfl
  unfold receive
  simp only [hmatches]
  split_ifs <;> rfl

/-- The client behind received frames. -/
def receiveAll (now : Millis) (c : McuClient Link) (received : List Frame) : McuClient Link :=
  received.foldl (fun c frame => c.receive frame now) c

theorem receiveAll_link (now : Millis) (c : McuClient Link) (link : Link) (received : List Frame) :
    receiveAll now { c with link } received = { receiveAll now c received with link } := by
  induction received generalizing c with
  | nil => rfl
  | cons frame received ih =>
    unfold receiveAll at ih ⊢
    rw [List.foldl_cons, List.foldl_cons, receive_link, ih]

/-- Held frames are received one by one, and leave the link idle. -/
theorem pollFrames_held (hholds : Holds c.link frames) (hclear : Clear c.link) (now : Millis) {fuel : ℕ}
    (hfuel : frames.length < fuel) :
    ∃ (received : List Frame) (link : Link), received.map content = frames.map content ∧ Holds link [] ∧ Clear link ∧
      link.uart.wire = c.link.uart.wire ∧
      c.pollFrames fuel now =
        { receiveAll now c received with link } := by
  induction frames generalizing c fuel with
  | nil =>
    obtain ⟨hnone, hrest⟩ := poll_holds_nil hholds now
    obtain ⟨hclear', hwire⟩ := poll_clear hclear now
    change (LinkPort.poll c.link now).1 = none at hnone
    cases fuel with
    | zero => omega
    | succ fuel =>
      refine ⟨[], (c.link.poll now).2, rfl, hrest, hclear', hwire, ?_⟩
      rw [McuClient.pollFrames]
      rcases hpoll : LinkPort.poll c.link now with ⟨_ | frame, link⟩
      · have hlink : link = (c.link.poll now).2 := (congrArg Prod.snd hpoll).symm
        rw [hlink]
        rfl
      · rw [hpoll] at hnone
        cases hnone
  | cons f frames ih =>
    obtain ⟨g, hcontent, hsome, hrest⟩ := poll_holds_cons hholds now
    obtain ⟨hclear', hwire⟩ := poll_clear hclear now
    change (LinkPort.poll c.link now).1 = some g at hsome
    rw [List.length_cons] at hfuel
    cases fuel with
    | zero => omega
    | succ fuel =>
      rcases hpoll : LinkPort.poll c.link now with ⟨_ | frame, link⟩
      · rw [hpoll] at hsome
        cases hsome
      · have hlink : (c.link.poll now).2 = link := congrArg Prod.snd hpoll
        rw [hpoll] at hsome
        cases hsome
        rw [hlink] at hrest hclear' hwire
        have hsame := receive_link c link g now
        have hheld : Holds (({ c with link } : McuClient Link).receive g now).link frames := by
          rw [hsame]
          exact hrest
        have hfree : Clear (({ c with link } : McuClient Link).receive g now).link := by
          rw [hsame]
          exact hclear'
        obtain ⟨received, link', hreceived, hheld', hfree', hwire', hloop⟩ := ih hheld hfree
          (show frames.length < fuel by omega)
        refine ⟨g :: received, link', ?_, hheld', hfree', ?_, ?_⟩
        · rw [List.map_cons, List.map_cons, hcontent, hreceived]
        · rw [hwire', hsame]
          exact hwire
        · rw [McuClient.pollFrames, hpoll]
          dsimp only
          rw [hloop, hsame, receiveAll_link]
          rfl

end Culina.Replies
