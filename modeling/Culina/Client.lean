import Culina.Services
import Culina.Ports

/-!
The application's view of the safety processor: one outstanding request at a time,
retried once, matched to its response by message identifier and sequence number.
Each operation has an inversion that lists what it can do.
-/
namespace Culina.Client

open Wire Services Ports

variable {K : Type} [LinkPort K]

def kResponseTimeoutMs : Millis := 50
def kRequestDeadlineMs : Millis := 150
def kHeartbeatIntervalMs : Millis := 1000

/-- `pendingPayload` holds the first `pending_payload_len_` bytes of its array, and
`lastFault` the byte of the fault code. -/
structure McuClient (K : Type) where
  link : K
  store : TelemetryStore := {}
  nextSeq : Byte := 0
  pendingSeq : Byte := 0
  waiting : Bool := false
  pendingMsgId : MsgId := MsgId.ping
  responseReady : Bool := false
  response : Frame := {}
  lastFault : Byte := 0
  sentAtMs : Millis := 0
  requestStartedMs : Millis := 0
  retried : Bool := false
  pendingPayload : List Byte := []
  lastCommandStatus : Status := .ok
  lastTxMs : Millis := 0

namespace McuClient

def noFault : Byte := FaultCode.none.toByte

/-! Polling. -/

def giveUp (c : McuClient K) : McuClient K :=
  { c with
    link := LinkPort.cancelPendingTx c.link
    waiting := false
    lastCommandStatus := .timeout }

def retry (c : McuClient K) (now : Millis) : McuClient K :=
  match LinkPort.send c.link .request c.nextSeq c.pendingMsgId c.pendingPayload with
  | (.ok, link) =>
      { c with
        link
        nextSeq := c.nextSeq + 1
        pendingSeq := c.nextSeq
        retried := true
        sentAtMs := now
        lastTxMs := now }
  | (_, link) => { c with link }

/-- The deadline, the response timeout and the retry. -/
def pollTimers (c : McuClient K) (now : Millis) : McuClient K :=
  if c.waiting = true ∧ now - c.requestStartedMs ≥ kRequestDeadlineMs then c.giveUp
  else if c.waiting = true ∧ 0 < (now - c.sentAtMs - kResponseTimeoutMs).toInt then
    if c.retried = false then c.retry now else c.giveUp
  else c

def sampleOf (frame : Frame) (now : Millis) : Sample where
  tMs := now
  deciCelsius := getI16 frame.payload[4] frame.payload[5]
  rpm := (getU16 frame.payload[6] frame.payload[7]).toNat
  grams := getI32 frame.payload[8] frame.payload[9] frame.payload[10] frame.payload[11]
  flags := frame.payload[12]

def IsSample (frame : Frame) : Prop :=
  frame.type = .telemetry ∧ frame.msgId = MsgId.telemetry ∧
    frame.payloadLen = kTelemetryPayloadSize

instance (frame : Frame) : Decidable (IsSample frame) := inferInstanceAs (Decidable (_ ∧ _))

def IsFault (frame : Frame) : Prop :=
  frame.type = .telemetry ∧ frame.msgId = MsgId.fault ∧ frame.payloadLen = 1

instance (frame : Frame) : Decidable (IsFault frame) := inferInstanceAs (Decidable (_ ∧ _))

/-- The frame answers the outstanding request. -/
def Matches (c : McuClient K) (frame : Frame) : Prop :=
  (frame.type = .response ∨ frame.type = .nack) ∧ c.waiting = true ∧
    frame.msgId = c.pendingMsgId ∧ frame.seq = c.pendingSeq

instance (c : McuClient K) (frame : Frame) : Decidable (c.Matches frame) :=
  inferInstanceAs (Decidable (_ ∧ _))

/-- The body of the frame loop. -/
def receive (c : McuClient K) (frame : Frame) (now : Millis) : McuClient K :=
  if IsSample frame then { c with store := c.store.append (sampleOf frame now) }
  else if IsFault frame then { c with lastFault := getElem frame.payload 0 kMaxPayload_pos }
  else if c.Matches frame then
    { c with
      response := frame
      responseReady := true
      waiting := false
      lastCommandStatus := if frame.type = .response then .ok else .protocolError }
  else c

def pollFrames : ℕ → McuClient K → Millis → McuClient K
  | 0, c, _ => c
  | fuel + 1, c, now =>
      match LinkPort.poll c.link now with
      | (none, link) => { c with link }
      | (some frame, link) => pollFrames fuel (({ c with link } : McuClient K).receive frame now) now

def heartbeat (c : McuClient K) (now : Millis) : McuClient K :=
  match LinkPort.send c.link .request c.nextSeq MsgId.ping [] with
  | (.ok, link) => { c with link, nextSeq := c.nextSeq + 1, lastTxMs := now }
  | (_, link) => { c with link, nextSeq := c.nextSeq + 1 }

def pollHeartbeat (c : McuClient K) (now : Millis) : McuClient K :=
  if c.waiting = false ∧ now - c.lastTxMs ≥ kHeartbeatIntervalMs then c.heartbeat now else c

def pollLink (c : McuClient K) (now : Millis) : McuClient K :=
  c.pollFrames ((LinkPort.incoming c.link).length + 1) now

def poll (c : McuClient K) (now : Millis) : McuClient K :=
  ((c.pollTimers now).pollLink now).pollHeartbeat now

/-! Requests. -/

def request (c : McuClient K) (now : Millis) (id : MsgId) (payload : List Byte) :
    Status × McuClient K :=
  if c.waiting = true ∨ c.responseReady = true then (.notReady, c)
  else if payload.length > kMaxPayload then (.invalidArgument, c)
  else
    match LinkPort.send c.link .request c.nextSeq id payload with
    | (.ok, link) =>
        (.ok,
          { c with
            link
            nextSeq := c.nextSeq + 1
            pendingSeq := c.nextSeq
            waiting := true
            pendingMsgId := id
            responseReady := false
            sentAtMs := now
            requestStartedMs := now
            lastTxMs := now
            retried := false
            lastCommandStatus := .ok
            pendingPayload := payload })
    | (status, link) => (status, { c with link, nextSeq := c.nextSeq + 1, pendingSeq := c.nextSeq })

def takeResponse (c : McuClient K) : Option Frame × McuClient K :=
  if c.responseReady = true then (some c.response, { c with responseReady := false })
  else (none, c)

def clearCommandStatus (c : McuClient K) : McuClient K := { c with lastCommandStatus := .ok }
def clearFault (c : McuClient K) : McuClient K := { c with lastFault := noFault }

def setMotor (c : McuClient K) (now : Millis) (rpm : ℕ) (rampProfile : Byte) :
    Status × McuClient K :=
  c.request now MsgId.motorSetTarget (putU16 (BitVec.ofNat 16 rpm) ++ [rampProfile])

def motorStop (c : McuClient K) (now : Millis) : Status × McuClient K :=
  c.request now MsgId.motorStop []

def setHeater (c : McuClient K) (now : Millis) (target : DeciCelsius) : Status × McuClient K :=
  c.request now MsgId.heaterSetTarget (putI16 target)

def heaterOff (c : McuClient K) (now : Millis) : Status × McuClient K :=
  c.request now MsgId.heaterOff []

def tare (c : McuClient K) (now : Millis) : Status × McuClient K :=
  c.request now MsgId.scaleTare []

def lockLid (c : McuClient K) (now : Millis) (locked : Bool) : Status × McuClient K :=
  c.request now (if locked then MsgId.lidLock else MsgId.lidUnlock) []

/-- What the state before a request must satisfy for it to be accepted. -/
structure Accepts (c : McuClient K) (id : MsgId) (payload : List Byte) : Prop where
  idle : c.waiting = false
  taken : c.responseReady = false
  payloadLen : payload.length ≤ kMaxPayload
  sent : (LinkPort.send c.link .request c.nextSeq id payload).1 = .ok

/-! Inversions. -/

/-- The client after an accepted request. -/
def accepted (c : McuClient K) (now : Millis) (id : MsgId) (payload : List Byte) : McuClient K :=
  { c with
    link := (LinkPort.send c.link .request c.nextSeq id payload).2
    nextSeq := c.nextSeq + 1
    pendingSeq := c.nextSeq
    waiting := true
    pendingMsgId := id
    responseReady := false
    sentAtMs := now
    requestStartedMs := now
    lastTxMs := now
    retried := false
    lastCommandStatus := .ok
    pendingPayload := payload }

/-- What a request does: it is accepted, or its sequence number is lost in a failed
send, or it changes nothing. -/
inductive Requested (c : McuClient K) (now : Millis) (id : MsgId) (payload : List Byte) :
    Status → McuClient K → Prop
  | accepted (accepts : c.Accepts id payload) :
      Requested c now id payload .ok (c.accepted now id payload)
  | unsent (status : Status) (idle : c.waiting = false) (taken : c.responseReady = false)
      (sends : (LinkPort.send c.link .request c.nextSeq id payload).1 = status)
      (failed : status ≠ .ok) :
      Requested c now id payload status
        { c with
          link := (LinkPort.send c.link .request c.nextSeq id payload).2
          nextSeq := c.nextSeq + 1
          pendingSeq := c.nextSeq }
  | refused (status : Status) (failed : status ≠ .ok) : Requested c now id payload status c

theorem request_requested (c : McuClient K) (now : Millis) (id : MsgId) (payload : List Byte) :
    Requested c now id payload (c.request now id payload).1 (c.request now id payload).2 := by
  unfold request
  split
  · exact Requested.refused .notReady (by decide)
  · rename_i hfree
    rw [not_or, Bool.not_eq_true, Bool.not_eq_true] at hfree
    split
    · exact Requested.refused .invalidArgument (by decide)
    · rename_i hlen
      cases hsend : LinkPort.send c.link .request c.nextSeq id payload with
      | mk status link =>
        have hlink : link = (LinkPort.send c.link .request c.nextSeq id payload).2 := by rw [hsend]
        subst hlink
        cases status with
        | ok =>
          exact Requested.accepted ⟨hfree.1, hfree.2, not_lt.mp hlen, by rw [hsend]⟩
        | _ => exact Requested.unsent _ hfree.1 hfree.2 (by rw [hsend]) (fun h => by cases h)

/-- A request that is not accepted costs a sequence number at most. -/
theorem request_unaccepted {c : McuClient K} {id : MsgId} {payload : List Byte} (now : Millis)
    (h : ¬ c.Accepts id payload) : ∃ link nextSeq pendingSeq,
      (c.request now id payload).2 = { c with link, nextSeq, pendingSeq } := by
  have hrequest := request_requested c now id payload
  generalize (c.request now id payload).1 = status at hrequest
  generalize (c.request now id payload).2 = c' at hrequest
  cases hrequest with
  | accepted accepts => exact absurd accepts h
  | unsent _ _ _ _ _ => exact ⟨_, _, _, rfl⟩
  | refused _ _ => exact ⟨c.link, c.nextSeq, c.pendingSeq, rfl⟩

/-- A request that reports success is out. -/
theorem waiting_of_request_ok {c : McuClient K} {now : Millis} {id : MsgId} {payload : List Byte}
    (h : (c.request now id payload).1 = .ok) :
    (c.request now id payload).2.waiting = true ∧ (c.request now id payload).2.pendingMsgId = id := by
  have hrequest := request_requested c now id payload
  rw [h] at hrequest
  generalize (c.request now id payload).2 = c' at hrequest
  cases hrequest with
  | accepted accepts => exact ⟨rfl, rfl⟩
  | unsent _ _ _ _ failed => exact absurd rfl failed
  | refused _ failed => exact absurd rfl failed

/-- An idle client waits after a request only if that was accepted. -/
theorem request_ok_of_waiting {c : McuClient K} {now : Millis} {id : MsgId} {payload : List Byte}
    (hidle : c.waiting = false) (h : (c.request now id payload).2.waiting = true) :
    (c.request now id payload).1 = .ok := by
  have hrequest := request_requested c now id payload
  generalize (c.request now id payload).1 = status at hrequest
  generalize (c.request now id payload).2 = c' at hrequest h
  cases hrequest with
  | accepted accepts => rfl
  | unsent _ idle _ _ _ => exact Bool.noConfusion (idle.symm.trans h)
  | refused _ _ => exact Bool.noConfusion (hidle.symm.trans h)

/-- No request makes a response ready. -/
theorem request_unready {c : McuClient K} (now : Millis) (id : MsgId) (payload : List Byte)
    (h : c.responseReady = false) : (c.request now id payload).2.responseReady = false := by
  have hrequest := request_requested c now id payload
  generalize (c.request now id payload).1 = status at hrequest
  generalize (c.request now id payload).2 = c' at hrequest
  cases hrequest with
  | accepted accepts => rfl
  | unsent _ _ _ _ _ => exact h
  | refused _ _ => exact h

omit [LinkPort K] in
theorem takeResponse_fst (c : McuClient K) :
    c.takeResponse.1 = if c.responseReady = true then some c.response else none := by
  unfold takeResponse
  split <;> rfl

omit [LinkPort K] in
theorem takeResponse_snd (c : McuClient K) : c.takeResponse.2 = { c with responseReady := false } := by
  unfold takeResponse
  split
  · rfl
  · rename_i hready
    rw [Bool.not_eq_true] at hready
    cases c
    cases hready
    rfl

theorem request_ok_iff (c : McuClient K) (now : Millis) (id : MsgId) (payload : List Byte) :
    (c.request now id payload).1 = .ok ↔ c.Accepts id payload := by
  constructor
  · intro hok
    have h := request_requested c now id payload
    rw [hok] at h
    generalize (c.request now id payload).2 = c' at h
    cases h with
    | accepted accepts => exact accepts
    | unsent _ _ _ _ failed => exact absurd rfl failed
    | refused _ failed => exact absurd rfl failed
  · intro h
    obtain ⟨hidle, htaken, hlen, hsent⟩ := h
    unfold request
    rw [if_neg (by simp [hidle, htaken]), if_neg (not_lt.mpr hlen)]
    cases hsend : LinkPort.send c.link .request c.nextSeq id payload with
    | mk status link =>
      rw [hsend] at hsent
      cases hsent
      rfl

/-- What the timers of a poll do. -/
inductive Timed (c : McuClient K) (now : Millis) : McuClient K → Prop
  | quiet (early : c.waiting = true → now - c.requestStartedMs < kRequestDeadlineMs) :
      Timed c now c
  | gaveUp (waiting : c.waiting = true) : Timed c now c.giveUp
  | unsent (waiting : c.waiting = true) (early : now - c.requestStartedMs < kRequestDeadlineMs)
      (first : c.retried = false)
      (failed : (LinkPort.send c.link .request c.nextSeq c.pendingMsgId c.pendingPayload).1 ≠ .ok) :
      Timed c now
        { c with link := (LinkPort.send c.link .request c.nextSeq c.pendingMsgId c.pendingPayload).2 }
  | retried (waiting : c.waiting = true) (early : now - c.requestStartedMs < kRequestDeadlineMs)
      (first : c.retried = false)
      (sent : (LinkPort.send c.link .request c.nextSeq c.pendingMsgId c.pendingPayload).1 = .ok) :
      Timed c now
        { c with
          link := (LinkPort.send c.link .request c.nextSeq c.pendingMsgId c.pendingPayload).2
          nextSeq := c.nextSeq + 1
          pendingSeq := c.nextSeq
          retried := true
          sentAtMs := now
          lastTxMs := now }

theorem pollTimers_timed (c : McuClient K) (now : Millis) : Timed c now (c.pollTimers now) := by
  unfold pollTimers
  split
  · rename_i h
    exact Timed.gaveUp h.1
  · rename_i hdeadline
    have hearly : c.waiting = true → now - c.requestStartedMs < kRequestDeadlineMs := by
      intro hwaiting
      by_contra hlate
      exact hdeadline ⟨hwaiting, BitVec.not_lt.mp hlate⟩
    split
    · rename_i htimeout
      split
      · rename_i hfirst
        unfold retry
        cases hsend : LinkPort.send c.link .request c.nextSeq c.pendingMsgId c.pendingPayload with
        | mk status link =>
          have hlink : link =
              (LinkPort.send c.link .request c.nextSeq c.pendingMsgId c.pendingPayload).2 := by
            rw [hsend]
          subst hlink
          cases status with
          | ok => exact Timed.retried htimeout.1 (hearly htimeout.1) hfirst (by rw [hsend])
          | _ =>
            exact Timed.unsent htimeout.1 (hearly htimeout.1) hfirst fun h => by
              rw [hsend] at h
              cases h
      · exact Timed.gaveUp htimeout.1
    · exact Timed.quiet hearly

/-- What a received frame does. -/
inductive Received (c : McuClient K) (frame : Frame) (now : Millis) : McuClient K → Prop
  | sample (type : IsSample frame) :
      Received c frame now { c with store := c.store.append (sampleOf frame now) }
  | fault (type : IsFault frame) : Received c frame now { c with lastFault := frame.payload[0] }
  | answer (found : c.Matches frame) :
      Received c frame now
        { c with
          response := frame
          responseReady := true
          waiting := false
          lastCommandStatus := if frame.type = .response then .ok else .protocolError }
  | ignored (stray : ¬ c.Matches frame) : Received c frame now c

omit [LinkPort K] in
theorem receive_received (c : McuClient K) (frame : Frame) (now : Millis) :
    Received c frame now (c.receive frame now) := by
  unfold receive
  split
  · exact Received.sample ‹_›
  · split
    · exact Received.fault ‹_›
    · split
      · exact Received.answer ‹_›
      · exact Received.ignored ‹_›

/-- What the heartbeat of a poll does. -/
inductive Beaten (c : McuClient K) (now : Millis) : McuClient K → Prop
  | quiet (early : c.waiting = false → now - c.lastTxMs < kHeartbeatIntervalMs) : Beaten c now c
  | unsent (idle : c.waiting = false)
      (failed : (LinkPort.send c.link .request c.nextSeq MsgId.ping []).1 ≠ .ok) :
      Beaten c now
        { c with
          link := (LinkPort.send c.link .request c.nextSeq MsgId.ping []).2
          nextSeq := c.nextSeq + 1 }
  | sent (idle : c.waiting = false)
      (sent : (LinkPort.send c.link .request c.nextSeq MsgId.ping []).1 = .ok)
      (late : kHeartbeatIntervalMs ≤ now - c.lastTxMs) :
      Beaten c now
        { c with
          link := (LinkPort.send c.link .request c.nextSeq MsgId.ping []).2
          nextSeq := c.nextSeq + 1
          lastTxMs := now }

theorem pollHeartbeat_beaten (c : McuClient K) (now : Millis) :
    Beaten c now (c.pollHeartbeat now) := by
  unfold pollHeartbeat
  split
  · rename_i h
    unfold heartbeat
    cases hsend : LinkPort.send c.link .request c.nextSeq MsgId.ping [] with
    | mk status link =>
      have hlink : link = (LinkPort.send c.link .request c.nextSeq MsgId.ping []).2 := by rw [hsend]
      subst hlink
      cases status with
      | ok => exact Beaten.sent h.1 (by rw [hsend]) h.2
      | _ =>
        exact Beaten.unsent h.1 fun hok => by
          rw [hsend] at hok
          cases hok
  · rename_i h
    refine Beaten.quiet fun hidle => ?_
    by_contra hlate
    exact h ⟨hidle, BitVec.not_lt.mp hlate⟩

/-- The frame loop keeps what every frame keeps. -/
theorem pollFrames_keeps (inv : McuClient K → Prop) (fuel : ℕ) (now : Millis)
    (hlink : ∀ c, inv c → inv { c with link := (LinkPort.poll c.link now).2 })
    (hframe : ∀ c frame, inv c → inv (c.receive frame now)) (c : McuClient K) (hc : inv c) :
    inv (c.pollFrames fuel now) := by
  induction fuel generalizing c with
  | zero => exact hc
  | succ fuel ih =>
    unfold pollFrames
    have hpolled := hlink c hc
    rcases hpoll : LinkPort.poll c.link now with ⟨_ | frame, link⟩
    · rw [hpoll] at hpolled
      exact hpolled
    · rw [hpoll] at hpolled
      exact ih _ (hframe _ frame hpolled)

/-- A poll keeps what its timers, frames and heartbeat keep. -/
theorem poll_keeps (inv : McuClient K → Prop) (c : McuClient K) (now : Millis)
    (htimers : ∀ c c', inv c → Timed c now c' → inv c')
    (hlink : ∀ c, inv c → inv { c with link := (LinkPort.poll c.link now).2 })
    (hframe : ∀ c frame c', inv c → Received c frame now c' → inv c')
    (hbeat : ∀ c c', inv c → Beaten c now c' → inv c') (hc : inv c) : inv (c.poll now) := by
  refine hbeat _ _ ?_ (pollHeartbeat_beaten _ now)
  refine pollFrames_keeps inv _ now hlink (fun c frame h => ?_) _ ?_
  · exact hframe c frame _ h (receive_received c frame now)
  · exact htimers c _ hc (pollTimers_timed c now)

/-! What every operation of the link keeps. -/

section

variable (inv : K → Prop)

theorem request_link
    (hsend : ∀ link type seq msgId payload, inv link → inv (LinkPort.send link type seq msgId payload).2)
    {c : McuClient K} (h : inv c.link) (now : Millis) (id : MsgId) (payload : List Byte) :
    inv (c.request now id payload).2.link := by
  have hrequest := request_requested c now id payload
  generalize (c.request now id payload).1 = status at hrequest
  generalize (c.request now id payload).2 = c' at hrequest
  cases hrequest with
  | accepted _ => exact hsend _ _ _ _ _ h
  | unsent _ _ _ _ _ => exact hsend _ _ _ _ _ h
  | refused _ _ => exact h

theorem poll_link
    (hsend : ∀ link type seq msgId payload, inv link → inv (LinkPort.send link type seq msgId payload).2)
    (hcancel : ∀ link, inv link → inv (LinkPort.cancelPendingTx link))
    (hpoll : ∀ link now, inv link → inv (LinkPort.poll link now).2)
    {c : McuClient K} (h : inv c.link) (now : Millis) : inv (c.poll now).link := by
  refine poll_keeps (fun c => inv c.link) c now ?_ (fun c hc => hpoll c.link now hc) ?_ ?_ h
  · intro c c' hc htimed
    cases htimed with
    | quiet _ => exact hc
    | gaveUp _ => exact hcancel _ hc
    | unsent _ _ _ _ => exact hsend _ _ _ _ _ hc
    | retried _ _ _ _ => exact hsend _ _ _ _ _ hc
  · intro c frame c' hc hreceived
    cases hreceived with
    | sample _ => exact hc
    | fault _ => exact hc
    | answer _ => exact hc
    | ignored _ => exact hc
  · intro c c' hc hbeaten
    cases hbeaten with
    | quiet => exact hc
    | unsent _ => exact hsend _ _ _ _ _ hc
    | sent _ _ => exact hsend _ _ _ _ _ hc

end

theorem pollTimers_idle {c : McuClient K} (hidle : c.waiting = false) (now : Millis) :
    c.pollTimers now = c := by
  unfold pollTimers
  rw [if_neg (by simp [hidle]), if_neg (by simp [hidle])]

/-- A client that waits for nothing keeps its response and its status through a poll. -/
theorem poll_idle {c : McuClient K} (hidle : c.waiting = false) (now : Millis) :
    (c.poll now).waiting = false ∧ (c.poll now).responseReady = c.responseReady ∧
      (c.poll now).response = c.response ∧
      (c.poll now).lastCommandStatus = c.lastCommandStatus := by
  refine poll_keeps (fun c' => c'.waiting = false ∧ c'.responseReady = c.responseReady ∧
    c'.response = c.response ∧ c'.lastCommandStatus = c.lastCommandStatus) c now
    ?_ (fun _ h => h) ?_ ?_ ⟨hidle, rfl, rfl, rfl⟩
  · intro c' _ h htimed
    cases htimed with
    | quiet early => exact h
    | gaveUp waiting => exact Bool.noConfusion (h.1.symm.trans waiting)
    | unsent waiting early first failed => exact h
    | retried waiting early first sent => exact h
  · intro c' frame _ h hreceived
    cases hreceived with
    | sample type => exact h
    | fault type => exact h
    | answer found => exact Bool.noConfusion (h.1.symm.trans found.2.1)
    | ignored stray => exact h
  · intro c' _ h hbeaten
    cases hbeaten with
    | quiet => exact h
    | unsent idle => exact h
    | sent idle sent => exact h

/-! What a client has accepted. -/

abbrev Request := FrameType × MsgId × List Byte

def bareRequest (id : MsgId) : Request := (.request, id, [])

/-- The requests accepted on the way from one client to another. -/
def acceptedBetween (c c' : McuClient (Tap K)) : List Request := c'.link.queued.drop c.link.queued.length

omit [LinkPort K] in
theorem acceptedBetween_self (c : McuClient (Tap K)) : acceptedBetween c c = [] := List.drop_length

/-- A request is accepted, and queued, or it leaves the queue alone. -/
theorem request_accepted (c : McuClient (Tap K)) (now : Millis) (id : MsgId) (payload : List Byte) :
    acceptedBetween c (c.request now id payload).2 =
      if (c.request now id payload).1 = .ok then [(.request, id, payload)] else [] := by
  have hrequest := request_requested c now id payload
  have hqueued := c.link.send_queued .request c.nextSeq id payload
  generalize (c.request now id payload).1 = status at hrequest ⊢
  generalize (c.request now id payload).2 = c' at hrequest ⊢
  unfold acceptedBetween
  cases hrequest with
  | accepted accepts =>
    rw [if_pos accepts.sent] at hqueued
    change ((LinkPort.send c.link .request c.nextSeq id payload).2.queued).drop _ = _
    rw [hqueued, List.drop_left, if_pos rfl]
  | unsent _ _ _ sends failed =>
    rw [if_neg (sends ▸ failed)] at hqueued
    change ((LinkPort.send c.link .request c.nextSeq id payload).2.queued).drop _ = _
    rw [hqueued, List.drop_length, if_neg failed]
  | refused _ failed => rw [List.drop_length, if_neg failed]

theorem motorStop_accepted (c : McuClient (Tap K)) (now : Millis) :
    acceptedBetween c (c.motorStop now).2 =
      if (c.motorStop now).1 = .ok then [bareRequest MsgId.motorStop] else [] :=
  request_accepted c now _ _

theorem heaterOff_accepted (c : McuClient (Tap K)) (now : Millis) :
    acceptedBetween c (c.heaterOff now).2 =
      if (c.heaterOff now).1 = .ok then [bareRequest MsgId.heaterOff] else [] :=
  request_accepted c now _ _

theorem tare_accepted (c : McuClient (Tap K)) (now : Millis) : acceptedBetween c (c.tare now).2 =
    if (c.tare now).1 = .ok then [bareRequest MsgId.scaleTare] else [] := request_accepted c now _ _

end McuClient

end Culina.Client
