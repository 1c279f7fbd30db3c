import Culina.Client
import Culina.Counters

/-!
The frame-level link: whole frames in, whole frames out, and a send that the
transmit buffer may refuse. Every sent frame carries the true count of its sequence
number, so that frames with equal sequence numbers can be told apart.
-/
namespace Culina.Packets

open Wire Ports Client McuClient Counters

structure Packet where
  stamp : ℕ
  frame : Frame

/-- `accepts n` is the verdict on the `n`-th send; `stamp` the count of the last
sequence number tried. -/
structure FrameLink where
  accepts : ℕ → Bool := fun _ => true
  sends : ℕ := 0
  inbox : List Frame := []
  outbox : List Packet := []
  stamp : ℕ := 0

namespace FrameLink

def send (link : FrameLink) (type : FrameType) (seq : Byte) (msgId : MsgId) (payload : List Byte) :
    Status × FrameLink :=
  let tried := { link with sends := link.sends + 1, stamp := unwrap link.stamp seq }
  if payload.length > kMaxPayload then (.invalidArgument, tried)
  else if link.accepts link.sends then
    (.ok, { tried with
      outbox := link.outbox ++ [⟨unwrap link.stamp seq, Frame.ofBytes type seq msgId payload⟩] })
  else (.notReady, tried)

def poll (link : FrameLink) (_ : Millis) : Option Frame × FrameLink :=
  (link.inbox.head?, { link with inbox := link.inbox.tail })

instance : LinkPort FrameLink where
  send := send
  cancelPendingTx link := link
  poll := poll
  incoming := inbox

theorem send_inbox (link : FrameLink) (type : FrameType) (seq : Byte) (msgId : MsgId)
    (payload : List Byte) : (link.send type seq msgId payload).2.inbox = link.inbox := by
  unfold send
  dsimp only
  split_ifs <;> rfl

instance : LawfulLinkPort FrameLink where
  poll_frame _ _ := rfl
  poll_incoming _ _ := rfl
  send_incoming := send_inbox
  cancel_incoming _ := rfl

theorem send_stamp (link : FrameLink) (type : FrameType) (seq : Byte) (msgId : MsgId)
    (payload : List Byte) :
    (link.send type seq msgId payload).2.stamp = unwrap link.stamp seq := by
  unfold send
  dsimp only
  split_ifs <;> rfl

theorem send_outbox (link : FrameLink) (type : FrameType) (seq : Byte) (msgId : MsgId)
    (payload : List Byte) :
    (link.send type seq msgId payload).2.outbox =
      if (link.send type seq msgId payload).1 = .ok then
        link.outbox ++ [⟨unwrap link.stamp seq, Frame.ofBytes type seq msgId payload⟩]
      else link.outbox := by
  unfold send
  dsimp only
  split_ifs <;> simp_all

end FrameLink

/-! A client on a frame-level link. -/

/-- The number of sequence numbers the client has drawn. -/
def drawn (c : McuClient FrameLink) : ℕ := unwrap c.link.stamp c.nextSeq

theorem ofNat_drawn (c : McuClient FrameLink) : BitVec.ofNat 8 (drawn c) = c.nextSeq :=
  ofNat_unwrap _ _

/-- The link after the client has tried to send its next sequence number. -/
def tried (c : McuClient FrameLink) (id : MsgId) (payload : List Byte) : FrameLink :=
  (LinkPort.send c.link .request c.nextSeq id payload).2

theorem tried_stamp (c : McuClient FrameLink) (id : MsgId) (payload : List Byte) :
    (tried c id payload).stamp = drawn c := FrameLink.send_stamp _ _ _ _ _

/-- Trying a number without drawing it leaves the count. -/
theorem drawn_tried (c : McuClient FrameLink) (id : MsgId) (payload : List Byte) :
    unwrap (tried c id payload).stamp c.nextSeq = drawn c := by
  rw [tried_stamp, ← ofNat_drawn, unwrap_self]

theorem drawn_next (c : McuClient FrameLink) (id : MsgId) (payload : List Byte) :
    unwrap (tried c id payload).stamp (c.nextSeq + 1) = drawn c + 1 := by
  rw [tried_stamp, ← ofNat_drawn, unwrap_succ (by decide)]

theorem le_drawn_next (c : McuClient FrameLink) (id : MsgId) (payload : List Byte) :
    drawn c ≤ unwrap (tried c id payload).stamp (c.nextSeq + 1) := by
  rw [drawn_next]
  exact Nat.le_succ _

/-- The packets on their way out: in the order of their counts, all drawn already, and
each showing its count as its sequence number. -/
structure Ordered (count : ℕ) (outbox : List Packet) : Prop where
  below : ∀ p ∈ outbox, p.stamp < count
  increasing : outbox.Pairwise fun p q => p.stamp < q.stamp
  shown : ∀ p ∈ outbox, p.frame.seq = BitVec.ofNat 8 p.stamp

theorem Ordered.mono {count count' : ℕ} {outbox : List Packet} (h : Ordered count outbox)
    (hle : count ≤ count') : Ordered count' outbox :=
  ⟨fun p hp => lt_of_lt_of_le (h.below p hp) hle, h.increasing, h.shown⟩

theorem Ordered.sublist {count : ℕ} {outbox outbox' : List Packet} (h : Ordered count outbox)
    (hsub : outbox'.Sublist outbox) : Ordered count outbox' :=
  ⟨fun p hp => h.below p (hsub.subset hp), h.increasing.sublist hsub,
    fun p hp => h.shown p (hsub.subset hp)⟩

theorem Ordered.snoc {count : ℕ} {outbox : List Packet} (h : Ordered count outbox) (frame : Frame)
    (hseq : frame.seq = BitVec.ofNat 8 count) : Ordered (count + 1) (outbox ++ [⟨count, frame⟩]) := by
  refine ⟨?_, ?_, ?_⟩
  · intro p hp
    rcases List.mem_append.mp hp with hp | hp
    · have := h.below p hp
      omega
    · rw [List.mem_singleton] at hp
      subst hp
      exact Nat.lt_succ_self count
  · rw [List.pairwise_append]
    refine ⟨h.increasing, List.pairwise_singleton _ _, ?_⟩
    intro p hp q hq
    rw [List.mem_singleton] at hq
    subst hq
    exact h.below p hp
  · intro p hp
    rcases List.mem_append.mp hp with hp | hp
    · exact h.shown p hp
    · rw [List.mem_singleton] at hp
      subst hp
      exact hseq

/-- The packet a request, a retry or a heartbeat sends. -/
def packet (c : McuClient FrameLink) (id : MsgId) (payload : List Byte) : Packet :=
  ⟨drawn c, Frame.ofBytes .request c.nextSeq id payload⟩

theorem tried_outbox (c : McuClient FrameLink) (id : MsgId) (payload : List Byte) :
    (tried c id payload).outbox =
      if (LinkPort.send c.link .request c.nextSeq id payload).1 = .ok then
        c.link.outbox ++ [packet c id payload]
      else c.link.outbox := FrameLink.send_outbox _ _ _ _ _

/-- Drawing a number keeps the packets in order, whether or not the send goes through. -/
theorem tried_ordered {c : McuClient FrameLink} {before : List Packet}
    (h : Ordered (drawn c) (before ++ c.link.outbox)) (id : MsgId) (payload : List Byte) :
    Ordered (drawn c + 1) (before ++ (tried c id payload).outbox) := by
  rw [tried_outbox]
  split
  · rw [← List.append_assoc]
    exact h.snoc _ (ofNat_drawn c).symm
  · exact h.mono (Nat.le_succ _)

/-- A number tried without being drawn is not on its way out. -/
theorem untried_outbox {c : McuClient FrameLink} {id : MsgId} {payload : List Byte}
    (hfailed : (LinkPort.send c.link .request c.nextSeq id payload).1 ≠ .ok) :
    (tried c id payload).outbox = c.link.outbox := by
  rw [tried_outbox, if_neg hfailed]

theorem mem_tried_outbox {c : McuClient FrameLink} {id : MsgId} {payload : List Byte}
    {sent : Packet} (h : sent ∈ (tried c id payload).outbox) :
    sent ∈ c.link.outbox ∨ sent.frame.msgId = id := by
  rw [tried_outbox] at h
  split at h
  · rcases List.mem_append.mp h with hold | hnew
    · exact Or.inl hold
    · rw [List.mem_singleton] at hnew
      subst hnew
      exact Or.inr rfl
  · exact Or.inl h

/-! The client's numbers through its operations. -/

/-- The packets are in order, behind those that went before, and an outstanding request shows
the number drawn last. -/
structure Numbered (before : List Packet) (c : McuClient FrameLink) : Prop where
  ordered : Ordered (drawn c) (before ++ c.link.outbox)
  pending : c.waiting = true → ∃ stamp, drawn c = stamp + 1 ∧ c.pendingSeq = BitVec.ofNat 8 stamp

theorem drawn_request_le (c : McuClient FrameLink) (now : Millis) (id : MsgId) (payload : List Byte) :
    drawn c ≤ drawn (c.request now id payload).2 := by
  have hrequest := request_requested c now id payload
  generalize (c.request now id payload).1 = status at hrequest
  generalize (c.request now id payload).2 = c' at hrequest
  cases hrequest with
  | accepted _ => exact le_drawn_next c id payload
  | unsent _ _ _ _ _ => exact le_drawn_next c id payload
  | refused _ _ => exact le_rfl

theorem Numbered.request {c : McuClient FrameLink} {before : List Packet} (h : Numbered before c) (now : Millis) (id : MsgId)
    (payload : List Byte) : Numbered before (c.request now id payload).2 := by
  have hdrawn := drawn_next c id payload
  have hordered := tried_ordered h.ordered id payload
  rw [← hdrawn] at hordered
  have hrequest := request_requested c now id payload
  generalize (c.request now id payload).1 = status at hrequest
  generalize (c.request now id payload).2 = c' at hrequest
  cases hrequest with
  | accepted _ => exact ⟨hordered, fun _ => ⟨drawn c, hdrawn, (ofNat_drawn c).symm⟩⟩
  | unsent _ idle _ _ _ => exact ⟨hordered, fun hwaiting => Bool.noConfusion (idle.symm.trans hwaiting)⟩
  | refused _ _ => exact h

theorem drawn_lt_of_request_ok {c : McuClient FrameLink} {now : Millis} {id : MsgId}
    {payload : List Byte} (h : (c.request now id payload).1 = .ok) :
    drawn c < drawn (c.request now id payload).2 := by
  have hrequest := request_requested c now id payload
  rw [h] at hrequest
  generalize (c.request now id payload).2 = c' at hrequest
  cases hrequest with
  | accepted _ => exact (drawn_next c id payload).ge
  | unsent _ _ _ _ failed => exact absurd rfl failed
  | refused _ failed => exact absurd rfl failed

theorem mem_request_outbox {c : McuClient FrameLink} {now : Millis} {id : MsgId}
    {payload : List Byte} {sent : Packet} (h : sent ∈ (c.request now id payload).2.link.outbox) :
    sent ∈ c.link.outbox ∨ sent.frame.msgId = id := by
  have hrequest := request_requested c now id payload
  generalize (c.request now id payload).1 = status at hrequest
  generalize (c.request now id payload).2 = c' at hrequest h
  cases hrequest with
  | accepted _ => exact mem_tried_outbox h
  | unsent _ _ _ _ _ => exact mem_tried_outbox h
  | refused _ _ => exact Or.inl h

theorem drawn_timed_le {c c' : McuClient FrameLink} {now : Millis} (htimed : Timed c now c') :
    drawn c ≤ drawn c' := by
  cases htimed with
  | quiet _ => exact le_rfl
  | gaveUp _ => exact le_rfl
  | unsent _ _ _ _ => exact (drawn_tried c c.pendingMsgId c.pendingPayload).ge
  | retried _ _ _ _ => exact le_drawn_next c c.pendingMsgId c.pendingPayload

theorem Numbered.timed {c c' : McuClient FrameLink} {before : List Packet} {now : Millis}
    (h : Numbered before c) (htimed : Timed c now c') : Numbered before c' := by
  cases htimed with
  | quiet _ => exact h
  | gaveUp _ => exact ⟨h.ordered, fun hwaiting => (by cases hwaiting)⟩
  | unsent waiting _ _ failed =>
    have hdrawn := drawn_tried c c.pendingMsgId c.pendingPayload
    have hordered := h.ordered
    rw [← hdrawn, ← untried_outbox failed] at hordered
    obtain ⟨stamp, hlast, hshown⟩ := h.pending waiting
    exact ⟨hordered, fun _ => ⟨stamp, hdrawn.trans hlast, hshown⟩⟩
  | retried _ _ _ _ =>
    have hdrawn := drawn_next c c.pendingMsgId c.pendingPayload
    have hordered := tried_ordered h.ordered c.pendingMsgId c.pendingPayload
    rw [← hdrawn] at hordered
    exact ⟨hordered, fun _ => ⟨drawn c, hdrawn, (ofNat_drawn c).symm⟩⟩

/-- What the timers leave of a request that stays out: as it was, or transmitted once more. -/
theorem timed_outstanding {c c' : McuClient FrameLink} {now : Millis} (htimed : Timed c now c')
    (hwaiting : c'.waiting = true) :
    (c'.pendingMsgId = c.pendingMsgId ∧ c'.pendingPayload = c.pendingPayload ∧
        c'.requestStartedMs = c.requestStartedMs ∧ c'.responseReady = c.responseReady ∧
        now - c.requestStartedMs < kRequestDeadlineMs) ∧
      ((c'.retried = c.retried ∧ drawn c' = drawn c ∧ c'.link.outbox = c.link.outbox) ∨
        (c.retried = false ∧ c'.retried = true ∧ drawn c' = drawn c + 1 ∧
          c'.link.outbox = c.link.outbox ++ [packet c c.pendingMsgId c.pendingPayload])) := by
  cases htimed with
  | quiet early => exact ⟨⟨rfl, rfl, rfl, rfl, early hwaiting⟩, Or.inl ⟨rfl, rfl, rfl⟩⟩
  | gaveUp _ => cases hwaiting
  | unsent _ early _ failed =>
    exact ⟨⟨rfl, rfl, rfl, rfl, early⟩, Or.inl ⟨rfl, drawn_tried c _ _, untried_outbox failed⟩⟩
  | retried _ early first sent =>
    refine ⟨⟨rfl, rfl, rfl, rfl, early⟩, Or.inr ⟨first, rfl, drawn_next c _ _, ?_⟩⟩
    exact (tried_outbox c _ _).trans (if_pos sent)

/-- A request that is out after the timers was out before. -/
theorem waiting_of_timed {c c' : McuClient FrameLink} {now : Millis} (htimed : Timed c now c')
    (hwaiting : c'.waiting = true) : c.waiting = true ∧ c'.pendingMsgId = c.pendingMsgId := by
  refine ⟨?_, (timed_outstanding htimed hwaiting).1.1⟩
  cases htimed with
  | quiet _ => exact hwaiting
  | gaveUp waiting => exact waiting
  | unsent waiting _ _ _ => exact waiting
  | retried waiting _ _ _ => exact waiting

theorem drawn_beaten_le {c c' : McuClient FrameLink} {now : Millis} (hbeaten : Beaten c now c') :
    drawn c ≤ drawn c' := by
  cases hbeaten with
  | quiet => exact le_rfl
  | unsent _ => exact le_drawn_next c MsgId.ping []
  | sent _ _ => exact le_drawn_next c MsgId.ping []

theorem Numbered.beaten {c c' : McuClient FrameLink} {before : List Packet} {now : Millis}
    (h : Numbered before c) (hbeaten : Beaten c now c') : Numbered before c' := by
  have hordered := tried_ordered h.ordered MsgId.ping []
  rw [← drawn_next c MsgId.ping []] at hordered
  cases hbeaten with
  | quiet => exact h
  | unsent idle => exact ⟨hordered, fun hwaiting => Bool.noConfusion (idle.symm.trans hwaiting)⟩
  | sent idle _ => exact ⟨hordered, fun hwaiting => Bool.noConfusion (idle.symm.trans hwaiting)⟩

/-! Receiving. -/

/-- The client with these frames before it. -/
def load (c : McuClient FrameLink) (frames : List Frame) : McuClient FrameLink :=
  { c with link := { c.link with inbox := frames } }

def receiveAll (c : McuClient FrameLink) (frames : List Frame) (now : Millis) : McuClient FrameLink :=
  frames.foldl (fun c frame => c.receive frame now) c

theorem receive_load (c : McuClient FrameLink) (frame : Frame) (frames : List Frame) (now : Millis) :
    (load c frames).receive frame now = load (c.receive frame now) frames := by
  unfold receive load
  by_cases hsample : IsSample frame
  · rw [if_pos hsample, if_pos hsample]
  · rw [if_neg hsample, if_neg hsample]
    by_cases hfault : IsFault frame
    · rw [if_pos hfault, if_pos hfault]
    · rw [if_neg hfault, if_neg hfault]
      by_cases hmatches : c.Matches frame
      · rw [if_pos hmatches, if_pos]
        exact hmatches
      · rw [if_neg hmatches, if_neg]
        exact hmatches

/-- The frame loop receives the loaded frames in order. -/
theorem pollLink_eq (c : McuClient FrameLink) (now : Millis) :
    c.pollLink now = load (receiveAll c c.link.inbox now) [] := by
  suffices h : ∀ frames (c : McuClient FrameLink),
      (load c frames).pollFrames (frames.length + 1) now = load (receiveAll c frames now) [] from
    h c.link.inbox c
  intro frames
  induction frames with
  | nil => exact fun _ => rfl
  | cons frame rest ih =>
    intro c
    have hstep : (load c (frame :: rest)).pollFrames (rest.length + 1 + 1) now =
        ((load c rest).receive frame now).pollFrames (rest.length + 1) now := rfl
    rw [List.length_cons, hstep, receive_load, ih]
    rfl

/-- What receiving frames does: the first that answers the outstanding request is kept as its
response, and no other touches more than telemetry and fault memory. -/
inductive Heard (c : McuClient FrameLink) (frames : List Frame) : McuClient FrameLink → Prop
  | nothing (store : Services.TelemetryStore) (lastFault : Byte)
      (unmatched : ∀ frame ∈ frames, ¬ c.Matches frame) :
      Heard c frames { c with store, lastFault }
  | answer (frame : Frame) (store : Services.TelemetryStore) (lastFault : Byte)
      (found : frames.find? (fun frame => decide (c.Matches frame)) = some frame) :
      Heard c frames
        { c with
          store
          lastFault
          response := frame
          responseReady := true
          waiting := false
          lastCommandStatus := if frame.type = .response then .ok else .protocolError }

theorem not_matches_telemetry {c : McuClient FrameLink} {frame : Frame}
    (htype : frame.type = .telemetry) : ¬ c.Matches frame := by
  rintro ⟨hresponse | hnack, -⟩
  · exact FrameType.noConfusion (htype.symm.trans hresponse)
  · exact FrameType.noConfusion (htype.symm.trans hnack)

theorem Heard.cons_stray {c : McuClient FrameLink} {frame : Frame} {rest : List Frame}
    {c' : McuClient FrameLink} (hstray : ¬ c.Matches frame) (h : Heard c rest c') :
    Heard c (frame :: rest) c' := by
  cases h with
  | nothing store lastFault unmatched =>
    exact Heard.nothing store lastFault (List.forall_mem_cons.mpr ⟨hstray, unmatched⟩)
  | answer answer store lastFault found =>
    refine Heard.answer answer store lastFault ?_
    rw [List.find?_cons_of_neg (by simpa using hstray)]
    exact found

theorem Heard.of_idle {c : McuClient FrameLink} {frames : List Frame} {c' : McuClient FrameLink}
    (hidle : c.waiting = false) (h : Heard c frames c') :
    ∃ store lastFault, c' = { c with store, lastFault } := by
  cases h with
  | nothing store lastFault unmatched => exact ⟨store, lastFault, rfl⟩
  | answer answer store lastFault found =>
    have hmatches : c.Matches answer := by simpa using List.find?_some found
    exact Bool.noConfusion (hidle.symm.trans hmatches.2.1)

theorem receiveAll_heard (c : McuClient FrameLink) (frames : List Frame) (now : Millis) :
    Heard c frames (receiveAll c frames now) := by
  induction frames generalizing c with
  | nil => exact Heard.nothing c.store c.lastFault fun _ h => (by cases h)
  | cons frame rest ih =>
    have hreceived := receive_received c frame now
    have hih := ih (c.receive frame now)
    rw [receiveAll, List.foldl_cons, ← receiveAll]
    generalize receiveAll (c.receive frame now) rest now = c' at hih ⊢
    generalize c.receive frame now = c₁ at hreceived hih
    cases hreceived with
    | sample type =>
      refine Heard.cons_stray (not_matches_telemetry type.1) ?_
      cases hih with
      | nothing store lastFault unmatched => exact Heard.nothing store lastFault unmatched
      | answer answer store lastFault found => exact Heard.answer answer store lastFault found
    | fault type =>
      refine Heard.cons_stray (not_matches_telemetry type.1) ?_
      cases hih with
      | nothing store lastFault unmatched => exact Heard.nothing store lastFault unmatched
      | answer answer store lastFault found => exact Heard.answer answer store lastFault found
    | answer found =>
      obtain ⟨store, lastFault, rfl⟩ := hih.of_idle rfl
      refine Heard.answer frame store lastFault ?_
      exact List.find?_cons_of_pos (decide_eq_true found)
    | ignored stray => exact hih.cons_stray stray

theorem pollTimers_inbox (c : McuClient FrameLink) (now : Millis) :
    (c.pollTimers now).link.inbox = c.link.inbox := by
  have htimed := pollTimers_timed c now
  generalize c.pollTimers now = c' at htimed
  cases htimed with
  | quiet _ => rfl
  | gaveUp _ => rfl
  | unsent _ _ _ _ => exact FrameLink.send_inbox _ _ _ _ _
  | retried _ _ _ _ => exact FrameLink.send_inbox _ _ _ _ _

/-- A poll: the timers, the loaded frames and the heartbeat. -/
theorem poll_stages (c : McuClient FrameLink) (now : Millis) :
    Timed c now (c.pollTimers now) ∧
      ∃ heard, Heard (c.pollTimers now) c.link.inbox heard ∧
        Beaten (load heard []) now (c.poll now) := by
  refine ⟨pollTimers_timed c now, receiveAll (c.pollTimers now) c.link.inbox now,
    receiveAll_heard _ _ now, ?_⟩
  have hlink := pollLink_eq (c.pollTimers now) now
  rw [pollTimers_inbox] at hlink
  rw [← hlink]
  exact pollHeartbeat_beaten _ now

/-- A poll sends the heartbeat and the outstanding request, and nothing else. -/
theorem poll_outbox (c : McuClient FrameLink) (now : Millis) :
    ∀ packet ∈ (c.poll now).link.outbox, packet ∈ c.link.outbox ∨
      packet.frame.msgId = MsgId.ping ∨
      (c.waiting = true ∧ packet.frame.msgId = c.pendingMsgId) := by
  obtain ⟨htimed, heard, hheard, hbeaten⟩ := poll_stages c now
  intro packet hmem
  have hpolled : packet ∈ heard.link.outbox ∨ packet.frame.msgId = MsgId.ping := by
    generalize c.poll now = polled at hbeaten hmem
    cases hbeaten with
    | quiet => exact Or.inl hmem
    | unsent _ => exact mem_tried_outbox (c := load heard []) hmem
    | sent _ _ => exact mem_tried_outbox (c := load heard []) hmem
  have hlink : heard.link = (c.pollTimers now).link := by
    cases hheard <;> rfl
  rcases hpolled with hold | hping
  · rw [hlink] at hold
    generalize c.pollTimers now = timed at htimed hold
    cases htimed with
    | quiet _ => exact Or.inl hold
    | gaveUp _ => exact Or.inl hold
    | unsent waiting _ _ _ =>
      exact (mem_tried_outbox hold).imp_right fun hmsgId => Or.inr ⟨waiting, hmsgId⟩
    | retried waiting _ _ _ =>
      exact (mem_tried_outbox hold).imp_right fun hmsgId => Or.inr ⟨waiting, hmsgId⟩
  · exact Or.inr (Or.inl hping)

/-- A request that is out after a poll was out before, and the poll has brought no response. -/
theorem poll_waiting {c : McuClient FrameLink} {now : Millis} (h : (c.poll now).waiting = true) :
    c.waiting = true ∧ (c.poll now).pendingMsgId = c.pendingMsgId ∧
      (c.poll now).responseReady = c.responseReady := by
  obtain ⟨htimed, heard, hheard, hbeaten⟩ := poll_stages c now
  have hpolled : (c.poll now).waiting = heard.waiting ∧
      (c.poll now).pendingMsgId = heard.pendingMsgId ∧
      (c.poll now).responseReady = heard.responseReady := by
    generalize c.poll now = polled at hbeaten
    cases hbeaten <;> exact ⟨rfl, rfl, rfl⟩
  obtain ⟨hwaiting, hmsgId, hready⟩ := hpolled
  rw [hwaiting] at h
  rw [hmsgId, hready]
  cases hheard with
  | nothing _ _ _ =>
    obtain ⟨hout, hmsgId⟩ := waiting_of_timed htimed h
    exact ⟨hout, hmsgId, (timed_outstanding htimed h).1.2.2.2.1⟩
  | answer _ _ _ _ => cases h

/-- A response that is ready after a poll was ready before, or has just been matched. -/
theorem poll_ready {c : McuClient FrameLink} {now : Millis} (h : (c.poll now).responseReady = true) :
    (c.responseReady = true ∧ (c.poll now).response = c.response) ∨
      ∃ frame ∈ c.link.inbox, (c.pollTimers now).Matches frame ∧ (c.poll now).response = frame := by
  obtain ⟨htimed, heard, hheard, hbeaten⟩ := poll_stages c now
  have hpolled : (c.poll now).responseReady = heard.responseReady ∧
      (c.poll now).response = heard.response := by
    generalize c.poll now = polled at hbeaten
    cases hbeaten <;> exact ⟨rfl, rfl⟩
  obtain ⟨hready, hresponse⟩ := hpolled
  rw [hready] at h
  rw [hresponse]
  cases hheard with
  | nothing _ _ _ =>
    left
    generalize c.pollTimers now = timed at htimed h
    cases htimed <;> exact ⟨h, rfl⟩
  | answer frame _ _ found =>
    right
    refine ⟨frame, List.mem_of_find?_eq_some found, ?_, rfl⟩
    simpa using List.find?_some found

theorem Numbered.heard {c c' : McuClient FrameLink} {before : List Packet} {frames : List Frame}
    (h : Numbered before c) (hheard : Heard c frames c') : Numbered before c' ∧ drawn c' = drawn c := by
  cases hheard with
  | nothing _ _ _ => exact ⟨⟨h.ordered, h.pending⟩, rfl⟩
  | answer _ _ _ _ => exact ⟨⟨h.ordered, fun hwaiting => (by cases hwaiting)⟩, rfl⟩

theorem Numbered.poll {c : McuClient FrameLink} {before : List Packet} (h : Numbered before c)
    (now : Millis) : Numbered before (c.poll now) ∧ drawn c ≤ drawn (c.poll now) := by
  obtain ⟨htimed, heard, hheard, hbeaten⟩ := poll_stages c now
  obtain ⟨hnumbered, hsame⟩ := (h.timed htimed).heard hheard
  have hunloaded : Numbered before (load heard []) := ⟨hnumbered.ordered, hnumbered.pending⟩
  have hgrown := drawn_timed_le htimed
  have hgrown' := drawn_beaten_le hbeaten
  change drawn heard ≤ drawn (c.poll now) at hgrown'
  exact ⟨hunloaded.beaten hbeaten, by omega⟩

/-! Replies. -/

/-- A frame on its way to the client, with the packet that it answers. -/
structure Reply where
  origin : Option Packet
  frame : Frame

/-- A response shows the number of the packet it answers, and nothing else is a response. -/
def Reply.Echoes (count : ℕ) (reply : Reply) : Prop :=
  match reply.origin with
  | none => reply.frame.type ≠ .response ∧ reply.frame.type ≠ .nack
  | some packet => packet.stamp < count ∧ reply.frame.seq = BitVec.ofNat 8 packet.stamp

/-- Less than one turn of the numbers lies between the packet and its reply. -/
def Reply.Fresh (count : ℕ) (reply : Reply) : Prop :=
  ∀ packet, reply.origin = some packet → count ≤ packet.stamp + 256

theorem Reply.Echoes.mono {count count' : ℕ} {reply : Reply} (h : reply.Echoes count)
    (hle : count ≤ count') : reply.Echoes count' := by
  unfold Reply.Echoes at h ⊢
  cases horigin : reply.origin with
  | none => simpa only [horigin] using h
  | some packet =>
    simp only [horigin] at h ⊢
    exact ⟨lt_of_lt_of_le h.1 hle, h.2⟩

/-- What answers the outstanding request answers its last transmission. -/
theorem Numbered.origin_of_matches {c : McuClient FrameLink} {before : List Packet}
    (h : Numbered before c) {reply : Reply}
    (hechoes : reply.Echoes (drawn c)) (hfresh : reply.Fresh (drawn c))
    (hmatches : c.Matches reply.frame) :
    ∃ packet, reply.origin = some packet ∧ packet.stamp + 1 = drawn c := by
  obtain ⟨htype, hwaiting, -, hseq⟩ := hmatches
  obtain ⟨stamp, hdrawn, hpending⟩ := h.pending hwaiting
  unfold Reply.Echoes at hechoes
  cases horigin : reply.origin with
  | none =>
    simp only [horigin] at hechoes
    rcases htype with htype | htype
    · exact absurd htype hechoes.1
    · exact absurd htype hechoes.2
  | some packet =>
    simp only [horigin] at hechoes
    obtain ⟨hbelow, hshown⟩ := hechoes
    have hwindow := hfresh packet horigin
    have hsame : BitVec.ofNat 8 stamp = BitVec.ofNat 8 packet.stamp := by
      rw [← hpending, ← hseq, hshown]
    have hstamp : stamp = packet.stamp := eq_of_ofNat_eq (by omega) (by omega) hsame
    exact ⟨packet, rfl, by omega⟩

end Culina.Packets
