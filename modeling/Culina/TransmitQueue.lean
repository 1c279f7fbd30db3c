import Culina.SerialLink
import Culina.Fifo

/-!
The transmit buffer of the link as a queue. Compaction, partial writes and the reset
of a drained buffer are invisible in the bytes: the wire and the buffer together hold
the frames of the accepted sends, in order and whole.
-/
namespace Culina.TransmitQueue

open Wire Layout Writer SerialLink Fifo Queue

/-- The bytes of the buffer that have not been written. -/
def queued (link : Link) : List Byte := link.txBuffer.drop link.txOffset

def outflow (link : Link) : Queue Byte := ⟨link.uart.wire, queued link⟩

structure Bounded (link : Link) : Prop where
  offset : link.txOffset ≤ link.txBuffer.length
  size : link.txBuffer.length ≤ kTxCapacity

/-! One operation. -/

/-- What the write call of a flush reports. -/
def reported (link : Link) : ℕ := link.uart.accept link.uart.writes (queued link).length

/-- A flush moves the reported bytes, or all that were offered, from the buffer to the wire. -/
inductive Flushed (link : Link) : Link → Prop
  | idle (empty : link.txBuffer.length ≤ link.txOffset) : Flushed link link
  | all (some : link.txOffset < link.txBuffer.length)
      (rest : link.txBuffer.length ≤ link.txOffset + reported link) :
      Flushed link
        { link with uart := (link.uart.write (queued link)).2, txBuffer := [], txOffset := 0 }
  | part (some : link.txOffset + reported link < link.txBuffer.length) :
      Flushed link
        { link with
          uart := (link.uart.write (queued link)).2
          txOffset := link.txOffset + reported link }

theorem flushTx_flushed (link : Link) : Flushed link link.flushTx := by
  unfold Link.flushTx
  by_cases hempty : link.txOffset ≥ link.txBuffer.length
  · rw [if_pos hempty]
    exact Flushed.idle hempty
  · rw [if_neg hempty]
    by_cases hall : link.txBuffer.length ≤ link.txOffset + reported link
    · have htaken : link.txOffset + (if reported link > link.txBuffer.length - link.txOffset then
          link.txBuffer.length - link.txOffset else reported link) = link.txBuffer.length := by
        split <;> omega
      refine (congrArg (Flushed link) (if_pos htaken)).mpr ?_
      exact Flushed.all (by omega) hall
    · have hsome : (if reported link > link.txBuffer.length - link.txOffset then
          link.txBuffer.length - link.txOffset else reported link) = reported link :=
        if_neg (by omega)
      have hpart : ¬ link.txOffset + (if reported link > link.txBuffer.length - link.txOffset then
          link.txBuffer.length - link.txOffset else reported link) = link.txBuffer.length := by
        rw [hsome]
        omega
      refine (congrArg (Flushed link) (if_neg hpart)).mpr ?_
      have hflushed : Flushed link _ := Flushed.part (by omega)
      rw [← hsome] at hflushed
      exact hflushed

/-- A flush lets the reader take a part of the queue. -/
theorem flushTx_outflow (link : Link) : ∃ count, outflow link.flushTx = (outflow link).drain count := by
  have hflushed := flushTx_flushed link
  generalize link.flushTx = link' at hflushed
  cases hflushed with
  | idle _ => exact ⟨0, (drain_zero _).symm⟩
  | all _ rest =>
    refine ⟨reported link, ?_⟩
    have hdrained : (queued link).drop (reported link) = [] := by
      rw [queued, List.drop_drop]
      exact List.drop_of_length_le rest
    rw [outflow, outflow, drain, hdrained]
    rfl
  | part _ =>
    refine ⟨reported link, ?_⟩
    have hdrained : (queued link).drop (reported link) =
        link.txBuffer.drop (link.txOffset + reported link) := List.drop_drop
    rw [outflow, outflow, drain, hdrained]
    rfl

theorem flushTx_bounded {link : Link} (h : Bounded link) : Bounded link.flushTx := by
  have hflushed := flushTx_flushed link
  generalize link.flushTx = link' at hflushed
  cases hflushed with
  | idle _ => exact h
  | all _ _ => exact ⟨le_rfl, Nat.zero_le _⟩
  | part some => exact ⟨some.le, h.size⟩

/-- Compaction moves no byte in or out. -/
theorem compact_outflow (link : Link) : outflow link.compact = outflow link := by
  unfold Link.compact
  split
  · rfl
  · rfl

theorem compact_bounded {link : Link} (h : Bounded link) : Bounded link.compact := by
  unfold Link.compact
  split
  · refine ⟨Nat.zero_le _, ?_⟩
    have hsize := h.size
    rw [List.length_drop]
    omega
  · exact h

/-- Behind the compacted buffer the offset is zero. -/
theorem compact_offset (link : Link) : link.compact.txOffset = 0 := by
  unfold Link.compact
  split
  · rfl
  · omega

theorem compact_uart (link : Link) : link.compact.uart = link.uart := by
  unfold Link.compact
  split
  · rfl
  · rfl

/-- A compacted buffer holds nothing but queued bytes. -/
theorem refilled_outflow (link : Link) (bytes : List Byte) :
    outflow { link.compact with txBuffer := bytes } = ⟨link.uart.wire, bytes⟩ := by
  have huart := compact_uart link
  have hoffset := compact_offset link
  simp only [outflow, queued, huart, hoffset, List.drop_zero]

theorem compact_txBuffer (link : Link) : link.compact.txBuffer = queued link := by
  unfold Link.compact queued
  by_cases hoffset : link.txOffset > 0
  · rw [if_pos hoffset]
  · rw [if_neg hoffset, show link.txOffset = 0 by omega, List.drop_zero]

/-- What a send does: refuse and write nothing, or queue one whole frame and flush. -/
inductive Sent (link : Link) (type : FrameType) (seq : Byte) (msgId : MsgId) (payload : List Byte) :
    Status → Link → Prop
  | oversized (long : kMaxPayload < payload.length) : Sent link type seq msgId payload .invalidArgument link
  | full (short : payload.length ≤ kMaxPayload)
      (taken : kTxCapacity < (queued link).length + kHeaderSize + payload.length + kCrcSize) :
      Sent link type seq msgId payload .notReady link.compact
  | queued (short : payload.length ≤ kMaxPayload)
      (free : (queued link).length + kHeaderSize + payload.length + kCrcSize ≤ kTxCapacity) :
      Sent link type seq msgId payload .ok
        (Link.flushTx { link.compact with
          txBuffer := TransmitQueue.queued link ++ wireBytes kVersion (Frame.ofBytes type seq msgId payload) })

theorem send_sent {link : Link} (h : Bounded link) (type : FrameType) (seq : Byte) (msgId : MsgId)
    (payload : List Byte) :
    Sent link type seq msgId payload (link.send type seq msgId payload).1
      (link.send type seq msgId payload).2 := by
  have hsize := (compact_bounded h).size
  rw [compact_txBuffer] at hsize
  unfold Link.send
  by_cases hlong : payload.length > kMaxPayload
  · rw [if_pos hlong]
    exact Sent.oversized hlong
  · rw [if_neg hlong]
    dsimp only
    rw [compact_txBuffer]
    by_cases hfull : kHeaderSize + payload.length + kCrcSize > kTxCapacity - (queued link).length
    · rw [if_pos hfull]
      exact Sent.full (by omega) (by omega)
    · have hwritten := writeFrame_eq (kTxCapacity - (queued link).length) type seq msgId payload
        (by omega) (by omega)
      have hsome : (wireBytes kVersion (Frame.ofBytes type seq msgId payload)).length ≠ 0 := by
        rw [wireBytes, List.length_cons]
        exact Nat.succ_ne_zero _
      rw [if_neg hfull, hwritten, if_neg hsome]
      exact Sent.queued (by omega) (by omega)

/-- A send that is not accepted leaves the wire and the queue alone; an accepted one queues its
frame, and the reader takes a part. -/
theorem Sent.outflow {link link' : Link} {type : FrameType} {seq : Byte} {msgId : MsgId}
    {payload : List Byte} {status : Status} (h : Sent link type seq msgId payload status link') :
    (status ≠ .ok → TransmitQueue.outflow link' = TransmitQueue.outflow link) ∧
      (status = .ok → ∃ count, TransmitQueue.outflow link' = ((TransmitQueue.outflow link).push
        (wireBytes kVersion (Frame.ofBytes type seq msgId payload))).drain count) := by
  cases h with
  | oversized _ => exact ⟨fun _ => rfl, fun h => (by cases h)⟩
  | full _ _ => exact ⟨fun _ => compact_outflow link, fun h => (by cases h)⟩
  | queued _ _ =>
    refine ⟨fun h => absurd rfl h, fun _ => ?_⟩
    obtain ⟨count, hflushed⟩ := flushTx_outflow { link.compact with
      txBuffer := TransmitQueue.queued link ++ wireBytes kVersion (Frame.ofBytes type seq msgId payload) }
    refine ⟨count, ?_⟩
    rw [hflushed, refilled_outflow]
    rfl

theorem Sent.bounded {link link' : Link} {type : FrameType} {seq : Byte} {msgId : MsgId}
    {payload : List Byte} {status : Status} (h : Sent link type seq msgId payload status link')
    (hbounded : Bounded link) : Bounded link' := by
  cases h with
  | oversized _ => exact hbounded
  | full _ _ => exact compact_bounded hbounded
  | queued short free =>
    refine flushTx_bounded ⟨?_, ?_⟩
    · rw [compact_offset]
      exact Nat.zero_le _
    · have hlength := wireBytes_length kVersion (Frame.ofBytes type seq msgId payload) short
      have hpayload : (Frame.ofBytes type seq msgId payload).payloadLen = payload.length := rfl
      rw [hpayload] at hlength
      simp only [kHeaderSize, kCrcSize] at free
      simp only [List.length_append, hlength]
      omega

/-- A poll touches the wire and the buffer by its flush only. -/
theorem poll_outflow (link : Link) (now : Millis) :
    (∃ count, outflow (link.poll now).2 = (outflow link).drain count) ∧
      (Bounded link → Bounded (link.poll now).2) := by
  obtain ⟨parser, frameDeadlineMs, rx, hpoll⟩ := Link.poll_eq link now
  rw [hpoll]
  refine ⟨flushTx_outflow link, fun h => ?_⟩
  have hflushed := flushTx_bounded h
  exact ⟨hflushed.offset, hflushed.size⟩

theorem cancelPendingTx_outflow (link : Link) :
    outflow link.cancelPendingTx = (outflow link).cancel ∧ Bounded link.cancelPendingTx :=
  ⟨rfl, le_rfl, Nat.zero_le _⟩

/-! Runs of sends and polls. -/

/-- A call of the link's owner; `receive` are bytes that the peer's writes leave to be read. -/
inductive Call where
  | send (type : FrameType) (seq : Byte) (msgId : MsgId) (payload : List Byte)
  | poll (now : Millis)
  | receive (bytes : List Byte)

def perform (link : Link) : Call → Link
  | .send type seq msgId payload => (link.send type seq msgId payload).2
  | .poll now => (link.poll now).2
  | .receive bytes => { link with uart := link.uart.receive bytes }

/-- The encoding of the frame, if the call is a send that returns Ok. -/
def accepted (link : Link) : Call → List Byte
  | .send type seq msgId payload =>
      if (link.send type seq msgId payload).1 = .ok then
        writeFrame kMaxFrameSize type seq msgId payload
      else []
  | .poll _ => []
  | .receive _ => []

/-- The encodings of the accepted sends of a run, in call order. -/
def encodings (link : Link) : List Call → List Byte
  | [] => []
  | call :: rest => accepted link call ++ encodings (perform link call) rest

theorem perform_content {link : Link} (h : Bounded link) (call : Call) :
    Bounded (perform link call) ∧
      (outflow (perform link call)).content = (outflow link).content ++ accepted link call := by
  cases call with
  | send type seq msgId payload =>
    have hsent := send_sent h type seq msgId payload
    refine ⟨hsent.bounded h, ?_⟩
    obtain ⟨hrefused, haccepted⟩ := hsent.outflow
    by_cases hok : (link.send type seq msgId payload).1 = .ok
    · obtain ⟨count, hpushed⟩ := haccepted hok
      have hwritten : writeFrame kMaxFrameSize type seq msgId payload =
          wireBytes kVersion (Frame.ofBytes type seq msgId payload) := by
        generalize (link.send type seq msgId payload).2 = link' at hsent
        rw [hok] at hsent
        cases hsent with
        | queued short _ =>
          refine writeFrame_eq kMaxFrameSize type seq msgId payload short ?_
          simp only [kHeaderSize, kCrcSize, kMaxFrameSize]
          omega
      rw [perform, hpushed, content_drain, content_push, accepted, if_pos hok, hwritten]
    · rw [perform, hrefused hok, accepted, if_neg hok, List.append_nil]
  | poll now =>
    obtain ⟨⟨count, hdrained⟩, hbounded⟩ := poll_outflow link now
    refine ⟨hbounded h, ?_⟩
    rw [perform, hdrained, content_drain, accepted, List.append_nil]
  | receive bytes => exact ⟨⟨h.offset, h.size⟩, (List.append_nil _).symm⟩

/-- Run lemma: wire and queue grow by what is accepted. -/
theorem run_content {link : Link} (h : Bounded link) (calls : List Call) :
    Bounded (calls.foldl perform link) ∧
      (outflow (calls.foldl perform link)).content =
        (outflow link).content ++ encodings link calls := by
  induction calls generalizing link with
  | nil => exact ⟨h, (List.append_nil _).symm⟩
  | cons call rest ih =>
    obtain ⟨hbounded, hcontent⟩ := perform_content h call
    obtain ⟨hbounded', hcontent'⟩ := ih hbounded
    refine ⟨hbounded', ?_⟩
    rw [List.foldl_cons, hcontent', hcontent, encodings, List.append_assoc]

/-- A link as constructed, on a UART that accepts what it likes. -/
def fresh (accept : ℕ → ℕ → ℕ) : Link := { uart := { accept } }

/-- The wire and the buffer hold exactly the frames of the accepted sends, in order; a refused send
leaves both alone; and the offsets stay inside the buffer. -/
theorem transmit_queue_exact (accept : ℕ → ℕ → ℕ) (calls : List Call) :
    let link := calls.foldl perform (fresh accept)
    link.uart.wire ++ queued link = encodings (fresh accept) calls ∧
      (∀ type seq msgId payload, (link.send type seq msgId payload).1 ≠ .ok →
        (link.send type seq msgId payload).2.uart = link.uart ∧
          queued (link.send type seq msgId payload).2 = queued link) ∧
      link.txOffset ≤ link.txBuffer.length ∧ link.txBuffer.length ≤ 1040 := by
  have hfresh : Bounded (fresh accept) := ⟨le_rfl, Nat.zero_le _⟩
  obtain ⟨hbounded, hcontent⟩ := run_content hfresh calls
  refine ⟨hcontent, ?_, hbounded.offset, hbounded.size⟩
  intro type seq msgId payload hrefused
  have hsent := send_sent hbounded type seq msgId payload
  generalize calls.foldl perform (fresh accept) = link at hsent hrefused
  generalize (link.send type seq msgId payload).1 = status at hsent hrefused
  generalize (link.send type seq msgId payload).2 = link' at hsent
  cases hsent with
  | oversized _ => exact ⟨rfl, rfl⟩
  | full _ _ => exact ⟨compact_uart link, congrArg Queue.queued (compact_outflow link)⟩
  | queued _ _ => exact absurd rfl hrefused

/-- Four of the largest frames fill the buffer of a stalled UART. -/
def fullRun : List Call :=
  List.replicate 4 (.send .telemetry 0 MsgId.telemetry (List.replicate kMaxPayload 0))

theorem transmit_queue_exact_full :
    queued ((fullRun.foldl perform (fresh fun _ _ => 0)).send .request 0 MsgId.ping []).2 =
      queued (fullRun.foldl perform (fresh fun _ _ => 0)) :=
  ((transmit_queue_exact (fun _ _ => 0) fullRun).2.1 .request 0 MsgId.ping [] (by decide +kernel)).2

end Culina.TransmitQueue
