import Culina.TransmitQueue

/-!
Whole frames. A link over a UART that takes all it is offered writes one frame with each
accepted send and keeps nothing back; a link that has received whole frames delivers them
one a poll and is idle behind them.
-/
namespace Culina.WholeFrames

open Wire Layout Framing FrameParser Writer SerialLink Ports TransmitQueue

/-! Sending. -/

/-- Nothing is queued, and the UART takes all it is offered. -/
structure Clear (link : Link) : Prop where
  takes : ∀ count len, len ≤ link.uart.accept count len
  txBuffer : link.txBuffer = []
  txOffset : link.txOffset = 0

theorem Clear.bounded {link : Link} (h : Clear link) : Bounded link := by
  constructor
  · rw [h.txOffset]
    exact Nat.zero_le _
  · rw [h.txBuffer]
    exact Nat.zero_le _

theorem Clear.queued {link : Link} (h : Clear link) : queued link = [] := by
  rw [TransmitQueue.queued, h.txBuffer, List.drop_nil]

theorem flushTx_clear {link : Link} (h : Clear link) : link.flushTx = link := by
  unfold Link.flushTx
  rw [if_pos]
  rw [h.txBuffer, h.txOffset]
  exact le_rfl

/-- A buffer that starts at its front goes out whole. -/
theorem flushTx_whole (link : Link) (htakes : ∀ count len, len ≤ link.uart.accept count len)
    (hoffset : link.txOffset = 0) :
    Clear link.flushTx ∨ link.txBuffer = [] := by
  have hflushed := flushTx_flushed link
  generalize link.flushTx = link' at hflushed
  cases hflushed with
  | idle empty =>
    right
    rw [hoffset] at empty
    exact List.length_eq_zero_iff.mp (Nat.le_zero.mp empty)
  | all _ _ => exact Or.inl ⟨htakes, rfl, rfl⟩
  | part some =>
    have htaken := htakes link.uart.writes (TransmitQueue.queued link).length
    rw [TransmitQueue.queued, hoffset, List.drop_zero] at htaken
    rw [reported, TransmitQueue.queued, hoffset, List.drop_zero] at some
    omega

/-- Every send that is not oversized goes out at once. -/
theorem send_clear {link : Link} (h : Clear link) (type : FrameType) (seq : Byte) (msgId : MsgId)
    {payload : List Byte} (hlen : payload.length ≤ kMaxPayload) :
    (link.send type seq msgId payload).1 = .ok ∧ Clear (link.send type seq msgId payload).2 ∧
      (link.send type seq msgId payload).2.uart.wire =
        link.uart.wire ++ wireBytes kVersion (Frame.ofBytes type seq msgId payload) := by
  have hsent := send_sent h.bounded type seq msgId payload
  have hcontent := hsent.outflow.2
  generalize (link.send type seq msgId payload).2 = link' at hsent hcontent
  generalize (link.send type seq msgId payload).1 = status at hsent hcontent
  cases hsent with
  | oversized long => omega
  | full _ taken =>
    rw [h.queued] at taken
    simp only [kHeaderSize, kCrcSize, kTxCapacity, kMaxFrameSize, kMaxPayload, List.length_nil] at taken hlen
    omega
  | queued _ _ =>
    obtain ⟨count, hdrained⟩ := hcontent rfl
    refine ⟨rfl, ?_⟩
    have htakes : ∀ count len, len ≤ link.compact.uart.accept count len := by
      rw [compact_uart]
      exact h.takes
    have hwhole := flushTx_whole { link.compact with
      txBuffer := TransmitQueue.queued link ++
        wireBytes kVersion (Frame.ofBytes type seq msgId payload) } htakes (compact_offset link)
    rcases hwhole with hclear | hempty
    · refine ⟨hclear, ?_⟩
      have hsame := congrArg Fifo.Queue.content hdrained
      rw [Fifo.Queue.content_drain, Fifo.Queue.content_push] at hsame
      simp only [Fifo.Queue.content, outflow] at hsame
      rw [hclear.queued, List.append_nil] at hsame
      rw [hsame, h.queued, List.append_nil]
    · simp [wireBytes] at hempty

/-! What a poll leaves of the sending side. -/

theorem poll_clear {link : Link} (h : Clear link) (now : Millis) :
    Clear (link.poll now).2 ∧ (link.poll now).2.uart.wire = link.uart.wire := by
  obtain ⟨parser, frameDeadlineMs, rx, hpoll⟩ := Link.poll_eq link now
  rw [hpoll, flushTx_clear h]
  exact ⟨⟨h.takes, h.txBuffer, h.txOffset⟩, rfl⟩

theorem cancel_clear {link : Link} (h : Clear link) :
    Clear link.cancelPendingTx ∧ link.cancelPendingTx.uart.wire = link.uart.wire :=
  ⟨⟨h.takes, rfl, rfl⟩, rfl⟩

/-! Receiving. -/

/-- The bytes to be read are those of the frames, and no candidate is in progress. -/
structure Holds (link : Link) (frames : List Frame) : Prop where
  idle : Idle link.parser
  rx : link.uart.rx = frames.flatMap (wireBytes kVersion)
  short : ∀ f ∈ frames, f.payloadLen ≤ kMaxPayload

theorem send_holds {link : Link} {frames : List Frame} (h : Holds link frames) (type : FrameType)
    (seq : Byte) (msgId : MsgId) (payload : List Byte) :
    Holds (link.send type seq msgId payload).2 frames := by
  obtain ⟨hparser, hrx⟩ := Link.send_receiving link type seq msgId payload
  refine ⟨?_, ?_, h.short⟩
  · rw [hparser]
    exact h.idle
  · rw [hrx]
    exact h.rx

/-- The read loop stops where the parser delivers. -/
theorem readBytes_delivered {link : Link} (now : Millis) {front : List Byte} {count : ℕ} {g : Frame}
    (hout : (link.parser.feedAll front).2 = List.replicate count none ++ [some g]) (rest : List Byte) :
    (link.readBytes now (front ++ rest)).1 = some g ∧
      (link.readBytes now (front ++ rest)).2.parser = (link.parser.feedAll front).1 ∧
      (link.readBytes now (front ++ rest)).2.uart.rx = rest := by
  induction front generalizing link count with
  | nil => simp [feedAll] at hout
  | cons byte front ih =>
    rcases hfeed : link.parser.feed byte true with ⟨parser, _ | frame⟩
    · cases count with
      | zero => simp [feedAll, hfeed] at hout
      | succ count =>
        simp only [feedAll, hfeed, List.replicate_succ, List.cons_append, List.cons.injEq,
          true_and] at hout
        simp only [List.cons_append, Link.readBytes, feedAll, hfeed]
        exact ih hout
    · cases count with
      | zero =>
        simp only [feedAll, hfeed, List.replicate_zero, List.nil_append, List.cons.injEq,
          Option.some.injEq] at hout
        obtain ⟨hframe, hnone⟩ := hout
        have hfront : front = [] := by
          cases front with
          | nil => rfl
          | cons _ _ => simp [feedAll] at hnone
        subst hfront hframe
        simp only [List.cons_append, List.nil_append, Link.readBytes, feedAll, hfeed, and_self]
      | succ count => simp [feedAll, hfeed, List.replicate_succ] at hout

/-- A poll takes the first of the frames. -/
theorem poll_holds_cons {link : Link} {f : Frame} {frames : List Frame}
    (h : Holds link (f :: frames)) (now : Millis) :
    ∃ g, content g = content f ∧ (link.poll now).1 = some g ∧ Holds (link.poll now).2 frames := by
  have hshort := List.forall_mem_cons.mp h.short
  obtain ⟨g, hcontent, hidle, hout⟩ := frame_fed kVersion f link.parser h.idle kVersion_ok hshort.1
  rw [← Link.parser_flushTx] at hidle hout
  obtain ⟨hframe, hparser, hrest⟩ := readBytes_delivered now hout (frames.flatMap (wireBytes kVersion))
  rw [← List.flatMap_cons, ← h.rx, ← Link.flushTx_rx link] at hframe hparser hrest
  refine ⟨g, hcontent, ?_⟩
  unfold Link.poll
  rcases hloop : link.flushTx.readBytes now link.flushTx.uart.rx with ⟨_ | frame, after⟩
  · rw [hloop] at hframe
    cases hframe
  · rw [hloop] at hframe hparser hrest
    simp only [hloop]
    refine ⟨hframe, ?_, hrest, hshort.2⟩
    rw [← hparser] at hidle
    exact hidle

/-- Behind the last frame a poll finds nothing. -/
theorem poll_holds_nil {link : Link} (h : Holds link []) (now : Millis) :
    (link.poll now).1 = none ∧ Holds (link.poll now).2 [] := by
  have hrx : link.flushTx.uart.rx = [] := (Link.flushTx_rx link).trans h.rx
  have hquiet : link.flushTx.parser.inProgress = false := by
    rw [Link.parser_flushTx]
    simp [inProgress, h.idle.1]
  have hidle : Idle link.flushTx.parser := by
    rw [Link.parser_flushTx]
    exact h.idle
  simp only [Link.poll, hrx, Link.readBytes, hquiet, Bool.false_and, Bool.false_eq_true, if_false,
    true_and]
  exact ⟨hidle, rfl, h.short⟩

/-- The incoming frames are those held. -/
theorem incoming_holds {link : Link} {frames : List Frame} (h : Holds link frames) :
    (LinkPort.incoming link).map content = frames.map content := by
  induction frames generalizing link with
  | nil =>
    have hrx := h.rx
    change ((link.parser.feedAll link.uart.rx).2.filterMap id).map content = []
    rw [hrx]
    rfl
  | cons f frames ih =>
    obtain ⟨g, hcontent, hframe, hrest⟩ := poll_holds_cons h 0
    have hhead := LawfulLinkPort.poll_frame link 0
    have htail := LawfulLinkPort.poll_incoming link 0
    change (LinkPort.poll link 0).1 = some g at hframe
    rw [hframe] at hhead
    obtain ⟨rest, hsplit⟩ := List.head?_eq_some_iff.mp hhead.symm
    rw [hsplit, List.tail_cons] at htail
    have hlater := ih hrest
    change (LinkPort.incoming (LinkPort.poll link 0).2).map content = _ at hlater
    rw [htail] at hlater
    rw [hsplit, List.map_cons, List.map_cons, hcontent, hlater]

end Culina.WholeFrames
