import Culina.Writer
import Culina.Ports

/-!
The byte-level link: a transmit buffer drained into a UART that may accept any
part of what it is offered, and a parser fed from the received bytes. The polls
of a link return exactly the frames its parser finds in those bytes, whatever is
sent in between.
-/
namespace Culina.SerialLink

open Wire Framing Writer Ports

/-- `accept n len` is what the `n`-th write call reports for `len` offered bytes;
`wire` are the bytes taken so far and `rx` the bytes waiting to be read. -/
structure Uart where
  accept : ℕ → ℕ → ℕ
  writes : ℕ := 0
  wire : List Byte := []
  rx : List Byte := []

namespace Uart

def write (uart : Uart) (data : List Byte) : ℕ × Uart :=
  let written := uart.accept uart.writes data.length
  (written, { uart with writes := uart.writes + 1, wire := uart.wire ++ data.take written })

def receive (uart : Uart) (bytes : List Byte) : Uart := { uart with rx := uart.rx ++ bytes }

end Uart

def kFrameTimeoutMs : Millis := 50
def kTxCapacity : ℕ := kMaxFrameSize * 4

/-- `txBuffer` holds the first `tx_size_` bytes of the array. -/
structure Link where
  uart : Uart
  parser : FrameParser := {}
  frameDeadlineMs : Millis := 0
  txBuffer : List Byte := []
  txOffset : ℕ := 0

namespace Link

def flushTx (link : Link) : Link :=
  if link.txOffset ≥ link.txBuffer.length then link
  else
    let remaining := link.txBuffer.length - link.txOffset
    let (written, uart) := link.uart.write (link.txBuffer.drop link.txOffset)
    let txOffset := link.txOffset + if written > remaining then remaining else written
    if txOffset = link.txBuffer.length then { link with uart, txBuffer := [], txOffset := 0 }
    else { link with uart, txOffset }

/-- Move the queued bytes to the front of the buffer. -/
def compact (link : Link) : Link :=
  if link.txOffset > 0 then
    { link with txBuffer := link.txBuffer.drop link.txOffset, txOffset := 0 }
  else link

def send (link : Link) (type : FrameType) (seq : Byte) (msgId : MsgId) (payload : List Byte) :
    Status × Link :=
  if payload.length > kMaxPayload then (.invalidArgument, link)
  else
    let link := link.compact
    let frameSize := kHeaderSize + payload.length + kCrcSize
    if frameSize > kTxCapacity - link.txBuffer.length then (.notReady, link)
    else
      let written := writeFrame (kTxCapacity - link.txBuffer.length) type seq msgId payload
      if written.length = 0 then (.invalidArgument, link)
      else (.ok, flushTx { link with txBuffer := link.txBuffer ++ written })

def cancelPendingTx (link : Link) : Link := { link with txOffset := 0, txBuffer := [] }

/-- The read loop of `poll` over the received bytes. -/
def readBytes (link : Link) (now : Millis) : List Byte → Option Frame × Link
  | [] => (none, { link with uart := { link.uart with rx := [] } })
  | byte :: rest =>
      let wasIdle := !link.parser.inProgress
      match link.parser.feed byte true with
      | (parser, some frame) =>
          (some frame, { link with parser, uart := { link.uart with rx := rest } })
      | (parser, none) =>
          let frameDeadlineMs :=
            if wasIdle && parser.inProgress then now + kFrameTimeoutMs else link.frameDeadlineMs
          readBytes { link with parser, frameDeadlineMs } now rest

def poll (link : Link) (now : Millis) : Option Frame × Link :=
  let link := link.flushTx
  match link.readBytes now link.uart.rx with
  | (some frame, link) => (some frame, link)
  | (none, link) =>
      -- The signed difference survives the 32-bit wrap.
      if link.parser.inProgress && decide (0 < (now - link.frameDeadlineMs).toInt) then
        (none, { link with parser := link.parser.reset })
      else (none, link)

def receiving (link : Link) : Bool := link.parser.inProgress

/-- The frames the parser finds in the bytes still to be read. -/
def incoming (link : Link) : List Frame :=
  (link.parser.feedAll link.uart.rx).2.filterMap id

instance : LinkPort Link where
  send := send
  cancelPendingTx := cancelPendingTx
  poll := poll
  incoming := incoming

/-! Sending and flushing leave the receive side alone. -/

theorem parser_flushTx (link : Link) : link.flushTx.parser = link.parser := by
  unfold flushTx
  split
  · rfl
  · dsimp only
    split_ifs <;> rfl

theorem flushTx_frameDeadlineMs (link : Link) : link.flushTx.frameDeadlineMs = link.frameDeadlineMs := by
  unfold flushTx
  split
  · rfl
  · dsimp only
    split_ifs <;> rfl

theorem flushTx_rx (link : Link) : link.flushTx.uart.rx = link.uart.rx := by
  unfold flushTx
  split
  · rfl
  · dsimp only
    split_ifs <;> rfl

theorem flushTx_incoming (link : Link) : link.flushTx.incoming = link.incoming := by
  simp only [incoming, parser_flushTx, flushTx_rx]

theorem compact_receiving (link : Link) :
    link.compact.parser = link.parser ∧ link.compact.uart.rx = link.uart.rx := by
  unfold compact
  split
  · exact ⟨rfl, rfl⟩
  · exact ⟨rfl, rfl⟩

theorem send_receiving (link : Link) (type : FrameType) (seq : Byte) (msgId : MsgId)
    (payload : List Byte) :
    (link.send type seq msgId payload).2.parser = link.parser ∧
      (link.send type seq msgId payload).2.uart.rx = link.uart.rx := by
  have hcompact := compact_receiving link
  unfold send
  split
  · exact ⟨rfl, rfl⟩
  · dsimp only
    split
    · exact hcompact
    · split
      · exact hcompact
      · rw [parser_flushTx, flushTx_rx]
        exact hcompact

theorem send_incoming (link : Link) (type : FrameType) (seq : Byte) (msgId : MsgId)
    (payload : List Byte) : (link.send type seq msgId payload).2.incoming = link.incoming := by
  obtain ⟨hparser, hrx⟩ := send_receiving link type seq msgId payload
  rw [incoming, incoming, hparser, hrx]

theorem cancelPendingTx_incoming (link : Link) : link.cancelPendingTx.incoming = link.incoming := rfl

/-! Polling. -/

/-- The read loop moves the parser, its deadline and the bytes to be read, and nothing else. -/
theorem readBytes_eq (link : Link) (now : Millis) (bytes : List Byte) :
    ∃ parser frameDeadlineMs rx, (link.readBytes now bytes).2 =
      { link with parser, frameDeadlineMs, uart := { link.uart with rx } } := by
  induction bytes generalizing link with
  | nil => exact ⟨link.parser, link.frameDeadlineMs, [], rfl⟩
  | cons byte rest ih =>
    rcases hfeed : link.parser.feed byte true with ⟨parser, _ | frame⟩
    · simp only [readBytes, hfeed]
      exact ih _
    · simp only [readBytes, hfeed]
      exact ⟨parser, link.frameDeadlineMs, rest, rfl⟩

/-- Behind its flush a poll moves nothing else either. -/
theorem poll_eq (link : Link) (now : Millis) :
    ∃ parser frameDeadlineMs rx, (link.poll now).2 =
      { link.flushTx with parser, frameDeadlineMs, uart := { link.flushTx.uart with rx } } := by
  obtain ⟨parser, frameDeadlineMs, rx, hread⟩ := readBytes_eq link.flushTx now link.flushTx.uart.rx
  unfold poll
  rcases hloop : link.flushTx.readBytes now link.flushTx.uart.rx with ⟨_ | frame, after⟩
  · rw [hloop] at hread
    simp only [hloop]
    subst hread
    split
    · exact ⟨parser.reset, frameDeadlineMs, rx, rfl⟩
    · exact ⟨parser, frameDeadlineMs, rx, rfl⟩
  · rw [hloop] at hread
    simp only [hloop]
    exact ⟨parser, frameDeadlineMs, rx, hread⟩

/-- The read loop stops at the first frame and leaves the bytes behind it. -/
theorem readBytes_incoming (link : Link) (now : Millis) (bytes : List Byte) :
    (link.readBytes now bytes).1 = ((link.parser.feedAll bytes).2.filterMap id).head? ∧
      (link.readBytes now bytes).2.incoming =
        ((link.parser.feedAll bytes).2.filterMap id).tail := by
  induction bytes generalizing link with
  | nil => exact ⟨rfl, rfl⟩
  | cons byte rest ih =>
    rcases hfeed : link.parser.feed byte true with ⟨parser, _ | frame⟩
    · simpa [readBytes, FrameParser.feedAll, hfeed] using ih _
    · simp [readBytes, FrameParser.feedAll, hfeed, incoming]

theorem readBytes_none_rx (link : Link) (now : Millis) (bytes : List Byte)
    (h : (link.readBytes now bytes).1 = none) : (link.readBytes now bytes).2.uart.rx = [] := by
  induction bytes generalizing link with
  | nil => rfl
  | cons byte rest ih =>
    rcases hfeed : link.parser.feed byte true with ⟨parser, _ | frame⟩
    · simp only [readBytes, hfeed] at h ⊢
      exact ih _ h
    · simp [readBytes, hfeed] at h

theorem poll_incoming (link : Link) (now : Millis) :
    (link.poll now).1 = link.incoming.head? ∧ (link.poll now).2.incoming = link.incoming.tail := by
  have hread := readBytes_incoming link.flushTx now link.flushTx.uart.rx
  have hrx := readBytes_none_rx link.flushTx now link.flushTx.uart.rx
  change _ = link.flushTx.incoming.head? ∧ _ = link.flushTx.incoming.tail at hread
  rw [flushTx_incoming] at hread
  unfold poll
  rcases hloop : link.flushTx.readBytes now link.flushTx.uart.rx with ⟨_ | frame, after⟩
  · rw [hloop] at hread hrx
    simp only [hloop]
    split
    · refine ⟨hread.1, ?_⟩
      rw [← hread.2, incoming, incoming, hrx rfl]
      rfl
    · exact hread
  · rw [hloop] at hread
    simpa only [hloop] using hread

instance : LawfulLinkPort Link where
  poll_frame link now := (poll_incoming link now).1
  poll_incoming link now := (poll_incoming link now).2
  send_incoming := send_incoming
  cancel_incoming := cancelPendingTx_incoming

end Link

end Culina.SerialLink
