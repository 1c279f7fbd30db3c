import Culina.Client
import Culina.Runs
import Culina.TransmitQueue
import Culina.Resynchronisation

/-!
Giving up on a request. A timeout drops what is queued, also when the UART has already
taken the front of a frame; the peer then holds a candidate cut at that place, and the
next request gets through exactly when the parser in that state is receptive.
-/
namespace Culina.GivingUp

open Wire Layout Writer SerialLink Ports Client McuClient Fifo Queue TransmitQueue
open Framing Resynchronisation Runs

/-- The link with its history since the last cancelled transmission: the bytes the UART had taken by
then, and the frames sent after it. -/
structure TracedLink where
  link : Link
  before : List Byte := []
  sent : List Frame := []

namespace TracedLink

def send (traced : TracedLink) (type : FrameType) (seq : Byte) (msgId : MsgId) (payload : List Byte) :
    Status × TracedLink :=
  ((traced.link.send type seq msgId payload).1,
    { traced with
      link := (traced.link.send type seq msgId payload).2
      sent :=
        if (traced.link.send type seq msgId payload).1 = .ok then
          traced.sent ++ [Frame.ofBytes type seq msgId payload]
        else traced.sent })

def cancelPendingTx (traced : TracedLink) : TracedLink where
  link := traced.link.cancelPendingTx
  before := traced.link.uart.wire
  sent := []

def poll (traced : TracedLink) (now : Millis) : Option Frame × TracedLink :=
  ((traced.link.poll now).1, { traced with link := (traced.link.poll now).2 })

instance : LinkPort TracedLink where
  send := send
  cancelPendingTx := cancelPendingTx
  poll := poll
  incoming traced := traced.link.incoming

end TracedLink

/-- Wire and queue hold what was taken before and the frames sent since. -/
structure Exact (traced : TracedLink) : Prop where
  bounded : Bounded traced.link
  content : (outflow traced.link).content =
    traced.before ++ (traced.sent.map (wireBytes kVersion)).flatten
  short : ∀ frame ∈ traced.sent, frame.payloadLen ≤ kMaxPayload

theorem exact_send {traced : TracedLink} (h : Exact traced) (type : FrameType) (seq : Byte)
    (msgId : MsgId) (payload : List Byte) : Exact (traced.send type seq msgId payload).2 := by
  have hsent := send_sent h.bounded type seq msgId payload
  obtain ⟨hrefused, haccepted⟩ := hsent.outflow
  refine ⟨hsent.bounded h.bounded, ?_, ?_⟩
  · unfold TracedLink.send
    by_cases hok : (traced.link.send type seq msgId payload).1 = .ok
    · obtain ⟨count, hpushed⟩ := haccepted hok
      rw [if_pos hok, hpushed, content_drain, content_push, h.content, List.map_append,
        List.flatten_append, List.append_assoc]
      simp
    · rw [if_neg hok, hrefused hok, h.content]
  · unfold TracedLink.send
    by_cases hok : (traced.link.send type seq msgId payload).1 = .ok
    · rw [if_pos hok]
      intro frame hframe
      rcases List.mem_append.mp hframe with hold | hnew
      · exact h.short frame hold
      · rw [List.mem_singleton] at hnew
        subst hnew
        generalize (traced.link.send type seq msgId payload).2 = link at hsent
        rw [hok] at hsent
        cases hsent with
        | queued short _ => exact short
    · rw [if_neg hok]
      exact h.short

theorem exact_cancel {traced : TracedLink} : Exact traced.cancelPendingTx := by
  obtain ⟨hcancelled, hbounded⟩ := cancelPendingTx_outflow traced.link
  refine ⟨hbounded, ?_, fun _ h => absurd h List.not_mem_nil⟩
  change (outflow traced.link.cancelPendingTx).content = _
  rw [hcancelled, content_cancel]
  exact (List.append_nil _).symm

theorem exact_poll {traced : TracedLink} (h : Exact traced) (now : Millis) :
    Exact (traced.poll now).2 := by
  obtain ⟨⟨count, hdrained⟩, hbounded⟩ := poll_outflow traced.link now
  refine ⟨hbounded h.bounded, ?_, h.short⟩
  change (outflow (traced.link.poll now).2).content = _
  rw [hdrained, content_drain]
  exact h.content

/-! Runs of the client. -/

/-- What the owner of the client does; `receive` are bytes that the peer's writes leave to be read. -/
inductive ClientEvent where
  | request (now : Millis) (id : MsgId) (payload : List Byte)
  | poll (now : Millis)
  | takeResponse
  | clearCommandStatus
  | clearFault
  | receive (bytes : List Byte)

def apply (c : McuClient TracedLink) : ClientEvent → McuClient TracedLink
  | .request now id payload => (c.request now id payload).2
  | .poll now => c.poll now
  | .takeResponse => c.takeResponse.2
  | .clearCommandStatus => c.clearCommandStatus
  | .clearFault => c.clearFault
  | .receive bytes =>
      { c with
        link := { c.link with link := { c.link.link with uart := c.link.link.uart.receive bytes } } }

/-- The client as constructed, on a UART that takes what it likes. -/
def Constructed (c : McuClient TracedLink) : Prop :=
  ∃ accept, c = { link := { link := fresh accept } }

/-- The clients that some run reaches. -/
def ClientReachable : McuClient TracedLink → Prop :=
  Reachable Constructed (Guarded (fun _ _ => True) apply)

theorem exact_apply {c : McuClient TracedLink} (h : Exact c.link) (event : ClientEvent) :
    Exact (apply c event).link := by
  cases event with
  | request now id payload =>
    exact request_link Exact (fun _ type seq msgId payload h => exact_send h type seq msgId payload) h
      now id payload
  | poll now =>
    exact poll_link Exact (fun _ type seq msgId payload h => exact_send h type seq msgId payload)
      (fun _ _ => exact_cancel) (fun _ now h => exact_poll h now) h now
  | takeResponse =>
    rw [apply, takeResponse_snd]
    exact h
  | clearCommandStatus => exact h
  | clearFault => exact h
  | receive bytes => exact ⟨⟨h.bounded.offset, h.bounded.size⟩, h.content, h.short⟩

theorem exact_reachable {c : McuClient TracedLink} (h : ClientReachable c) : Exact c.link := by
  refine h.keeps (fun c => Exact c.link) ?_ ?_
  · rintro _ ⟨accept, rfl⟩
    exact ⟨⟨le_rfl, Nat.zero_le _⟩, rfl, fun _ h => absurd h List.not_mem_nil⟩
  · rintro c event _ hc ⟨-, rfl⟩
    exact exact_apply hc event

/-- The first frame sent since the last cancelled transmission, taken by the UART to its end. -/
def Completed (traced : TracedLink) (f : Frame) : Prop :=
  traced.sent.head? = some f ∧
    traced.before.length + (wireBytes kVersion f).length ≤ traced.link.uart.wire.length

/-- What the peer's parser has seen when that frame begins. -/
def peer (traced : TracedLink) : FrameParser :=
  heard (traced.link.uart.wire.take traced.before.length)

/-- The bytes that follow on the wire deliver the frame. -/
def Decoded (traced : TracedLink) (f : Frame) : Prop :=
  Delivers (peer traced)
    ((traced.link.uart.wire.drop traced.before.length).take (wireBytes kVersion f).length) f

/-- The frame that the UART completes follows what it had taken before. -/
theorem Exact.wire {traced : TracedLink} (h : Exact traced) {f : Frame} (hcompleted : Completed traced f) :
    ∃ rest, traced.link.uart.wire = traced.before ++ (wireBytes kVersion f ++ rest) := by
  obtain ⟨hfirst, hlength⟩ := hcompleted
  obtain ⟨others, hsent⟩ := List.head?_eq_some_iff.mp hfirst
  have hcontent := h.content
  rw [hsent, List.map_cons, List.flatten_cons, ← List.append_assoc] at hcontent
  have hprefix : traced.before ++ wireBytes kVersion f <+: traced.link.uart.wire := by
    have htaken : traced.link.uart.wire <+: (outflow traced.link).content :=
      taken_prefix (outflow traced.link)
    rw [hcontent] at htaken
    refine List.prefix_of_prefix_length_le (List.prefix_append _ _) htaken ?_
    rw [List.length_append]
    exact hlength
  obtain ⟨rest, hrest⟩ := hprefix
  exact ⟨rest, by rw [← hrest, List.append_assoc]⟩

/-- After a timeout the next frame that the UART completes is decoded exactly when the parser of the
peer is receptive. -/
theorem next_request_decoded_iff {c : McuClient TracedLink} (h : ClientReachable c) {f : Frame}
    (hcompleted : Completed c.link f) : Decoded c.link f ↔ Receptive (peer c.link) := by
  have hexact := exact_reachable h
  obtain ⟨rest, hwire⟩ := hexact.wire hcompleted
  have hshort := hexact.short f (List.mem_of_mem_head? hcompleted.1)
  rw [Decoded, hwire, List.drop_left, List.take_left, ← restarts_iff]
  exact delivers_iff (heard_tracked _) hshort

/-! A stalled UART. -/

/-- The first write takes four bytes; nothing more goes out before the fourth. -/
def stalling (writes len : ℕ) : ℕ := if writes = 0 then 4 else if writes < 3 then 0 else len

/-- A version request times out after its retry; the next request is a MotorStop. -/
def stalledRun : List ClientEvent :=
  [.request 0 MsgId.getVersion [], .poll 51, .poll 102, .request 103 MsgId.motorStop []]

def started : McuClient TracedLink := { link := { link := fresh stalling } }

def stalled : McuClient TracedLink := stalledRun.foldl apply started

theorem stalled_reachable : ClientReachable stalled :=
  (Reachable.init ⟨stalling, rfl⟩).foldl stalledRun fun _ _ _ => trivial

def stopFrame : Frame := Frame.ofBytes .request 2 MsgId.motorStop []

theorem stalled_completed : Completed stalled.link stopFrame := by
  constructor
  · rfl
  · decide +kernel

theorem next_request_decoded_iff_stalled :
    Decoded stalled.link stopFrame ↔ Receptive (peer stalled.link) :=
  next_request_decoded_iff stalled_reachable stalled_completed

/-- The MotorStop goes out whole, and the peer takes it for the rest of the cut frame. -/
theorem next_request_lost :
    ClientReachable stalled ∧ ((stalledRun.take 3).foldl apply started).lastCommandStatus = .timeout ∧
      Completed stalled.link stopFrame ∧ ¬ Decoded stalled.link stopFrame := by
  refine ⟨stalled_reachable, by decide +kernel, stalled_completed, ?_⟩
  have hbytes : (stalled.link.link.uart.wire.drop stalled.link.before.length).take
      (wireBytes kVersion stopFrame).length = wireBytes kVersion stopFrame := by decide +kernel
  rw [Decoded, hbytes, peer, delivers_iff (heard_tracked _) (by decide)]
  decide +kernel

end Culina.GivingUp
