import Culina.Wire

/-!
What the firmware sees of the world: the link to the other processor and the
sensors of the board. The control code is written against these interfaces, so
one model of it serves the byte-level link and any board. The writes to the
motor and the heater are kept by the drivers that issue them.
-/
namespace Culina.Ports

open Wire

/-- The `Link` a processor holds. `incoming` is the list of frames its next polls
return; it is what bounds the loop `while (link_.poll(&frame))`. -/
class LinkPort (K : Type) where
  send : K → FrameType → Byte → MsgId → List Byte → Status × K
  cancelPendingTx : K → K
  poll : K → Millis → Option Frame × K
  incoming : K → List Frame

/-- A poll takes the next incoming frame; sending and cancelling leave them alone. -/
class LawfulLinkPort (K : Type) [LinkPort K] : Prop where
  poll_frame : ∀ (link : K) (now : Millis),
    (LinkPort.poll link now).1 = (LinkPort.incoming link).head?
  poll_incoming : ∀ (link : K) (now : Millis),
    LinkPort.incoming (LinkPort.poll link now).2 = (LinkPort.incoming link).tail
  send_incoming : ∀ (link : K) (type : FrameType) (seq : Byte) (msgId : MsgId)
    (payload : List Byte),
    LinkPort.incoming (LinkPort.send link type seq msgId payload).2 = LinkPort.incoming link
  cancel_incoming : ∀ link : K, LinkPort.incoming (LinkPort.cancelPendingTx link) = LinkPort.incoming link

/-- A link that keeps what its sends have queued. -/
structure Tap (K : Type) where
  link : K
  queued : List (FrameType × MsgId × List Byte) := []

def Tap.send {K : Type} [LinkPort K] (tap : Tap K) (type : FrameType) (seq : Byte) (msgId : MsgId)
    (payload : List Byte) : Status × Tap K :=
  let sent := LinkPort.send tap.link type seq msgId payload
  (sent.1,
    { link := sent.2
      queued := if sent.1 = .ok then tap.queued ++ [(type, msgId, payload)] else tap.queued })

instance {K : Type} [LinkPort K] : LinkPort (Tap K) where
  send := Tap.send
  cancelPendingTx tap := { tap with link := LinkPort.cancelPendingTx tap.link }
  poll tap now := ((LinkPort.poll tap.link now).1, { tap with link := (LinkPort.poll tap.link now).2 })
  incoming tap := LinkPort.incoming tap.link

/-- Sending logs what was accepted. -/
theorem Tap.send_queued {K : Type} [LinkPort K] (tap : Tap K) (type : FrameType) (seq : Byte)
    (msgId : MsgId) (payload : List Byte) :
    (LinkPort.send tap type seq msgId payload).2.queued =
      if (LinkPort.send tap type seq msgId payload).1 = .ok then tap.queued ++ [(type, msgId, payload)]
      else tap.queued := rfl

/-- The payloads of the fault frames queued, in order. -/
def Tap.reports {K : Type} (tap : Tap K) : List (List Byte) :=
  (tap.queued.filter fun x => x.1 = .telemetry ∧ x.2.1 = MsgId.fault).map fun x => x.2.2

/-- The sensors and the lid lock; reading the temperature or the scale may change
the device (a seeded noise source does). -/
class Board (H : Type) where
  readDeciCelsius : H → Except Status DeciCelsius × H
  rpm : H → ℕ
  stalled : H → Bool
  isClosed : H → Bool
  isLocked : H → Bool
  setLock : H → Bool → H
  readRaw : H → Except Status ℤ × H

/-- The scale and the lid are separate devices. -/
class LawfulBoard (H : Type) [Board H] : Prop where
  readRaw_isLocked : ∀ board : H, Board.isLocked (Board.readRaw board).2 = Board.isLocked board

end Culina.Ports
