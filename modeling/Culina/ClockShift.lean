import Culina.Safety
import Culina.SerialLink
import Mathlib.Algebra.Group.Action.Prod

/-!
Moving the clock. The offset acts on a state by moving its timestamps, and on nothing else; a
step taken with the clock moved does to the moved state what it did to the state. All time
is read as a difference of two timestamps, which a common offset cancels.
-/
namespace Culina.ClockShift

open Wire Writer Drives Ports Commands Safety SafetyMcu SerialLink

/-- A common offset cancels. -/
theorem sub_offset (offset later earlier : Millis) :
    offset + later - (offset + earlier) = later - earlier := add_sub_add_left_eq_sub later earlier offset

/-- A link whose operations move with its timestamps. -/
class ClockedPort (K : Type) [LinkPort K] [VAdd Millis K] : Prop where
  send_vadd : ∀ (offset : Millis) (link : K) (type : FrameType) (seq : Byte) (msgId : MsgId)
    (payload : List Byte), LinkPort.send (offset +ᵥ link) type seq msgId payload =
      ((LinkPort.send link type seq msgId payload).1,
        offset +ᵥ (LinkPort.send link type seq msgId payload).2)
  cancel_vadd : ∀ (offset : Millis) (link : K),
    LinkPort.cancelPendingTx (offset +ᵥ link) = offset +ᵥ LinkPort.cancelPendingTx link
  poll_vadd : ∀ (offset : Millis) (link : K) (now : Millis),
    LinkPort.poll (offset +ᵥ link) (offset + now) =
      ((LinkPort.poll link now).1, offset +ᵥ (LinkPort.poll link now).2)
  incoming_vadd : ∀ (offset : Millis) (link : K),
    LinkPort.incoming (offset +ᵥ link) = LinkPort.incoming link

/-! The byte-level link. -/

instance : VAdd Millis Link where
  vadd offset link := { link with frameDeadlineMs := offset + link.frameDeadlineMs }

section Bytes

variable (offset : Millis) (link : Link)

theorem flushTx_vadd : (offset +ᵥ link).flushTx = offset +ᵥ link.flushTx := by
  change Link.flushTx { link with frameDeadlineMs := offset + link.frameDeadlineMs } = _
  unfold Link.flushTx
  dsimp only
  by_cases hdone : link.txOffset ≥ link.txBuffer.length
  · rw [if_pos hdone, if_pos hdone]
    rfl
  · rw [if_neg hdone, if_neg hdone]
    split_ifs <;> rfl

theorem compact_vadd : (offset +ᵥ link).compact = offset +ᵥ link.compact := by
  change Link.compact { link with frameDeadlineMs := offset + link.frameDeadlineMs } = _
  unfold Link.compact
  dsimp only
  by_cases hmoved : link.txOffset > 0
  · rw [if_pos hmoved, if_pos hmoved]
    rfl
  · rw [if_neg hmoved, if_neg hmoved]
    rfl

theorem send_vadd (type : FrameType) (seq : Byte) (msgId : MsgId) (payload : List Byte) :
    (offset +ᵥ link).send type seq msgId payload =
      ((link.send type seq msgId payload).1, offset +ᵥ (link.send type seq msgId payload).2) := by
  have hcompact := compact_vadd offset link
  unfold Link.send
  dsimp only
  rw [hcompact]
  generalize link.compact = compacted
  by_cases hlong : payload.length > kMaxPayload
  · rw [if_pos hlong, if_pos hlong]
  · rw [if_neg hlong, if_neg hlong]
    change (if kHeaderSize + payload.length + kCrcSize > kTxCapacity - compacted.txBuffer.length then _
      else if (writeFrame (kTxCapacity - compacted.txBuffer.length) type seq msgId payload).length = 0
        then _ else _) = _
    split_ifs
    · rfl
    · rfl
    · exact congrArg (Prod.mk Status.ok) (flushTx_vadd offset
        { compacted with
          txBuffer := compacted.txBuffer ++
            writeFrame (kTxCapacity - compacted.txBuffer.length) type seq msgId payload })

theorem readBytes_vadd (now : Millis) (bytes : List Byte) :
    (offset +ᵥ link).readBytes (offset + now) bytes =
      ((link.readBytes now bytes).1, offset +ᵥ (link.readBytes now bytes).2) := by
  induction bytes generalizing link with
  | nil => rfl
  | cons byte rest ih =>
    have hparser : (offset +ᵥ link).parser = link.parser := rfl
    unfold Link.readBytes
    rw [hparser]
    rcases link.parser.feed byte true with ⟨parser, _ | frame⟩
    · dsimp only
      have hdeadline : (if !link.parser.inProgress && parser.inProgress then
            offset + now + kFrameTimeoutMs else (offset +ᵥ link).frameDeadlineMs) =
          offset + (if !link.parser.inProgress && parser.inProgress then now + kFrameTimeoutMs
            else link.frameDeadlineMs) := by
        split
        · exact add_assoc offset now kFrameTimeoutMs
        · rfl
      rw [hdeadline]
      exact ih { link with
        parser
        frameDeadlineMs :=
          if !link.parser.inProgress && parser.inProgress then now + kFrameTimeoutMs
          else link.frameDeadlineMs }
    · rfl

theorem poll_vadd (now : Millis) :
    (offset +ᵥ link).poll (offset + now) =
      ((link.poll now).1, offset +ᵥ (link.poll now).2) := by
  have hflush := flushTx_vadd offset link
  unfold Link.poll
  dsimp only
  rw [hflush]
  generalize link.flushTx = flushed
  have hread := readBytes_vadd offset flushed now flushed.uart.rx
  have hrx : (offset +ᵥ flushed).uart.rx = flushed.uart.rx := rfl
  rw [hrx, hread]
  rcases flushed.readBytes now flushed.uart.rx with ⟨_ | frame, read⟩
  · have hage : offset + now - (offset +ᵥ read).frameDeadlineMs = now - read.frameDeadlineMs :=
      sub_offset offset now read.frameDeadlineMs
    have hbusy : (offset +ᵥ read).parser.inProgress = read.parser.inProgress := rfl
    dsimp only
    rw [hage, hbusy]
    split_ifs <;> rfl
  · rfl

end Bytes

instance : ClockedPort Link where
  send_vadd := send_vadd
  cancel_vadd _ _ := rfl
  poll_vadd := poll_vadd
  incoming_vadd _ _ := rfl

/-! The safety processor. -/

instance : VAdd Millis TelemetryPublisher where
  vadd offset publisher := { publisher with lastPublishMs := offset + publisher.lastPublishMs }

variable {K H : Type} [VAdd Millis K]

instance : VAdd Millis (SafetyMcu K H) where
  vadd offset s :=
    { s with
      link := offset +ᵥ s.link
      telemetry := offset +ᵥ s.telemetry
      lastValidFrameMs := offset + s.lastValidFrameMs }

section Stages

variable (offset : Millis) (s : SafetyMcu K H)

theorem link_vadd : (offset +ᵥ s).link = offset +ᵥ s.link := rfl

theorem telemetry_vadd : (offset +ᵥ s).telemetry = offset +ᵥ s.telemetry := rfl

theorem handler_vadd : (offset +ᵥ s).handler = s.handler := rfl

theorem fault_vadd : (offset +ᵥ s).fault = s.fault := rfl

theorem driven_vadd : (offset +ᵥ s).driven = s.driven := rfl

theorem judge_vadd (now : Millis) : (offset +ᵥ s).judge (offset + now) = offset +ᵥ s.judge now := by
  have hinterlock : (offset +ᵥ s).interlockStage = offset +ᵥ s.interlockStage := by
    change (if s.fault = .none ∧ s.inputs.evaluate ≠ .none then
      (offset +ᵥ s).enterFault s.inputs.evaluate else offset +ᵥ s) = _
    unfold SafetyMcu.interlockStage
    split_ifs <;> rfl
  unfold SafetyMcu.judge
  rw [hinterlock]
  generalize s.interlockStage = checked
  have hage : offset + now - (offset +ᵥ checked).lastValidFrameMs = now - checked.lastValidFrameMs :=
    sub_offset offset now checked.lastValidFrameMs
  unfold SafetyMcu.linkStage
  rw [hage, fault_vadd, driven_vadd]
  split_ifs <;> rfl

theorem driveStage_vadd : (offset +ᵥ s).driveStage = offset +ᵥ s.driveStage := by
  unfold SafetyMcu.driveStage
  rfl

variable [Board H]

theorem sampleInputs_vadd :
    (offset +ᵥ s).sampleInputs = (s.sampleInputs.1, offset +ᵥ s.sampleInputs.2) := by
  unfold SafetyMcu.sampleInputs
  rw [handler_vadd]
  rcases Board.readDeciCelsius s.handler.board with ⟨status | reading, board⟩
  · rfl
  · rfl

theorem sampleStage_vadd : (offset +ᵥ s).sampleStage = offset +ᵥ s.sampleStage := by
  have hsample := sampleInputs_vadd offset { s with tickCount := s.tickCount + 1 }
  have hcounted : ({ offset +ᵥ s with tickCount := (offset +ᵥ s).tickCount + 1 } : SafetyMcu K H) =
      offset +ᵥ { s with tickCount := s.tickCount + 1 } := rfl
  unfold SafetyMcu.sampleStage
  rw [hcounted]
  generalize ({ s with tickCount := s.tickCount + 1 } : SafetyMcu K H) = counted at hsample ⊢
  dsimp only
  rw [hsample]
  dsimp only
  rw [fault_vadd]
  split_ifs <;> rfl

end Stages

section Tick

variable [LinkPort K] [ClockedPort K] [Board H] (offset : Millis)

omit [VAdd Millis K] in
theorem seq_vadd (publisher : TelemetryPublisher) : (offset +ᵥ publisher).seq = publisher.seq := rfl

theorem publishSample_vadd (publisher : TelemetryPublisher) (link : K) (data : TelemetryData)
    (now : Millis) :
    (offset +ᵥ publisher).publishSample (offset +ᵥ link) data (offset + now) =
      offset +ᵥ publisher.publishSample link data now := by
  have hage : offset + now - (offset +ᵥ publisher).lastPublishMs = now - publisher.lastPublishMs :=
    sub_offset offset now publisher.lastPublishMs
  unfold TelemetryPublisher.publishSample
  rw [hage, seq_vadd]
  by_cases hearly : now - publisher.lastPublishMs < kPeriodMs
  · rw [if_pos hearly, if_pos hearly]
    rfl
  · rw [if_neg hearly, if_neg hearly, ClockedPort.send_vadd]
    rcases LinkPort.send link .telemetry publisher.seq MsgId.telemetry (encodeTelemetry data) with
      ⟨status, link'⟩
    dsimp only
    split_ifs <;> rfl

theorem maybePublish_vadd (publisher : TelemetryPublisher) (link : K) (data : TelemetryData)
    (now : Millis) :
    (offset +ᵥ publisher).maybePublish (offset +ᵥ link) data (offset + now) =
      offset +ᵥ publisher.maybePublish link data now := by
  have hpending : (offset +ᵥ publisher).pendingFault = publisher.pendingFault := rfl
  unfold TelemetryPublisher.maybePublish
  rw [hpending, seq_vadd]
  by_cases hfault : publisher.pendingFault ≠ .none
  · rw [if_pos hfault, if_pos hfault, ClockedPort.send_vadd]
    rcases LinkPort.send link .telemetry publisher.seq MsgId.fault [publisher.pendingFault.toByte] with
      ⟨status, link'⟩
    dsimp only
    by_cases hunsent : status ≠ .ok
    · rw [if_pos hunsent, if_pos hunsent]
      rfl
    · rw [if_neg hunsent, if_neg hunsent]
      exact publishSample_vadd offset
        { publisher with seq := publisher.seq + 1, pendingFault := .none } link' data now
  · rw [if_neg hfault, if_neg hfault]
    exact publishSample_vadd offset publisher link data now

theorem handle_vadd (h : CommandHandler H) (link : K) (request : Frame) (state : Inputs)
    (faulted : Bool) :
    h.handle (offset +ᵥ link) request state faulted =
      (offset +ᵥ (h.handle link request state faulted).1, (h.handle link request state faulted).2) := by
  unfold CommandHandler.handle
  rcases h.execute request state faulted with ⟨_ | reply, h'⟩
  · rfl
  · dsimp only
    rw [ClockedPort.send_vadd]

variable (s : SafetyMcu K H)

theorem handleFrame_vadd (frame : Frame) (now : Millis) :
    (offset +ᵥ s).handleFrame frame (offset + now) = offset +ᵥ s.handleFrame frame now := by
  have hhandle := handle_vadd offset s.handler s.link frame s.inputs (decide (s.fault ≠ .none))
  have hfresh : (if frame.type = .request then offset + now else offset + s.lastValidFrameMs) =
      offset + (if frame.type = .request then now else s.lastValidFrameMs) := by
    split <;> rfl
  change ({ offset +ᵥ s with
      link := (s.handler.handle (offset +ᵥ s.link) frame s.inputs (decide (s.fault ≠ .none))).1
      handler := (s.handler.handle (offset +ᵥ s.link) frame s.inputs (decide (s.fault ≠ .none))).2
      lastValidFrameMs := if frame.type = .request then offset + now else offset + s.lastValidFrameMs
      fault := if IsStop frame ∧ s.canClearFault = true then .none else s.fault } : SafetyMcu K H) = _
  rw [hhandle, hfresh]
  rfl

theorem pollFrames_vadd (fuel : ℕ) (now : Millis) :
    (offset +ᵥ s).pollFrames fuel (offset + now) =
      (offset +ᵥ (s.pollFrames fuel now).1, (s.pollFrames fuel now).2) := by
  induction fuel generalizing s with
  | zero => rfl
  | succ fuel ih =>
    have hpoll := ClockedPort.poll_vadd offset s.link now
    unfold SafetyMcu.pollFrames
    rw [link_vadd, hpoll]
    rcases LinkPort.poll s.link now with ⟨_ | frame, link⟩
    · rfl
    · dsimp only
      have hstep : SafetyMcu.handleFrame { offset +ᵥ s with link := offset +ᵥ link } frame (offset + now) =
          offset +ᵥ SafetyMcu.handleFrame { s with link } frame now :=
        handleFrame_vadd offset { s with link } frame now
      rw [hstep, ih]
      rfl

theorem frameStage_vadd (now : Millis) :
    (offset +ᵥ s).frameStage (offset + now) =
      (offset +ᵥ (s.frameStage now).1, (s.frameStage now).2) := by
  have hincoming : LinkPort.incoming (offset +ᵥ s).link = LinkPort.incoming s.link :=
    ClockedPort.incoming_vadd offset s.link
  unfold SafetyMcu.frameStage
  rw [hincoming]
  exact pollFrames_vadd offset s _ now

theorem publishStage_vadd (now : Millis) :
    (offset +ᵥ s).publishStage (offset + now) = offset +ᵥ s.publishStage now := by
  have hpublish (data : TelemetryData) := maybePublish_vadd offset s.telemetry s.link data now
  unfold SafetyMcu.publishStage
  dsimp only
  rw [telemetry_vadd, link_vadd, hpublish]
  rfl

/-- A tick of the safety processor. -/
theorem tick1ms_vadd (now : Millis) :
    (offset +ᵥ s).tick1ms (offset + now) = offset +ᵥ s.tick1ms now := by
  unfold SafetyMcu.tick1ms SafetyMcu.finishTick
  rw [sampleStage_vadd, frameStage_vadd, judge_vadd, driveStage_vadd, publishStage_vadd]

theorem exchanges_vadd (now : Millis) :
    (offset +ᵥ s).exchanges (offset + now) = s.exchanges now := by
  unfold SafetyMcu.exchanges
  rw [sampleStage_vadd, frameStage_vadd]

end Tick

end Culina.ClockShift
