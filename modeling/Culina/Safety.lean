import Culina.Commands

/-!
The safety processor: its telemetry publisher and the control tick that samples
the board, drains the link, supervises the faults and drives motor and heater.
The clock is read once a tick. `powerW` is the last power written to the heater.
-/
namespace Culina.Safety

open Wire Drives Ports Commands

variable {K H : Type} [LinkPort K] [Board H]

/-! Telemetry. -/

def kPeriodMs : Millis := 10

structure TelemetryPublisher where
  lastPublishMs : Millis := 0
  seq : Byte := 0
  pendingFault : FaultCode := .none
deriving DecidableEq, Repr

namespace TelemetryPublisher

def publishFault (publisher : TelemetryPublisher) (code : FaultCode) : TelemetryPublisher :=
  { publisher with pendingFault := code }

/-- The periodic sample; it is due ten milliseconds after the last one sent. -/
def publishSample (publisher : TelemetryPublisher) (link : K) (data : TelemetryData)
    (now : Millis) : TelemetryPublisher × K :=
  if now - publisher.lastPublishMs < kPeriodMs then (publisher, link)
  else
    let (status, link) := LinkPort.send link .telemetry publisher.seq MsgId.telemetry
      (encodeTelemetry data)
    if status = .ok then
      ({ publisher with seq := publisher.seq + 1, lastPublishMs := now }, link)
    else (publisher, link)

def maybePublish (publisher : TelemetryPublisher) (link : K) (data : TelemetryData)
    (now : Millis) : TelemetryPublisher × K :=
  if publisher.pendingFault ≠ .none then
    let (status, link) := LinkPort.send link .telemetry publisher.seq MsgId.fault
      [publisher.pendingFault.toByte]
    if status ≠ .ok then (publisher, link)
    else
      publishSample { publisher with seq := publisher.seq + 1, pendingFault := .none } link data now
  else publisher.publishSample link data now

end TelemetryPublisher

/-! The control tick. -/

structure SafetyMcu (K H : Type) where
  handler : CommandHandler H
  link : K
  telemetry : TelemetryPublisher := {}
  inputs : Inputs := {}
  fault : FaultCode := .none
  tickCount : BitVec 32 := 0
  lastValidFrameMs : Millis
  tempSensorOk : Bool := true
  powerW : ℚ := 0

/-- One handled frame: what was asked, what was answered, and the fault latch
before and after. -/
structure Exchange where
  frame : Frame
  reply : Option Reply
  faultBefore : FaultCode
  faultAfter : FaultCode

/-- A well-formed stop request; it alone may clear a fault. -/
def IsStop (frame : Frame) : Prop :=
  frame.type = .request ∧ frame.msgId = MsgId.motorStop ∧ frame.payloadLen = 0

instance (frame : Frame) : Decidable (IsStop frame) := inferInstanceAs (Decidable (_ ∧ _))

namespace SafetyMcu

def boot (link : K) (board : H) (now : Millis) : SafetyMcu K H where
  handler := { board }
  link := link
  lastValidFrameMs := now

/-- The result says whether the temperature could be read; if not, the other
inputs keep their old values too. -/
def sampleInputs (s : SafetyMcu K H) : Bool × SafetyMcu K H :=
  match Board.readDeciCelsius s.handler.board with
  | (.error _, board) =>
      (false, { s with handler := { s.handler with board }, tempSensorOk := false })
  | (.ok reading, board) =>
      (true, { s with
        handler := { s.handler with board }
        tempSensorOk := true
        inputs :=
          { tempC := toCelsius reading
            rpm := Board.rpm board
            lidClosed := Board.isClosed board
            lidLocked := Board.isLocked board
            motorStalled := Board.stalled board } })

def enterFault (s : SafetyMcu K H) (code : FaultCode) : SafetyMcu K H :=
  { s with
    fault := code
    handler := { s.handler with motor := s.handler.motor.stop, pid := s.handler.pid.disable }
    powerW := 0
    telemetry := s.telemetry.publishFault code }

def canClearFault (s : SafetyMcu K H) : Bool :=
  match s.fault with
  | .none | .linkLost | .motorStall => true
  | .sensorFailure => s.tempSensorOk
  | .overtemp => decide (s.inputs.tempC < kOvertempCutoffC)

def sampleStage (s : SafetyMcu K H) : SafetyMcu K H :=
  let s := { s with tickCount := s.tickCount + 1 }
  let (sampled, s) := s.sampleInputs
  if !sampled && decide (s.fault ≠ .sensorFailure) then s.enterFault .sensorFailure else s

/-- The body of the frame loop: a request refreshes the link time, and a stop
request clears the latch once its cause is gone. -/
def handleFrame (s : SafetyMcu K H) (frame : Frame) (now : Millis) : SafetyMcu K H :=
  let (link, handler) := s.handler.handle s.link frame s.inputs (decide (s.fault ≠ .none))
  { s with
    link
    handler
    lastValidFrameMs := if frame.type = .request then now else s.lastValidFrameMs
    fault := if IsStop frame ∧ s.canClearFault = true then .none else s.fault }

def exchange (s : SafetyMcu K H) (frame : Frame) (now : Millis) : Exchange where
  frame := frame
  reply := (s.handler.execute frame s.inputs (decide (s.fault ≠ .none))).1
  faultBefore := s.fault
  faultAfter := (s.handleFrame frame now).fault

/-- The frame loop, with what it handled. -/
def pollFrames : ℕ → SafetyMcu K H → Millis → SafetyMcu K H × List Exchange
  | 0, s, _ => (s, [])
  | fuel + 1, s, now =>
      match LinkPort.poll s.link now with
      | (none, link) => ({ s with link }, [])
      | (some frame, link) =>
          let s := { s with link }
          let later := pollFrames fuel (s.handleFrame frame now) now
          (later.1, s.exchange frame now :: later.2)

/-- Every poll that returns a frame takes one of the incoming frames. -/
def frameStage (s : SafetyMcu K H) (now : Millis) : SafetyMcu K H × List Exchange :=
  pollFrames ((LinkPort.incoming s.link).length + 1) s now

def interlockStage (s : SafetyMcu K H) : SafetyMcu K H :=
  if s.fault = .none ∧ s.inputs.evaluate ≠ .none then s.enterFault s.inputs.evaluate else s

def driven (s : SafetyMcu K H) : Bool := s.handler.motor.active || s.handler.pid.enabled

def linkStage (s : SafetyMcu K H) (now : Millis) : SafetyMcu K H :=
  if s.fault = .none ∧ s.driven = true ∧ now - s.lastValidFrameMs ≥ kLinkTimeoutMs then
    s.enterFault .linkLost
  else s

/-- Interlocks and link timeout either pass or latch a fault. -/
def judge (s : SafetyMcu K H) (now : Millis) : SafetyMcu K H := (s.interlockStage).linkStage now

/-- The heater pauses while the lid is open. -/
def driveStage (s : SafetyMcu K H) : SafetyMcu K H :=
  let motor := s.handler.motor.enforceCap s.inputs.continuousCap
  let heat := decide (s.fault = .none) && s.handler.pid.enabled && s.inputs.lidClosed
  let (watts, pid) :=
    if heat then s.handler.pid.update s.inputs.tempC (1 / 1000) else (0, s.handler.pid)
  { s with handler := { s.handler with motor := motor.tick1ms, pid }, powerW := watts }

def flags (s : SafetyMcu K H) : Byte :=
  (if s.inputs.lidClosed then kFlagLidClosed else 0) |||
    (if s.inputs.lidLocked then kFlagLidLocked else 0) |||
    (if s.powerW > 0 then kFlagHeaterOn else 0) |||
    (if s.inputs.motorStalled then kFlagMotorStalled else 0)

def publishStage (s : SafetyMcu K H) (now : Millis) : SafetyMcu K H :=
  let (grams, handler) := s.handler.currentGrams
  let data : TelemetryData :=
    { tick := s.tickCount
      deciCelsius := fromCelsius s.inputs.tempC
      rpm := s.inputs.rpm
      grams := grams
      flags := s.flags }
  let (telemetry, link) := s.telemetry.maybePublish s.link data now
  { s with handler, telemetry, link }

/-- What follows the frame loop. -/
def finishTick (s : SafetyMcu K H) (now : Millis) : SafetyMcu K H :=
  ((s.judge now).driveStage).publishStage now

def tick1ms (s : SafetyMcu K H) (now : Millis) : SafetyMcu K H :=
  (s.sampleStage.frameStage now).1.finishTick now

/-- The frames handled in a tick, with their replies. -/
def exchanges (s : SafetyMcu K H) (now : Millis) : List Exchange := (s.sampleStage.frameStage now).2

/-! The frame loop. -/

section FrameLoop

variable (s : SafetyMcu K H) (frame : Frame) (now : Millis)

/-- What a frame does to the handler. -/
theorem handleFrame_executed :
    CommandHandler.Executed s.handler frame s.inputs (decide (s.fault ≠ .none))
      (s.exchange frame now).reply (s.handleFrame frame now).handler := by
  have h := CommandHandler.execute_executed s.handler frame s.inputs (decide (s.fault ≠ .none))
  rwa [← CommandHandler.handle_handler s.handler s.link] at h

theorem handleFrame_fault : (s.handleFrame frame now).fault =
    if IsStop frame ∧ s.canClearFault = true then .none else s.fault := rfl

theorem handleFrame_lastValidFrameMs : (s.handleFrame frame now).lastValidFrameMs =
    if frame.type = .request then now else s.lastValidFrameMs := rfl

/-- The loop keeps what every poll and every frame keeps, with the exchanges it logs. -/
theorem pollFrames_polls (inv : SafetyMcu K H → List Exchange → Prop) (fuel : ℕ)
    (hpoll : ∀ s log, inv s log → inv { s with link := (LinkPort.poll s.link now).2 } log)
    (hframe : ∀ s frame log, inv s log →
      inv (s.handleFrame frame now) (log ++ [s.exchange frame now]))
    (log : List Exchange) (hstart : inv s log) :
    inv (s.pollFrames fuel now).1 (log ++ (s.pollFrames fuel now).2) := by
  induction fuel generalizing s log with
  | zero => simpa only [pollFrames, List.append_nil] using hstart
  | succ fuel ih =>
    have hpolled := hpoll s log hstart
    rcases hnext : LinkPort.poll s.link now with ⟨_ | frame, link⟩
    · rw [hnext] at hpolled
      simpa only [pollFrames, hnext, List.append_nil] using hpolled
    · rw [hnext] at hpolled
      have hlater := ih _ _ (hframe _ frame log hpolled)
      simpa only [pollFrames, hnext, List.append_assoc, List.singleton_append] using hlater

/-- What does not depend on the link is kept by its polls. -/
theorem pollFrames_keeps (inv : SafetyMcu K H → List Exchange → Prop) (fuel : ℕ)
    (hlink : ∀ s link log, inv s log → inv { s with link } log)
    (hframe : ∀ s frame log, inv s log →
      inv (s.handleFrame frame now) (log ++ [s.exchange frame now]))
    (log : List Exchange) (hstart : inv s log) :
    inv (s.pollFrames fuel now).1 (log ++ (s.pollFrames fuel now).2) :=
  pollFrames_polls s now inv fuel (fun t log => hlink t _ log) hframe log hstart

/-- Handling a frame leaves the frames behind it alone. -/
theorem handleFrame_incoming [LawfulLinkPort K] :
    LinkPort.incoming (s.handleFrame frame now).link = LinkPort.incoming s.link :=
  CommandHandler.handle_incoming s.handler s.link frame s.inputs _

/-- With enough fuel the loop handles exactly the incoming frames. -/
theorem pollFrames_frames [LawfulLinkPort K] (fuel : ℕ)
    (hfuel : (LinkPort.incoming s.link).length < fuel) :
    (s.pollFrames fuel now).2.map Exchange.frame = LinkPort.incoming s.link := by
  induction fuel generalizing s with
  | zero => omega
  | succ fuel ih =>
    have hframe := LawfulLinkPort.poll_frame s.link now
    have hrest := LawfulLinkPort.poll_incoming s.link now
    rcases hpoll : LinkPort.poll s.link now with ⟨_ | frame, link⟩
    · rw [hpoll] at hframe
      rw [List.head?_eq_none_iff.mp hframe.symm]
      simp only [pollFrames, hpoll, List.map_nil]
    · rw [hpoll] at hframe hrest
      obtain ⟨rest, hsplit⟩ := List.head?_eq_some_iff.mp hframe.symm
      rw [hsplit, List.tail_cons] at hrest
      rw [hsplit, List.length_cons] at hfuel
      have hkeep := handleFrame_incoming { s with link } frame now
      rw [hrest] at hkeep
      have hlater := ih (({ s with link } : SafetyMcu K H).handleFrame frame now)
        (by rw [hkeep]; omega)
      simp only [pollFrames, hpoll, List.map_cons]
      rw [hlater, hkeep, hsplit]
      rfl

/-- A tick handles exactly the frames that had arrived by its start. -/
theorem exchanges_frames [LawfulLinkPort K] :
    (s.exchanges now).map Exchange.frame = LinkPort.incoming s.sampleStage.link :=
  pollFrames_frames _ now _ (Nat.lt_succ_self _)

end FrameLoop

end SafetyMcu

end Culina.Safety
