import Culina.Commands
import Culina.Sessions
import Culina.Packets

/-!
The two processors together: the cooking controller with its client on one side, the
command handler on the other, and between them channels that delay and lose frames but
keep their order. Only the controller and its program issue requests. What the handler
has handled is kept, with its place at the latest start of a shutdown.
-/
namespace Culina.Appliance

open Wire Drives Ports Client McuClient Cooking CookingController Packets Runs
open Commands hiding Reply

/-- A packet the handler has handled, and what it answered. -/
structure Handling where
  packet : Packet
  reply : Option Commands.Reply

/-- The command was handled and acknowledged. -/
def Handling.Accepted (entry : Handling) (id : MsgId) : Prop :=
  entry.packet.frame.msgId = id ∧ ∃ payload, entry.reply = some (respond payload)

/-- `handled` is the history of the handler, oldest first; its first `mark` entries precede the
latest begin_shutdown. -/
structure Device (H P : Type) where
  controller : CookingController FrameLink P
  handler : CommandHandler H
  replies : List Reply := []
  handled : List Handling := []
  mark : ℕ := 0

/-- `handle` hands the next packet to the handler, with the inputs sampled and a fault latched or
not; `cap` to `disableHeater` are what else the safety processor does to the handler's devices. -/
inductive Action (H P : Type) where
  | tick (now : Millis)
  | poll (now : Millis) (count : ℕ)
  | start (program : Option P)
  | stop
  | userNext
  | handle (state : Inputs) (faulted : Bool)
  | cap (rpm : ℕ)
  | drive
  | heat (measuredC dtSeconds : ℚ)
  | sense (board : H)
  | stopMotor
  | disableHeater
  | tell (frame : Frame)
  | keepRequests (kept : List Packet)
  | keepReplies (kept : List Reply)

variable {H P : Type} [Board H] [Program FrameLink P]

def outbox (s : Device H P) : List Packet := s.controller.mcu.link.outbox

def setOutbox (c : CookingController FrameLink P) (outbox : List Packet) :
    CookingController FrameLink P :=
  { c with mcu := { c.mcu with link := { c.mcu.link with outbox } } }

/-- The controller with the next replies before its client. -/
def loaded (s : Device H P) (count : ℕ) : CookingController FrameLink P :=
  { s.controller with mcu := load s.controller.mcu ((s.replies.take count).map Reply.frame) }

/-- Nothing but the handler sends what looks like a response; channels keep their order, and the
replies a poll takes in are younger than one turn of the sequence numbers. -/
def Enabled (s : Device H P) : Action H P → Prop
  | .poll now count =>
      ∀ reply ∈ s.replies.take count, reply.Fresh (drawn ((loaded s count).mcu.pollTimers now))
  | .tell frame => frame.type ≠ .response ∧ frame.type ≠ .nack
  | .keepRequests kept => kept.Sublist (outbox s)
  | .keepReplies kept => kept.Sublist s.replies
  | _ => True

/-- The tick runs begin_shutdown: for an alarm, or because the program has finished. -/
def TickBegins (c : CookingController FrameLink P) (now : Millis) : Prop :=
  c.Alarmed ∨ (c.state = .running ∧ (c.tick10ms now).state = .stopping)

instance (c : CookingController FrameLink P) (now : Millis) : Decidable (TickBegins c now) :=
  inferInstanceAs (Decidable (_ ∨ _))

/-- The reply to a handled packet on its way back. -/
def replyTo (packet : Packet) (reply : Commands.Reply) : Reply :=
  ⟨some packet, Frame.ofBytes reply.type packet.frame.seq packet.frame.msgId reply.payload⟩

def next (s : Device H P) : Action H P → Device H P
  | .tick now =>
      { s with
        controller := s.controller.tick10ms now
        mark := if TickBegins s.controller now then s.handled.length else s.mark }
  | .poll now count =>
      { s with controller := (loaded s count).poll now, replies := s.replies.drop count }
  | .start program =>
      { s with
        controller := (s.controller.startProgram program).2
        mark := if (s.controller.startProgram program).1 = .ok then s.handled.length else s.mark }
  | .stop =>
      { s with
        controller := s.controller.stop
        mark := if s.controller.state ≠ .stopping ∧ s.controller.state ≠ .faulted then
            s.handled.length
          else s.mark }
  | .userNext => { s with controller := s.controller.userNext }
  | .handle state faulted =>
      match outbox s with
      | [] => s
      | packet :: rest =>
          let result := s.handler.execute packet.frame state faulted
          { s with
            controller := setOutbox s.controller rest
            handler := result.2
            replies := s.replies ++ (result.1.map (replyTo packet)).toList
            handled := s.handled ++ [⟨packet, result.1⟩] }
  | .cap rpm => { s with handler := { s.handler with motor := s.handler.motor.enforceCap rpm } }
  | .drive => { s with handler := { s.handler with motor := s.handler.motor.tick1ms } }
  | .heat measuredC dtSeconds =>
      { s with handler := { s.handler with pid := (s.handler.pid.update measuredC dtSeconds).2 } }
  | .sense board => { s with handler := { s.handler with board } }
  | .stopMotor => { s with handler := { s.handler with motor := s.handler.motor.stop } }
  | .disableHeater => { s with handler := { s.handler with pid := s.handler.pid.disable } }
  | .tell frame => { s with replies := s.replies ++ [⟨none, frame⟩] }
  | .keepRequests kept => { s with controller := setOutbox s.controller kept }
  | .keepReplies kept => { s with replies := kept }

/-- Both processors as constructed, over a link with any verdicts and any board. -/
def Initial (s : Device H P) : Prop :=
  ∃ accepts ota board,
    s = { controller := Sessions.initial { accepts } ota, handler := { board } }

/-- The shutdown is complete, and start_program is accepted again. -/
def Complete (c : CookingController FrameLink P) : Prop :=
  c.state = .faulted ∧ c.shutdownMotorDone = true

/-- The controller enters Running or Done, or completes a fault shutdown. -/
def Enters (c c' : CookingController FrameLink P) : Prop :=
  (c.state ≠ .running ∧ c'.state = .running) ∨ (c.state ≠ .done ∧ c'.state = .done) ∨
    (¬ Complete c ∧ Complete c')

/-- Since the begin_shutdown the handler has acknowledged a HeaterOff and then a MotorStop, and
nothing that undoes them came after. -/
structure ShutDown (s : Device H P) : Prop where
  handled : ∃ before off between stop after,
    s.handled = before ++ off :: (between ++ stop :: after) ∧ s.mark ≤ before.length ∧
      off.Accepted MsgId.heaterOff ∧ stop.Accepted MsgId.motorStop ∧
      (∀ entry ∈ between ++ stop :: after, entry.packet.frame.msgId ≠ MsgId.heaterSetTarget) ∧
      ∀ entry ∈ after, entry.packet.frame.msgId ≠ MsgId.motorSetTarget
  heaterIdle : s.handler.pid.enabled = false
  motorIdle : s.handler.motor.targetRpm = 0

end Culina.Appliance
