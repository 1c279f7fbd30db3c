import Culina.FaultEntries
import Culina.FaultLatch
import Culina.Lid

/-!
The granted speed is the enforced one. The clamp on a request, the check on a burst and the
continuous cap are written apart; on what one tick has sampled they agree, so the cap behind the
frame loop leaves the speed alone that the last response granted.
-/
namespace Culina.GrantedSpeed

open Wire Drives Ports Commands CommandHandler Safety SafetyMcu Supervision Machine SerialLink
open FaultEntries FaultLatch Lid

/-! The rules. -/

/-- The clamp on a request cuts where the continuous cap does. -/
theorem clampSpeedRequest_eq (inputs : Inputs) {rpm : ℕ} (h : rpm ≤ kMaxRpm) :
    inputs.clampSpeedRequest rpm = min rpm inputs.continuousCap := by
  unfold Inputs.clampSpeedRequest Inputs.continuousCap
  simp only [kMaxRpm, kLidOpenMaxRpm, kUnlockedMaxRpm, kSpillGuardMaxRpm, Bool.and_eq_true,
    Bool.not_eq_true', decide_eq_true_eq] at h ⊢
  split_ifs <;> simp_all <;> omega

/-- The lid is not reported locked while open. -/
def Latching (inputs : Inputs) : Prop := inputs.lidLocked = true → inputs.lidClosed = true

/-! The frame loop. -/

/-- A request that was answered by a response and gave the motor a target or stopped it. -/
def MotorCommand (x : Exchange) : Prop :=
  Accepted MsgId.motorSetTarget x ∨ Accepted MsgId.motorStop x

variable {K H : Type} [LinkPort K] [Board H]

/-- The speed in the response is the target, no fault is latched, and the cap does not bite; where
a burst was admitted, nothing limits the speed. -/
structure Granted (s : SafetyMcu K H) (request : Frame) (payload : List Byte) : Prop where
  payload : payload = putU16 (BitVec.ofNat 16 s.handler.motor.targetRpm)
  unlatched : s.fault = .none
  bounded : Latching s.inputs → s.handler.motor.targetRpm ≤ s.inputs.continuousCap
  burst : Latching s.inputs → request.payload[2] = kRampBurst → s.inputs.continuousCap = kMaxRpm

theorem granted_of_accepted (s : SafetyMcu K H) {frame : Frame} {now : Millis} {payload : List Byte}
    (hset : frame.msgId = MsgId.motorSetTarget)
    (hreply : (s.exchange frame now).reply = some (respond payload)) :
    Granted (s.handleFrame frame now) frame payload := by
  have hexec := handleFrame_executed s frame now
  have hfault : decide (s.fault ≠ .none) = false → (s.handleFrame frame now).fault = .none := by
    intro hrunning
    rw [handleFrame_fault]
    split
    · rfl
    · simpa using hrunning
  have hbounded (rpm : ℕ) : min rpm kMaxRpm ≤ kMaxRpm := min_le_right _ _
  suffices h : ∃ target, payload = putU16 (BitVec.ofNat 16 target) ∧ decide (s.fault ≠ .none) = false ∧
      (s.handleFrame frame now).handler.motor.targetRpm = target ∧
      (Latching s.inputs → target ≤ s.inputs.continuousCap) ∧
      (Latching s.inputs → frame.payload[2] = kRampBurst → s.inputs.continuousCap = kMaxRpm) by
    obtain ⟨target, hpayload, hrunning, rfl, hcap, hburst⟩ := h
    exact ⟨hpayload, hfault hrunning, hcap, hburst⟩
  generalize (s.handleFrame frame now).handler = handler at hexec
  generalize (s.exchange frame now).reply = reply at hexec hreply
  subst hreply
  generalize hanswer : some (respond payload) = reply at hexec
  cases hexec with
  | motorRamped rpm _ _ running _ ramp bounded =>
    have hrpm : rpm ≤ kMaxRpm := bounded ▸ hbounded _
    have hclamp := clampSpeedRequest_eq s.inputs hrpm
    obtain rfl : payload = _ := by simpa [respond] using hanswer
    refine ⟨_, rfl, running, ?_, fun _ => hclamp ▸ min_le_right _ _, fun _ hburst => ?_⟩
    · exact if_neg (not_lt.mpr ((Inputs.clampSpeedRequest_le rpm s.inputs).trans hrpm))
    · rw [hburst] at ramp
      exact absurd ramp (by decide)
  | motorBurst rpm _ _ running _ ramp locked cool bounded =>
    have hrpm : rpm ≤ kMaxRpm := bounded ▸ hbounded _
    obtain rfl : payload = _ := by simpa [respond] using hanswer
    have hfree : Latching s.inputs → s.inputs.continuousCap = kMaxRpm := fun hlatching =>
      Inputs.continuousCap_free (hlatching locked) locked cool
    refine ⟨_, rfl, running, if_neg (not_lt.mpr hrpm), fun hlatching => ?_, fun h _ => hfree h⟩
    rwa [hfree hlatching]
  | ignored => cases hanswer
  | refused | tareRefused => cases hanswer
  | answered _ _ msgId =>
    rw [hset] at msgId
    exact absurd msgId (by decide)
  | motorStopped _ msgId | heaterSet _ _ msgId | heaterOff _ msgId | tared _ _ msgId
  | weighed _ _ msgId | lidLocked _ msgId | lidUnlocked _ msgId =>
    exact absurd (hset.symm.trans msgId) (by decide)

/-- What no motor command follows stays granted. -/
theorem Granted.kept {s : SafetyMcu K H} {request frame : Frame} {payload : List Byte} {now : Millis}
    (h : Granted s request payload) (hother : ¬ MotorCommand (s.exchange frame now)) :
    Granted (s.handleFrame frame now) request payload := by
  have hmotor : (s.handleFrame frame now).handler.motor = s.handler.motor := by
    rcases motor_of_executed (handleFrame_executed s frame now) with
      ⟨hkept, -⟩ | ⟨htype, hset, -, hreply⟩ | ⟨htype, hstop, hreply, -⟩
    · exact hkept
    · exact absurd (Or.inl ⟨htype, hset, hreply⟩) hother
    · exact absurd (Or.inr ⟨htype, hstop, hreply⟩) hother
  have hfault : (s.handleFrame frame now).fault = .none := by
    rw [handleFrame_fault, h.unlatched, ite_self]
  have hinputs : (s.handleFrame frame now).inputs = s.inputs := rfl
  refine ⟨?_, hfault, ?_, h.burst⟩
  · rw [hmotor]
    exact h.payload
  · rw [hmotor, hinputs]
    exact h.bounded

/-- The last motor command of the log is granted. -/
def LastGranted (s : SafetyMcu K H) (log : List Exchange) : Prop :=
  ∀ front x back payload, log = front ++ x :: back → x.frame.msgId = MsgId.motorSetTarget →
    x.reply = some (respond payload) → (∀ y ∈ back, ¬ MotorCommand y) → Granted s x.frame payload

theorem frameStage_lastGranted (s : SafetyMcu K H) (now : Millis) :
    LastGranted (s.frameStage now).1 (s.frameStage now).2 := by
  refine pollFrames_keeps s now LastGranted _ ?_ ?_ [] ?_
  · intro t link log h front x back payload hsplit hset hreply hlast
    have hgranted := h front x back payload hsplit hset hreply hlast
    exact ⟨hgranted.payload, hgranted.unlatched, hgranted.bounded, hgranted.burst⟩
  · intro t frame log h front x back payload hsplit hset hreply hlast
    rcases Runs.split_snoc hsplit with ⟨rfl, -, rfl⟩ | ⟨rest, rfl, hlog⟩
    · exact granted_of_accepted t hset hreply
    · have hgranted := h front x rest payload hlog hset hreply fun y hy =>
        hlast y (List.mem_append_left _ hy)
      exact hgranted.kept (hlast _ (by simp))
  · intro front x back payload hsplit
    simp at hsplit

/-! The whole tick. -/

theorem enforceCap_targetRpm {motor : MotorController} {cap : ℕ} (h : motor.targetRpm ≤ cap) :
    (motor.enforceCap cap).targetRpm = motor.targetRpm := if_neg (not_lt.mpr h)

theorem tick1ms_granted {s : SafetyMcu K H} (hs : Supervised s) {now : Millis}
    (hlid : Board.isLocked (Board.readDeciCelsius s.handler.board).2 = true →
      Board.isClosed (Board.readDeciCelsius s.handler.board).2 = true)
    {front back : List Exchange} {x : Exchange} {payload : List Byte}
    (hsplit : s.exchanges now = front ++ x :: back) (hset : x.frame.msgId = MsgId.motorSetTarget)
    (hreply : x.reply = some (respond payload)) (hlast : ∀ y ∈ back, ¬ MotorCommand y)
    (hentries : entries s now = []) :
    payload = putU16 (BitVec.ofNat 16 (s.tick1ms now).handler.motor.targetRpm) ∧
      (s.tick1ms now).handler.motor.targetRpm ≤ kMaxRpm ∧
      (x.frame.payload[2] = kRampBurst → (looped s now).inputs.continuousCap = kMaxRpm) := by
  have hgranted : Granted (looped s now) x.frame payload :=
    frameStage_lastGranted s.sampleStage now front x back payload hsplit hset hreply hlast
  have hjudge := judge_of_no_entry hentries
  have hfault : (s.tick1ms now).fault = .none := by
    rw [tick1ms_fault, hjudge]
    exact hgranted.unlatched
  obtain ⟨-, -, reading, -, hinputs⟩ := tick1ms_unlatched hs hfault
  have hlatching : Latching (looped s now).inputs := by
    rw [hinputs]
    exact hlid
  have htarget : (s.tick1ms now).handler.motor.targetRpm = (looped s now).handler.motor.targetRpm := by
    rw [tick1ms_motor, hjudge]
    exact enforceCap_targetRpm (hgranted.bounded hlatching)
  rw [htarget]
  exact ⟨hgranted.payload, (looped_from hs now).supervised.motor.target, hgranted.burst hlatching⟩

open Runs

/-- The clamp on a request is the continuous cap, and where the last motor command of a tick without
a fault entry is a granted speed, it is the target behind the cap of that tick; the cap does not bite
where a burst was granted. -/
theorem granted_speed :
    (∀ (inputs : Inputs) (rpm : ℕ), rpm ≤ 10700 →
        inputs.clampSpeedRequest rpm = min rpm inputs.continuousCap) ∧
      ∀ {m : Machine H}, Reachable Booted Ticked m → ∀ (input : TickInput H),
        (Board.isLocked (Board.readDeciCelsius input.board).2 = true →
          Board.isClosed (Board.readDeciCelsius input.board).2 = true) →
        ∀ (front back : List Exchange) (x : Exchange) (payload : List Byte),
          (m.arrive input).exchanges (now (m.clock + input.elapsed)) = front ++ x :: back →
          x.frame.msgId = MsgId.motorSetTarget → x.reply = some (respond payload) →
          (∀ y ∈ back, ¬ MotorCommand y) →
          entries (m.arrive input) (now (m.clock + input.elapsed)) = [] →
          payload = putU16 (BitVec.ofNat 16 (m.advance input).mcu.handler.motor.targetRpm) ∧
            (m.advance input).mcu.handler.motor.targetRpm ≤ 10700 ∧
            (x.frame.payload[2] = kRampBurst →
              (m.advance input).mcu.inputs.continuousCap = 10700) := by
  refine ⟨fun inputs rpm h => clampSpeedRequest_eq inputs h, ?_⟩
  intro m hreach input hlid front back x payload hsplit hset hreply hlast hentries
  have hs := arrive_supervised (supervised_of_reachable hreach) input
  obtain ⟨hpayload, htarget, hburst⟩ :=
    tick1ms_granted hs hlid hsplit hset hreply hlast hentries
  have hmax : kMaxRpm = 10700 := rfl
  rw [hmax] at htarget hburst
  rw [advance_mcu, tick1ms_inputs]
  exact ⟨hpayload, htarget, hburst⟩

/-! A burst to the maximum under a locked lid. -/

def lockedBoard : SimBoard SteadySensors where
  sensors := {}
  lid := { closed := true, locked := true }

def lockedMachine : Machine (SimBoard SteadySensors) :=
  ⟨.boot ⟨⟨fun _ len => len, 0, [], []⟩, {}, 0, [], 0⟩ lockedBoard (now 0), 0, [], none⟩

def burstInput : TickInput (SimBoard SteadySensors) where
  elapsed := 1
  rx := Writer.writeFrame kTxCapacity .request 0 MsgId.motorSetTarget [0xCC, 0x29, kRampBurst]
  board := lockedBoard

theorem granted_speed_burst :
    [0xCC, 0x29] =
        putU16 (BitVec.ofNat 16 (lockedMachine.advance burstInput).mcu.handler.motor.targetRpm) ∧
      (lockedMachine.advance burstInput).mcu.inputs.continuousCap = 10700 := by
  have hlength : ((lockedMachine.arrive burstInput).exchanges
      (now (lockedMachine.clock + burstInput.elapsed))).length = 1 := by decide +kernel
  obtain ⟨x, hx⟩ := List.length_eq_one_iff.mp hlength
  have hhead : ((lockedMachine.arrive burstInput).exchanges
      (now (lockedMachine.clock + burstInput.elapsed))).head? = some x := by rw [hx, List.head?_cons]
  have hgranted : (((lockedMachine.arrive burstInput).exchanges
      (now (lockedMachine.clock + burstInput.elapsed))).head?.map fun y =>
        (y.frame.msgId, y.reply, y.frame.payload[2])) =
      some (MsgId.motorSetTarget, some (respond [0xCC, 0x29]), kRampBurst) := by decide +kernel
  rw [hhead, Option.map_some, Option.some_inj, Prod.mk.injEq, Prod.mk.injEq] at hgranted
  obtain ⟨hset, hreply, hramp⟩ := hgranted
  have hreach : Reachable Booted Ticked lockedMachine := Reachable.init ⟨_, lockedBoard, 0, rfl⟩
  obtain ⟨hpayload, -, hburst⟩ := granted_speed.2 hreach burstInput (fun _ => rfl) [] [] x
    [0xCC, 0x29] hx hset hreply (fun y hy => absurd hy List.not_mem_nil) (by decide +kernel)
  exact ⟨hpayload, hburst hramp⟩

end Culina.GrantedSpeed
