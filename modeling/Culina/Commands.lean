import Culina.Drives
import Culina.Ports

/-!
The command handler of the safety processor. Every request gets one reply; the
handlers change the motor, the heater controller, the lid lock or the tare, and
`Executed` lists once and for all what a frame can do.
-/
namespace Culina.Commands

open Wire Drives Ports

variable {K H : Type}

/-- The part of a reply that the handler chooses; sequence number and message
identifier are echoed. -/
structure Reply where
  type : FrameType
  payload : List Byte
deriving DecidableEq, Repr

def respond (payload : List Byte) : Reply := ⟨.response, payload⟩
def nack : Reply := ⟨.nack, []⟩

structure CommandHandler (H : Type) where
  motor : MotorController := {}
  pid : HeaterPid := {}
  board : H
  tareOffsetCounts : ℤ := 0

namespace CommandHandler

variable [Board H]

/-- Tare-adjusted grams; ten counts a gram. -/
def currentGrams (h : CommandHandler H) : Grams × CommandHandler H :=
  match Board.readRaw h.board with
  | (.ok raw, board) => ((raw - h.tareOffsetCounts).tdiv 10, { h with board })
  | (.error _, board) => (0, { h with board })

/-- The guard shared by the commands that carry no payload. -/
def withoutPayload (h : CommandHandler H) (request : Frame)
    (answer : Reply × CommandHandler H) : Reply × CommandHandler H :=
  if request.payloadLen ≠ 0 then (nack, h) else answer

def handlePing (h : CommandHandler H) (request : Frame) (_ : Inputs) : Reply × CommandHandler H :=
  h.withoutPayload request (respond [], h)

def handleGetVersion (h : CommandHandler H) (request : Frame) (_ : Inputs) :
    Reply × CommandHandler H :=
  h.withoutPayload request (respond [0, 9, 0], h)

def handleMotorSetTarget (h : CommandHandler H) (request : Frame) (state : Inputs) :
    Reply × CommandHandler H :=
  if request.payloadLen ≠ 3 then (nack, h)
  else
    let requested := (getU16 request.payload[0] request.payload[1]).toNat
    let bounded := if requested > kMaxRpm then kMaxRpm else requested
    let ramp := request.payload[2]
    if ramp > kRampBurst then (nack, h)
    else if ramp = kRampBurst then
      if !state.lidLocked || decide (state.tempC > kSpillGuardTempC) then (nack, h)
      else
        (respond (putU16 (BitVec.ofNat 16 bounded)), { h with motor := h.motor.burst bounded })
    else
      let allowed := state.clampSpeedRequest bounded
      (respond (putU16 (BitVec.ofNat 16 allowed)), { h with motor := h.motor.setTarget allowed ramp })

def handleMotorStop (h : CommandHandler H) (request : Frame) (_ : Inputs) :
    Reply × CommandHandler H :=
  h.withoutPayload request (respond [], { h with motor := h.motor.stop })

def handleHeaterSetTarget (h : CommandHandler H) (request : Frame) (_ : Inputs) :
    Reply × CommandHandler H :=
  if request.payloadLen ≠ 2 then (nack, h)
  else
    let target := getI16 request.payload[0] request.payload[1]
    if target < kHeaterMinTargetDeci ∨ target > kHeaterMaxTargetDeci then (nack, h)
    else (respond [], { h with pid := h.pid.setTarget target })

def handleHeaterOff (h : CommandHandler H) (request : Frame) (_ : Inputs) :
    Reply × CommandHandler H :=
  h.withoutPayload request (respond [], { h with pid := h.pid.disable })

def handleScaleTare (h : CommandHandler H) (request : Frame) (state : Inputs) :
    Reply × CommandHandler H :=
  if request.payloadLen ≠ 0 ∨ state.rpm > kTareMaxRpm then (nack, h)
  else
    match Board.readRaw h.board with
    | (.ok raw, board) => (respond [], { h with board, tareOffsetCounts := raw })
    | (.error _, board) => (nack, { h with board })

def handleScaleRead (h : CommandHandler H) (request : Frame) (_ : Inputs) :
    Reply × CommandHandler H :=
  h.withoutPayload request (respond (putI32 h.currentGrams.1), h.currentGrams.2)

def handleLidLock (h : CommandHandler H) (request : Frame) (_ : Inputs) :
    Reply × CommandHandler H :=
  let board := Board.setLock h.board true
  h.withoutPayload request (respond [if Board.isLocked board then 1 else 0], { h with board })

def handleLidUnlock (h : CommandHandler H) (request : Frame) (state : Inputs) :
    Reply × CommandHandler H :=
  if request.payloadLen ≠ 0 ∨ state.rpm ≥ kUnlockMaxRpm then (nack, h)
  else (respond [], { h with board := Board.setLock h.board false })

structure Entry (H : Type) where
  msgId : MsgId
  handler : CommandHandler H → Frame → Inputs → Reply × CommandHandler H

def kHandlers : List (Entry H) :=
  [⟨MsgId.ping, handlePing⟩,
    ⟨MsgId.getVersion, handleGetVersion⟩,
    ⟨MsgId.motorSetTarget, handleMotorSetTarget⟩,
    ⟨MsgId.motorStop, handleMotorStop⟩,
    ⟨MsgId.heaterSetTarget, handleHeaterSetTarget⟩,
    ⟨MsgId.heaterOff, handleHeaterOff⟩,
    ⟨MsgId.scaleTare, handleScaleTare⟩,
    ⟨MsgId.scaleRead, handleScaleRead⟩,
    ⟨MsgId.lidLock, handleLidLock⟩,
    ⟨MsgId.lidUnlock, handleLidUnlock⟩]

/-- While a fault is latched only these requests are executed. -/
def AllowedInFault (msgId : MsgId) : Prop :=
  msgId = MsgId.motorStop ∨ msgId = MsgId.heaterOff ∨ msgId = MsgId.ping ∨
    msgId = MsgId.getVersion

instance (msgId : MsgId) : Decidable (AllowedInFault msgId) :=
  inferInstanceAs (Decidable (_ ∨ _))

/-- The body of `handle`; the reply is still to be sent. -/
def execute (h : CommandHandler H) (request : Frame) (state : Inputs) (faulted : Bool) :
    Option Reply × CommandHandler H :=
  if request.type ≠ .request then (none, h)
  else if faulted = true ∧ ¬ AllowedInFault request.msgId then (some nack, h)
  else
    match kHandlers.find? fun entry => entry.msgId = request.msgId with
    | some entry => ((entry.handler h request state).1, (entry.handler h request state).2)
    | none => (some nack, h)

def handle [LinkPort K] (h : CommandHandler H) (link : K) (request : Frame) (state : Inputs)
    (faulted : Bool) : K × CommandHandler H :=
  match h.execute request state faulted with
  | (none, h) => (link, h)
  | (some reply, h) =>
      ((LinkPort.send link reply.type request.seq request.msgId reply.payload).2, h)

theorem handle_handler [LinkPort K] (h : CommandHandler H) (link : K) (request : Frame)
    (state : Inputs) (faulted : Bool) :
    (h.handle link request state faulted).2 = (h.execute request state faulted).2 := by
  unfold handle
  rcases h.execute request state faulted with ⟨_ | reply, h⟩ <;> rfl

theorem handle_incoming [LinkPort K] [LawfulLinkPort K] (h : CommandHandler H) (link : K)
    (request : Frame) (state : Inputs) (faulted : Bool) :
    LinkPort.incoming (h.handle link request state faulted).1 = LinkPort.incoming link := by
  unfold handle
  rcases h.execute request state faulted with ⟨_ | reply, h⟩
  · rfl
  · exact LawfulLinkPort.send_incoming link reply.type request.seq request.msgId reply.payload

/-! The message catalogue. -/

/-- What the payload of a motor command asks for. -/
abbrev requestedRpm (request : Frame) : ℕ := (getU16 request.payload[0] request.payload[1]).toNat

abbrev requestedRamp (request : Frame) : Byte := request.payload[2]

/-- The identifiers whose only requirement is an empty payload. -/
def BareCommand (msgId : MsgId) : Prop :=
  msgId = MsgId.ping ∨ msgId = MsgId.getVersion ∨ msgId = MsgId.motorStop ∨
    msgId = MsgId.heaterOff ∨ msgId = MsgId.scaleRead ∨ msgId = MsgId.lidLock

instance (msgId : MsgId) : Decidable (BareCommand msgId) :=
  inferInstanceAs (Decidable (_ ∨ _))

/-- What a request needs apart from the fault gate; a tare also needs a scale that
can be read. -/
inductive Admissible (request : Frame) (state : Inputs) : Prop
  | bare (msgId : BareCommand request.msgId) (payloadLen : request.payloadLen = 0)
  | motorRamped (msgId : request.msgId = MsgId.motorSetTarget)
      (payloadLen : request.payloadLen = 3) (ramp : request.payload[2] < kRampBurst)
  | motorBurst (msgId : request.msgId = MsgId.motorSetTarget)
      (payloadLen : request.payloadLen = 3) (ramp : request.payload[2] = kRampBurst)
      (locked : state.lidLocked = true) (cool : state.tempC ≤ kSpillGuardTempC)
  | heaterSet (msgId : request.msgId = MsgId.heaterSetTarget)
      (payloadLen : request.payloadLen = 2)
      (range : kHeaterMinTargetDeci ≤ getI16 request.payload[0] request.payload[1] ∧
        getI16 request.payload[0] request.payload[1] ≤ kHeaterMaxTargetDeci)
  | tare (msgId : request.msgId = MsgId.scaleTare) (payloadLen : request.payloadLen = 0)
      (slow : state.rpm ≤ kTareMaxRpm)
  | lidUnlock (msgId : request.msgId = MsgId.lidUnlock) (payloadLen : request.payloadLen = 0)
      (slow : state.rpm < kUnlockMaxRpm)

/-- The fault gate in front of the catalogue. -/
def Admits (request : Frame) (state : Inputs) (faulted : Bool) : Prop :=
  (faulted = true → AllowedInFault request.msgId) ∧ Admissible request state

/-- Everything a frame can do to the handler, with the reply it gets. -/
inductive Executed (h : CommandHandler H) (request : Frame) (state : Inputs) (faulted : Bool) :
    Option Reply → CommandHandler H → Prop
  | ignored (type : request.type ≠ .request) : Executed h request state faulted none h
  | refused (type : request.type = .request) (inadmissible : ¬ Admits request state faulted) :
      Executed h request state faulted (some nack) h
  | answered (payload : List Byte) (type : request.type = .request)
      (msgId : request.msgId = MsgId.ping ∨ request.msgId = MsgId.getVersion)
      (payloadLen : request.payloadLen = 0) :
      Executed h request state faulted (some (respond payload)) h
  | motorRamped (rpm : ℕ) (type : request.type = .request)
      (msgId : request.msgId = MsgId.motorSetTarget) (running : faulted = false)
      (payloadLen : request.payloadLen = 3) (ramp : request.payload[2] < kRampBurst)
      (bounded : rpm = min (getU16 request.payload[0] request.payload[1]).toNat kMaxRpm) :
      Executed h request state faulted
        (some (respond (putU16 (BitVec.ofNat 16 (state.clampSpeedRequest rpm)))))
        { h with motor := h.motor.setTarget (state.clampSpeedRequest rpm) request.payload[2] }
  | motorBurst (rpm : ℕ) (type : request.type = .request)
      (msgId : request.msgId = MsgId.motorSetTarget) (running : faulted = false)
      (payloadLen : request.payloadLen = 3) (ramp : request.payload[2] = kRampBurst)
      (locked : state.lidLocked = true) (cool : state.tempC ≤ kSpillGuardTempC)
      (bounded : rpm = min (getU16 request.payload[0] request.payload[1]).toNat kMaxRpm) :
      Executed h request state faulted (some (respond (putU16 (BitVec.ofNat 16 rpm))))
        { h with motor := h.motor.burst rpm }
  | motorStopped (type : request.type = .request) (msgId : request.msgId = MsgId.motorStop)
      (payloadLen : request.payloadLen = 0) :
      Executed h request state faulted (some (respond [])) { h with motor := h.motor.stop }
  | heaterSet (target : DeciCelsius) (type : request.type = .request)
      (msgId : request.msgId = MsgId.heaterSetTarget) (running : faulted = false)
      (payloadLen : request.payloadLen = 2)
      (value : target = getI16 request.payload[0] request.payload[1])
      (range : kHeaterMinTargetDeci ≤ target ∧ target ≤ kHeaterMaxTargetDeci) :
      Executed h request state faulted (some (respond []))
        { h with pid := h.pid.setTarget target }
  | heaterOff (type : request.type = .request) (msgId : request.msgId = MsgId.heaterOff)
      (payloadLen : request.payloadLen = 0) :
      Executed h request state faulted (some (respond [])) { h with pid := h.pid.disable }
  | tareRefused (status : Status) (type : request.type = .request)
      (msgId : request.msgId = MsgId.scaleTare) (running : faulted = false)
      (read : (Board.readRaw h.board).1 = .error status) :
      Executed h request state faulted (some nack)
        { h with board := (Board.readRaw h.board).2 }
  | tared (raw : ℤ) (type : request.type = .request) (msgId : request.msgId = MsgId.scaleTare)
      (running : faulted = false) (payloadLen : request.payloadLen = 0)
      (slow : state.rpm ≤ kTareMaxRpm) (read : (Board.readRaw h.board).1 = .ok raw) :
      Executed h request state faulted (some (respond []))
        { h with board := (Board.readRaw h.board).2, tareOffsetCounts := raw }
  | weighed (grams : Grams) (type : request.type = .request)
      (msgId : request.msgId = MsgId.scaleRead) (running : faulted = false)
      (payloadLen : request.payloadLen = 0) :
      Executed h request state faulted (some (respond (putI32 grams)))
        { h with board := (Board.readRaw h.board).2 }
  | lidLocked (type : request.type = .request) (msgId : request.msgId = MsgId.lidLock)
      (running : faulted = false) (payloadLen : request.payloadLen = 0) (flag : Byte) :
      Executed h request state faulted (some (respond [flag]))
        { h with board := Board.setLock h.board true }
  | lidUnlocked (type : request.type = .request) (msgId : request.msgId = MsgId.lidUnlock)
      (running : faulted = false) (payloadLen : request.payloadLen = 0)
      (slow : state.rpm < kUnlockMaxRpm) :
      Executed h request state faulted (some (respond []))
        { h with board := Board.setLock h.board false }

variable {h : CommandHandler H} {request : Frame} {state : Inputs} {faulted : Bool}

theorem currentGrams_board (h : CommandHandler H) :
    h.currentGrams.2 = { h with board := (Board.readRaw h.board).2 } := by
  unfold currentGrams
  rcases Board.readRaw h.board with ⟨raw | raw, board⟩ <;> rfl

theorem ite_min (requested bound : ℕ) :
    (if requested > bound then bound else requested) = min requested bound := by
  split_ifs <;> omega

/-- A request that reaches the handler of its identifier. -/
abbrev Dispatched (request : Frame) (faulted : Bool) (msgId : MsgId) : Prop :=
  request.type = .request ∧ request.msgId = msgId ∧ (¬ AllowedInFault msgId → faulted = false)

theorem handleMotorSetTarget_executed (hrun : Dispatched request faulted MsgId.motorSetTarget) :
    Executed h request state faulted (some (h.handleMotorSetTarget request state).1)
      (h.handleMotorSetTarget request state).2 := by
  obtain ⟨htype, hid, hrun⟩ := hrun
  have hrun := hrun (by decide)
  unfold handleMotorSetTarget
  simp only [ite_min]
  split
  · rename_i hlen
    refine Executed.refused htype fun hadm => ?_
    cases hadm.2 with
    | motorRamped _ payloadLen => exact hlen payloadLen
    | motorBurst _ payloadLen => exact hlen payloadLen
    | bare msgId => exact absurd (hid ▸ msgId) (by decide)
    | _ msgId => exact absurd (hid.symm.trans msgId) (by decide)
  · rename_i hlen
    have hlen := not_not.mp hlen
    split
    · rename_i hramp
      refine Executed.refused htype fun hadm => ?_
      cases hadm.2 with
      | motorRamped _ _ ramp => exact absurd ramp (by bv_omega)
      | motorBurst _ _ ramp => exact absurd hramp (by bv_omega)
      | bare msgId => exact absurd (hid ▸ msgId) (by decide)
      | _ msgId => exact absurd (hid.symm.trans msgId) (by decide)
    · rename_i hramp
      split
      · rename_i hburst
        split
        · rename_i hguard
          refine Executed.refused htype fun hadm => ?_
          simp only [Bool.or_eq_true, Bool.not_eq_true', decide_eq_true_eq] at hguard
          cases hadm.2 with
          | motorRamped _ _ ramp => exact absurd ramp (by bv_omega)
          | motorBurst _ _ _ locked cool =>
            rcases hguard with hguard | hguard
            · rw [hguard] at locked
              cases locked
            · exact absurd cool (not_le.mpr hguard)
          | bare msgId => exact absurd (hid ▸ msgId) (by decide)
          | _ msgId => exact absurd (hid.symm.trans msgId) (by decide)
        · rename_i hguard
          simp only [Bool.or_eq_true, Bool.not_eq_true', decide_eq_true_eq, not_or,
            Bool.not_eq_false, not_lt] at hguard
          exact Executed.motorBurst _ htype hid hrun hlen hburst hguard.1 hguard.2 rfl
      · rename_i hburst
        have hlt : request.payload[2] < kRampBurst := by bv_omega
        exact Executed.motorRamped _ htype hid hrun hlen hlt rfl

theorem handleHeaterSetTarget_executed (hrun : Dispatched request faulted MsgId.heaterSetTarget) :
    Executed h request state faulted (some (h.handleHeaterSetTarget request state).1)
      (h.handleHeaterSetTarget request state).2 := by
  obtain ⟨htype, hid, hrun⟩ := hrun
  have hrun := hrun (by decide)
  have hadmissible : Admissible request state → request.payloadLen = 2 ∧
      kHeaterMinTargetDeci ≤ getI16 request.payload[0] request.payload[1] ∧
      getI16 request.payload[0] request.payload[1] ≤ kHeaterMaxTargetDeci := by
    intro hadm
    cases hadm with
    | heaterSet _ payloadLen range => exact ⟨payloadLen, range⟩
    | bare msgId => exact absurd (hid ▸ msgId) (by decide)
    | _ msgId => exact absurd (hid.symm.trans msgId) (by decide)
  unfold handleHeaterSetTarget
  split
  · rename_i hlen
    exact Executed.refused htype fun hadm => hlen (hadmissible hadm.2).1
  · rename_i hlen
    dsimp only
    split
    · rename_i hrange
      refine Executed.refused htype fun hadm => ?_
      obtain ⟨_, hmin, hmax⟩ := hadmissible hadm.2
      exact hrange.elim (not_lt.mpr hmin) (not_lt.mpr hmax)
    · rename_i hrange
      rw [not_or, not_lt, not_lt] at hrange
      exact Executed.heaterSet _ htype hid hrun (not_not.mp hlen) rfl hrange

theorem handleScaleTare_executed (hrun : Dispatched request faulted MsgId.scaleTare) :
    Executed h request state faulted (some (h.handleScaleTare request state).1)
      (h.handleScaleTare request state).2 := by
  obtain ⟨htype, hid, hrun⟩ := hrun
  have hrun := hrun (by decide)
  unfold handleScaleTare
  split
  · rename_i hguard
    refine Executed.refused htype fun hadm => ?_
    cases hadm.2 with
    | tare _ payloadLen slow => exact hguard.elim (fun h => h payloadLen) (not_lt.mpr slow)
    | bare msgId => exact absurd (hid ▸ msgId) (by decide)
    | _ msgId => exact absurd (hid.symm.trans msgId) (by decide)
  · rename_i hguard
    rw [not_or, not_not, not_lt] at hguard
    cases hread : Board.readRaw h.board with
    | mk result board =>
      have hboard : board = (Board.readRaw h.board).2 := by rw [hread]
      cases result with
      | ok raw =>
        subst hboard
        exact Executed.tared raw htype hid hrun hguard.1 hguard.2 (by rw [hread])
      | error status =>
        subst hboard
        exact Executed.tareRefused status htype hid hrun (by rw [hread])

theorem handleLidUnlock_executed (hrun : Dispatched request faulted MsgId.lidUnlock) :
    Executed h request state faulted (some (h.handleLidUnlock request state).1)
      (h.handleLidUnlock request state).2 := by
  obtain ⟨htype, hid, hrun⟩ := hrun
  have hrun := hrun (by decide)
  unfold handleLidUnlock
  split
  · rename_i hguard
    refine Executed.refused htype fun hadm => ?_
    cases hadm.2 with
    | lidUnlock _ payloadLen slow => exact hguard.elim (fun h => h payloadLen) (not_le.mpr slow)
    | bare msgId => exact absurd (hid ▸ msgId) (by decide)
    | _ msgId => exact absurd (hid.symm.trans msgId) (by decide)
  · rename_i hguard
    rw [not_or, not_not, not_le] at hguard
    exact Executed.lidUnlocked htype hid hrun hguard.1 hguard.2

/-- A command without payload is refused or answered. -/
theorem withoutPayload_executed {answer : Reply × CommandHandler H} (msgId : MsgId)
    (hbare : BareCommand msgId) (htype : request.type = .request) (hid : request.msgId = msgId)
    (hanswer : request.payloadLen = 0 → Executed h request state faulted (some answer.1) answer.2) :
    Executed h request state faulted (some (h.withoutPayload request answer).1)
      (h.withoutPayload request answer).2 := by
  subst hid
  unfold withoutPayload
  split
  · rename_i hlen
    refine Executed.refused htype fun hadm => ?_
    cases hadm.2 with
    | bare _ payloadLen => exact hlen payloadLen
    | _ msgId => exact absurd (msgId ▸ hbare) (by decide)
  · rename_i hlen
    exact hanswer (not_not.mp hlen)

/-- An identifier without a handler is not in the catalogue. -/
theorem not_admissible_of_unknown
    (hfind : (kHandlers : List (Entry H)).find? (fun entry => entry.msgId = request.msgId) = none) :
    ¬ Admissible request state := by
  simp only [kHandlers, List.find?_eq_none, List.mem_cons, List.not_mem_nil, or_false,
    forall_eq_or_imp, forall_eq, decide_eq_true_eq] at hfind
  obtain ⟨hping, hversion, hset, hstop, hheat, hoff, htare, hread, hlock, hunlock⟩ := hfind
  intro hadm
  cases hadm with
  | bare msgId =>
    rcases msgId with h | h | h | h | h | h
    · exact hping h.symm
    · exact hversion h.symm
    · exact hstop h.symm
    · exact hoff h.symm
    · exact hread h.symm
    · exact hlock h.symm
  | motorRamped msgId => exact hset msgId.symm
  | motorBurst msgId => exact hset msgId.symm
  | heaterSet msgId => exact hheat msgId.symm
  | tare msgId => exact htare msgId.symm
  | lidUnlock msgId => exact hunlock msgId.symm

/-- The execution of a frame is one of the listed effects. -/
theorem execute_executed (h : CommandHandler H) (request : Frame) (state : Inputs)
    (faulted : Bool) :
    Executed h request state faulted (h.execute request state faulted).1
      (h.execute request state faulted).2 := by
  unfold execute
  split
  · rename_i htype
    exact Executed.ignored htype
  · rename_i htype
    have htype := not_not.mp htype
    split
    · rename_i hfault
      exact Executed.refused htype fun hadm => hfault.2 (hadm.1 hfault.1)
    · rename_i hfault
      have hrun : ∀ msgId, msgId = request.msgId → Dispatched request faulted msgId := by
        rintro msgId rfl
        refine ⟨htype, rfl, fun hid => ?_⟩
        cases faulted with
        | false => rfl
        | true => exact absurd ⟨rfl, hid⟩ hfault
      split
      · rename_i entry hfind
        have hid : entry.msgId = request.msgId := by simpa using List.find?_some hfind
        have hmem := List.mem_of_find?_eq_some hfind
        simp only [kHandlers, List.mem_cons, List.not_mem_nil, or_false] at hmem
        rcases hmem with rfl | rfl | rfl | rfl | rfl | rfl | rfl | rfl | rfl | rfl
        · exact withoutPayload_executed MsgId.ping (by decide) htype hid.symm
            fun hlen => Executed.answered [] htype (Or.inl hid.symm) hlen
        · exact withoutPayload_executed MsgId.getVersion (by decide) htype hid.symm
            fun hlen => Executed.answered [0, 9, 0] htype (Or.inr hid.symm) hlen
        · exact handleMotorSetTarget_executed (hrun _ hid)
        · exact withoutPayload_executed MsgId.motorStop (by decide) htype hid.symm
            fun hlen => Executed.motorStopped htype hid.symm hlen
        · exact handleHeaterSetTarget_executed (hrun _ hid)
        · exact withoutPayload_executed MsgId.heaterOff (by decide) htype hid.symm
            fun hlen => Executed.heaterOff htype hid.symm hlen
        · exact handleScaleTare_executed (hrun _ hid)
        · refine withoutPayload_executed MsgId.scaleRead (by decide) htype hid.symm fun hlen => ?_
          rw [currentGrams_board]
          exact Executed.weighed _ htype hid.symm ((hrun MsgId.scaleRead hid).2.2 (by decide)) hlen
        · exact withoutPayload_executed MsgId.lidLock (by decide) htype hid.symm
            fun hlen => Executed.lidLocked htype hid.symm
              ((hrun MsgId.lidLock hid).2.2 (by decide)) hlen _
        · exact handleLidUnlock_executed (hrun _ hid)
      · rename_i hfind
        exact Executed.refused htype fun hadm => not_admissible_of_unknown hfind hadm.2

/-- A request is granted by the catalogue and, where it is a tare, by a scale that can be read. -/
def Granted (h : CommandHandler H) (request : Frame) (state : Inputs) (faulted : Bool) : Prop :=
  Admits request state faulted ∧
    (request.msgId = MsgId.scaleTare → ∃ raw, (Board.readRaw h.board).1 = .ok raw)

theorem granted_of_admits (hadmits : Admits request state faulted)
    (hid : request.msgId ≠ MsgId.scaleTare) : h.Granted request state faulted :=
  ⟨hadmits, fun htare => absurd htare hid⟩

theorem admits_of_running (hrunning : faulted = false) (hadmissible : Admissible request state) :
    Admits request state faulted :=
  ⟨fun hfaulted => Bool.noConfusion (hrunning.symm.trans hfaulted), hadmissible⟩

/-- A request gets one reply: a response when it is granted, else a nack. -/
theorem reply_of_executed {h' : CommandHandler H} {reply : Option Reply}
    (hexec : Executed h request state faulted reply h') (htype : request.type = .request) :
    (∃ payload, reply = some (respond payload) ∧ h.Granted request state faulted) ∨
      (reply = some nack ∧ ¬ h.Granted request state faulted) := by
  cases hexec with
  | ignored type => exact absurd htype type
  | refused _ inadmissible => exact Or.inr ⟨rfl, fun hgranted => inadmissible hgranted.1⟩
  | answered payload _ msgId payloadLen =>
    refine Or.inl ⟨_, rfl, granted_of_admits ⟨fun _ => ?_, Admissible.bare ?_ payloadLen⟩ ?_⟩
    · rcases msgId with h | h <;> simp [AllowedInFault, h]
    · rcases msgId with h | h <;> simp [BareCommand, h]
    · rcases msgId with h | h <;> rw [h] <;> decide
  | motorRamped rpm _ msgId running payloadLen ramp =>
    refine Or.inl ⟨_, rfl, granted_of_admits (admits_of_running running ?_) ?_⟩
    · exact Admissible.motorRamped msgId payloadLen ramp
    · rw [msgId]
      decide
  | motorBurst rpm _ msgId running payloadLen ramp locked cool =>
    refine Or.inl ⟨_, rfl, granted_of_admits (admits_of_running running ?_) ?_⟩
    · exact Admissible.motorBurst msgId payloadLen ramp locked cool
    · rw [msgId]
      decide
  | motorStopped _ msgId payloadLen =>
    refine Or.inl ⟨_, rfl, granted_of_admits ⟨fun _ => Or.inl msgId, Admissible.bare ?_ payloadLen⟩ ?_⟩
    · exact Or.inr (Or.inr (Or.inl msgId))
    · rw [msgId]
      decide
  | heaterSet target _ msgId running payloadLen value range =>
    subst value
    refine Or.inl ⟨_, rfl, granted_of_admits (admits_of_running running ?_) ?_⟩
    · exact Admissible.heaterSet msgId payloadLen range
    · rw [msgId]
      decide
  | heaterOff _ msgId payloadLen =>
    refine Or.inl ⟨_, rfl,
      granted_of_admits ⟨fun _ => Or.inr (Or.inl msgId), Admissible.bare ?_ payloadLen⟩ ?_⟩
    · exact Or.inr (Or.inr (Or.inr (Or.inl msgId)))
    · rw [msgId]
      decide
  | tareRefused status _ msgId _ read =>
    refine Or.inr ⟨rfl, fun hgranted => ?_⟩
    obtain ⟨raw, hraw⟩ := hgranted.2 msgId
    rw [read] at hraw
    cases hraw
  | tared raw _ msgId running payloadLen slow read =>
    exact Or.inl ⟨_, rfl, admits_of_running running (Admissible.tare msgId payloadLen slow),
      fun _ => ⟨raw, read⟩⟩
  | weighed grams _ msgId running payloadLen =>
    refine Or.inl ⟨_, rfl, granted_of_admits (admits_of_running running ?_) ?_⟩
    · exact Admissible.bare (Or.inr (Or.inr (Or.inr (Or.inr (Or.inl msgId))))) payloadLen
    · rw [msgId]
      decide
  | lidLocked _ msgId running payloadLen flag =>
    refine Or.inl ⟨_, rfl, granted_of_admits (admits_of_running running ?_) ?_⟩
    · exact Admissible.bare (Or.inr (Or.inr (Or.inr (Or.inr (Or.inr msgId))))) payloadLen
    · rw [msgId]
      decide
  | lidUnlocked _ msgId running payloadLen slow =>
    refine Or.inl ⟨_, rfl, granted_of_admits (admits_of_running running ?_) ?_⟩
    · exact Admissible.lidUnlock msgId payloadLen slow
    · rw [msgId]
      decide

/-- The motor is set by a MotorSetTarget, stopped, or left alone by all but a MotorStop. -/
theorem motor_of_executed {h' : CommandHandler H} {reply : Option Reply}
    (hexec : Executed h request state faulted reply h') :
    (h'.motor = h.motor ∧
        ∀ payload, reply = some (respond payload) → request.msgId ≠ MsgId.motorStop) ∨
      (request.type = .request ∧ request.msgId = MsgId.motorSetTarget ∧ faulted = false ∧
        ∃ payload, reply = some (respond payload)) ∨
      (request.type = .request ∧ request.msgId = MsgId.motorStop ∧
        (∃ payload, reply = some (respond payload)) ∧ h'.motor = h.motor.stop) := by
  cases hexec with
  | ignored => exact Or.inl ⟨rfl, fun _ hreply => by cases hreply⟩
  | refused | tareRefused => exact Or.inl ⟨rfl, fun _ hreply => by cases hreply⟩
  | answered _ _ msgId =>
    refine Or.inl ⟨rfl, fun _ _ hid => ?_⟩
    rw [hid] at msgId
    exact absurd msgId (by decide)
  | motorRamped _ type msgId running | motorBurst _ type msgId running =>
    exact Or.inr (Or.inl ⟨type, msgId, running, _, rfl⟩)
  | motorStopped type msgId => exact Or.inr (Or.inr ⟨type, msgId, ⟨_, rfl⟩, rfl⟩)
  | heaterSet _ _ msgId | heaterOff _ msgId | tared _ _ msgId | weighed _ _ msgId
  | lidLocked _ msgId | lidUnlocked _ msgId =>
    exact Or.inl ⟨rfl, fun _ _ hid => absurd (hid.symm.trans msgId) (by decide)⟩

/-- The heater controller is set by a HeaterSetTarget, disabled, or left alone by all but a HeaterOff. -/
theorem pid_of_executed {h' : CommandHandler H} {reply : Option Reply}
    (hexec : Executed h request state faulted reply h') :
    (h'.pid = h.pid ∧
        ∀ payload, reply = some (respond payload) → request.msgId ≠ MsgId.heaterOff) ∨
      (request.type = .request ∧ request.msgId = MsgId.heaterSetTarget ∧ faulted = false ∧
        ∃ payload, reply = some (respond payload)) ∨
      h'.pid = h.pid.disable := by
  cases hexec with
  | ignored => exact Or.inl ⟨rfl, fun _ hreply => by cases hreply⟩
  | refused | tareRefused => exact Or.inl ⟨rfl, fun _ hreply => by cases hreply⟩
  | answered _ _ msgId =>
    refine Or.inl ⟨rfl, fun _ _ hid => ?_⟩
    rw [hid] at msgId
    exact absurd msgId (by decide)
  | heaterSet _ type msgId running => exact Or.inr (Or.inl ⟨type, msgId, running, _, rfl⟩)
  | heaterOff => exact Or.inr (Or.inr rfl)
  | motorRamped _ _ msgId | motorBurst _ _ msgId | motorStopped _ msgId | tared _ _ msgId | weighed _ _ msgId
  | lidLocked _ msgId | lidUnlocked _ msgId =>
    exact Or.inl ⟨rfl, fun _ _ hid => absurd (hid.symm.trans msgId) (by decide)⟩

end CommandHandler

end Culina.Commands
