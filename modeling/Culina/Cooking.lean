import Culina.Client

/-!
The cooking controller: a session with its acknowledged shutdown sequence, heater
first and motor second. Client, telemetry store and watchdog are shared by pointer in
the source; here the controller holds the client (with its store) and counts the
watchdog feeds. A program is anything that drives the client by requests alone.
-/
namespace Culina.Cooking

open Wire Services Ports Client

inductive SessionState where
  | idle
  | running
  | stopping
  | done
  | faulted
deriving DecidableEq, Repr

/-- Clients reached by requests, accepted or not. -/
inductive ByRequests {K : Type} [LinkPort K] (now : Millis) (c : McuClient K) : McuClient K → Prop
  | refl : ByRequests now c c
  | request {c' : McuClient K} (before : ByRequests now c c') (id : MsgId) (payload : List Byte) :
      ByRequests now c (c'.request now id payload).2

/-- A cooking program; the last argument of each operation is `elapsed_ms`. -/
class Program (K : Type) [LinkPort K] (P : Type) where
  onTick : P → McuClient K → Millis → Millis → P × McuClient K
  finished : P → McuClient K → Millis → Bool
  onStop : P → McuClient K → Millis → Millis → P × McuClient K
  userNext : P → P
  onTick_requests : ∀ program c now elapsed, ByRequests now c (onTick program c now elapsed).2
  onStop_requests : ∀ program c now elapsed, ByRequests now c (onStop program c now elapsed).2

structure CookingController (K P : Type) where
  mcu : McuClient K
  watchdogFeeds : ℕ := 0
  ota : Option OtaUpdater := none
  state : SessionState := .idle
  program : Option P := none
  startedMs : Millis := 0
  displayAvgTempC : ℚ := 0
  hotBowl : Bool := false
  shutdownHeaterSent : Bool := false
  shutdownHeaterDone : Bool := false
  shutdownMotorSent : Bool := false
  shutdownMotorDone : Bool := false
  faultShutdown : Bool := false
  startAfterShutdown : Bool := false
  pendingProgram : Option P := none

namespace CookingController

variable {K P : Type}

def begin (c : CookingController K P) (program : P) (now : Millis) : CookingController K P :=
  { c with
    program := some program
    startedMs := now
    shutdownHeaterSent := false
    shutdownHeaterDone := false
    shutdownMotorSent := false
    shutdownMotorDone := false
    faultShutdown := false
    startAfterShutdown := false
    pendingProgram := none
    mcu := c.mcu.clearFault.clearCommandStatus
    state := .running }

def beginShutdown (c : CookingController K P) (faulted : Bool) : CookingController K P :=
  { c with
    shutdownHeaterSent := false
    shutdownHeaterDone := false
    shutdownMotorSent := false
    shutdownMotorDone := false
    faultShutdown := faulted
    startAfterShutdown := false
    pendingProgram := none
    mcu := c.mcu.clearCommandStatus
    state := if faulted then .faulted else .stopping }

/-- The states in which a new program is refused. -/
def Engaged (c : CookingController K P) : Prop :=
  c.state = .running ∨ c.state = .stopping ∨ (c.state = .faulted ∧ c.shutdownMotorDone = false)

instance (c : CookingController K P) : Decidable c.Engaged := inferInstanceAs (Decidable (_ ∨ _))

/-- A null program is `none`. -/
def startProgram (c : CookingController K P) (program : Option P) :
    Status × CookingController K P :=
  match program with
  | none => (.invalidArgument, c)
  | some program =>
      if c.Engaged then (.notReady, c)
      else
        (.ok,
          { c.beginShutdown false with
            pendingProgram := some program
            startAfterShutdown := true })

def stop (c : CookingController K P) : CookingController K P :=
  if c.state = .stopping ∧ c.startAfterShutdown = true then
    { c with startAfterShutdown := false, pendingProgram := none }
  else if c.state ≠ .stopping ∧ c.state ≠ .faulted then c.beginShutdown false
  else c

def userNext [LinkPort K] [Program K P] (c : CookingController K P) : CookingController K P :=
  { c with program := c.program.map (Program.userNext K) }

/-! The stopping sequence. -/

/-- An acknowledgement completes the command it answers. -/
def acknowledge (c : CookingController K P) (response : Option Frame) : CookingController K P :=
  match response with
  | none => c
  | some response =>
      if response.type = .response then
        if c.shutdownHeaterSent = true ∧ c.shutdownHeaterDone = false ∧
            response.msgId = MsgId.heaterOff then
          { c with shutdownHeaterDone := true }
        else if c.shutdownMotorSent = true ∧ c.shutdownMotorDone = false ∧
            response.msgId = MsgId.motorStop then
          { c with shutdownMotorDone := true }
        else c
      else c

/-- A failed command is to be sent again. -/
def rearm (c : CookingController K P) : CookingController K P :=
  if c.mcu.lastCommandStatus ≠ .ok then
    let c := { c with mcu := c.mcu.clearCommandStatus }
    if c.shutdownHeaterDone = false then { c with shutdownHeaterSent := false }
    else if c.shutdownMotorDone = false then { c with shutdownMotorSent := false }
    else c
  else c

/-- Send the next command, or end the shutdown. -/
def proceed [LinkPort K] (c : CookingController K P) (now : Millis) : CookingController K P :=
  if c.shutdownHeaterDone = false then
    if c.shutdownHeaterSent = false ∧ c.mcu.waiting = false then
      let (status, mcu) := c.mcu.heaterOff now
      { c with mcu, shutdownHeaterSent := decide (status = .ok) }
    else c
  else if c.shutdownMotorDone = false then
    if c.shutdownMotorSent = false ∧ c.mcu.waiting = false then
      let (status, mcu) := c.mcu.motorStop now
      { c with mcu, shutdownMotorSent := decide (status = .ok) }
    else c
  else
    match c.pendingProgram with
    | some program =>
        if c.startAfterShutdown = true ∧ c.faultShutdown = false then
          ({ c with pendingProgram := none } : CookingController K P).begin program now
        else { c with state := if c.faultShutdown then .faulted else .done }
    | none => { c with state := if c.faultShutdown then .faulted else .done }

def runStoppingSequence [LinkPort K] (c : CookingController K P) (response : Option Frame)
    (now : Millis) : CookingController K P :=
  ((c.acknowledge response).rearm).proceed now

/-! The tick. -/

/-- Feeding the watchdog, taking the response and refreshing the display. -/
def sense (c : CookingController K P) : Option Frame × CookingController K P :=
  let (response, mcu) := c.mcu.takeResponse
  (response,
    { c with
      watchdogFeeds := c.watchdogFeeds + 1
      mcu
      displayAvgTempC := mcu.store.averageTempC 2000
      hotBowl := decide (mcu.store.maxTempC 2000 > 60) })

/-- A fault of the safety processor or a failed command. -/
def Alarmed (c : CookingController K P) : Prop :=
  c.state ≠ .faulted ∧ (c.mcu.lastFault ≠ McuClient.noFault ∨ c.mcu.lastCommandStatus ≠ .ok)

instance (c : CookingController K P) : Decidable c.Alarmed := inferInstanceAs (Decidable (_ ∧ _))

def react (c : CookingController K P) : CookingController K P :=
  if c.Alarmed then c.beginShutdown true else c

def stepOta (c : CookingController K P) : CookingController K P :=
  { c with ota := c.ota.map fun ota => if ota.busy then ota.step else ota }

def runProgram [LinkPort K] [Program K P] (c : CookingController K P) (program : P)
    (now : Millis) : CookingController K P :=
  let elapsed := now - c.startedMs
  let (program, mcu) := Program.onTick program c.mcu now elapsed
  if Program.finished program mcu elapsed then
    let (program, mcu) := Program.onStop program mcu now elapsed
    ({ c with program := some program, mcu } : CookingController K P).beginShutdown false
  else { c with program := some program, mcu }

/-- The part of the tick that advances the session. -/
def advance [LinkPort K] [Program K P] (c : CookingController K P) (response : Option Frame)
    (now : Millis) : CookingController K P :=
  match c.state, c.program with
  | .running, some program => c.runProgram program now
  | .stopping, _ => c.runStoppingSequence response now
  | .faulted, _ => c.runStoppingSequence response now
  | _, _ => c

def tick10ms [LinkPort K] [Program K P] (c : CookingController K P) (now : Millis) :
    CookingController K P :=
  let (response, c) := c.sense
  (c.react.stepOta).advance response now

def poll [LinkPort K] (c : CookingController K P) (now : Millis) : CookingController K P :=
  { c with mcu := c.mcu.poll now }

/-- A request that the command line or the display issues past the controller. -/
def direct [LinkPort K] (c : CookingController K P) (now : Millis) (id : MsgId)
    (payload : List Byte) : CookingController K P :=
  { c with mcu := (c.mcu.request now id payload).2 }

/-! Inversions. -/

/-- What an answer changes. -/
inductive Acknowledged (c : CookingController K P) (response : Option Frame) :
    CookingController K P → Prop
  | heater (answer : Frame) (taken : response = some answer) (type : answer.type = .response)
      (msgId : answer.msgId = MsgId.heaterOff) (sent : c.shutdownHeaterSent = true)
      (pending : c.shutdownHeaterDone = false) :
      Acknowledged c response { c with shutdownHeaterDone := true }
  | motor (answer : Frame) (taken : response = some answer) (type : answer.type = .response)
      (msgId : answer.msgId = MsgId.motorStop) (sent : c.shutdownMotorSent = true)
      (pending : c.shutdownMotorDone = false) :
      Acknowledged c response { c with shutdownMotorDone := true }
  | other
      (heater : ∀ answer, response = some answer → answer.type = .response →
        answer.msgId = MsgId.heaterOff → c.shutdownHeaterSent = true → c.shutdownHeaterDone = true)
      (motor : ∀ answer, response = some answer → answer.type = .response →
        answer.msgId = MsgId.motorStop → c.shutdownMotorSent = true → c.shutdownMotorDone = true) :
      Acknowledged c response c

theorem acknowledge_acknowledged (c : CookingController K P) (response : Option Frame) :
    Acknowledged c response (c.acknowledge response) := by
  unfold acknowledge
  cases response with
  | none =>
    refine Acknowledged.other ?_ ?_
    · intro _ h
      cases h
    · intro _ h
      cases h
  | some answer =>
    dsimp only
    split_ifs with htype hheater hmotor
    · exact Acknowledged.heater answer rfl htype hheater.2.2 hheater.1 hheater.2.1
    · exact Acknowledged.motor answer rfl htype hmotor.2.2 hmotor.1 hmotor.2.1
    · refine Acknowledged.other ?_ ?_
      · intro _ h _ hid hsent
        cases h
        by_contra hpending
        exact hheater ⟨hsent, Bool.not_eq_true _ ▸ hpending, hid⟩
      · intro _ h _ hid hsent
        cases h
        by_contra hpending
        exact hmotor ⟨hsent, Bool.not_eq_true _ ▸ hpending, hid⟩
    · refine Acknowledged.other ?_ ?_
      · intro _ h htype'
        cases h
        exact absurd htype' htype
      · intro _ h htype'
        cases h
        exact absurd htype' htype

/-- What a failed command changes. -/
inductive Rearmed (c : CookingController K P) : CookingController K P → Prop
  | none (fine : c.mcu.lastCommandStatus = .ok) : Rearmed c c
  | heater (failed : c.mcu.lastCommandStatus ≠ .ok) (pending : c.shutdownHeaterDone = false) :
      Rearmed c { c with mcu := c.mcu.clearCommandStatus, shutdownHeaterSent := false }
  | motor (failed : c.mcu.lastCommandStatus ≠ .ok) (heater : c.shutdownHeaterDone = true)
      (pending : c.shutdownMotorDone = false) :
      Rearmed c { c with mcu := c.mcu.clearCommandStatus, shutdownMotorSent := false }
  | late (failed : c.mcu.lastCommandStatus ≠ .ok) (heater : c.shutdownHeaterDone = true)
      (motor : c.shutdownMotorDone = true) : Rearmed c { c with mcu := c.mcu.clearCommandStatus }

theorem rearm_rearmed (c : CookingController K P) : Rearmed c c.rearm := by
  unfold rearm
  dsimp only
  split_ifs with hfailed hheater hmotor
  · exact Rearmed.heater hfailed hheater
  · exact Rearmed.motor hfailed (Bool.not_eq_false _ ▸ hheater) hmotor
  · exact Rearmed.late hfailed (Bool.not_eq_false _ ▸ hheater) (Bool.not_eq_false _ ▸ hmotor)
  · exact Rearmed.none (not_not.mp hfailed)

theorem acknowledge_state (c : CookingController K P) (response : Option Frame) :
    (c.acknowledge response).state = c.state := by
  have hack := acknowledge_acknowledged c response
  generalize c.acknowledge response = c' at hack
  cases hack <;> rfl

theorem rearm_state (c : CookingController K P) : c.rearm.state = c.state := by
  have hrearm := rearm_rearmed c
  generalize c.rearm = c' at hrearm
  cases hrearm <;> rfl

theorem acknowledge_mcu (c : CookingController K P) (response : Option Frame) :
    (c.acknowledge response).mcu = c.mcu := by
  have hack := acknowledge_acknowledged c response
  generalize c.acknowledge response = c' at hack
  cases hack <;> rfl

theorem acknowledge_heaterSent (c : CookingController K P) (response : Option Frame) :
    (c.acknowledge response).shutdownHeaterSent = c.shutdownHeaterSent := by
  have hack := acknowledge_acknowledged c response
  generalize c.acknowledge response = c' at hack
  cases hack <;> rfl

theorem rearm_waiting (c : CookingController K P) : c.rearm.mcu.waiting = c.mcu.waiting := by
  have hrearm := rearm_rearmed c
  generalize c.rearm = c' at hrearm
  cases hrearm <;> rfl

theorem react_waiting (c : CookingController K P) : c.react.mcu.waiting = c.mcu.waiting := by
  unfold react
  split <;> rfl

/-- What the end of the sequence does: wait, send a command, start the pending program or
come to rest. -/
inductive Proceeded [LinkPort K] (c : CookingController K P) (now : Millis) :
    CookingController K P → Prop
  | waits
      (heater : c.shutdownHeaterDone = false →
        c.shutdownHeaterSent = true ∨ c.mcu.waiting = true)
      (motor : c.shutdownHeaterDone = true →
        c.shutdownMotorDone = false ∧ (c.shutdownMotorSent = true ∨ c.mcu.waiting = true)) :
      Proceeded c now c
  | heater (pending : c.shutdownHeaterDone = false) (unsent : c.shutdownHeaterSent = false)
      (idle : c.mcu.waiting = false) :
      Proceeded c now
        { c with
          mcu := (c.mcu.heaterOff now).2
          shutdownHeaterSent := decide ((c.mcu.heaterOff now).1 = .ok) }
  | motor (heater : c.shutdownHeaterDone = true) (pending : c.shutdownMotorDone = false)
      (unsent : c.shutdownMotorSent = false) (idle : c.mcu.waiting = false) :
      Proceeded c now
        { c with
          mcu := (c.mcu.motorStop now).2
          shutdownMotorSent := decide ((c.mcu.motorStop now).1 = .ok) }
  | begins (program : P) (heater : c.shutdownHeaterDone = true)
      (motor : c.shutdownMotorDone = true) (pending : c.pendingProgram = some program)
      (start : c.startAfterShutdown = true) (unfaulted : c.faultShutdown = false) :
      Proceeded c now (({ c with pendingProgram := none } : CookingController K P).begin program now)
  | rests (heater : c.shutdownHeaterDone = true) (motor : c.shutdownMotorDone = true)
      (unstarted : c.startAfterShutdown = true → c.faultShutdown = false →
        c.pendingProgram = none) :
      Proceeded c now { c with state := if c.faultShutdown then .faulted else .done }

theorem proceed_proceeded [LinkPort K] (c : CookingController K P) (now : Millis) :
    Proceeded c now (c.proceed now) := by
  unfold proceed
  by_cases hheater : c.shutdownHeaterDone = false
  · rw [if_pos hheater]
    by_cases hsend : c.shutdownHeaterSent = false ∧ c.mcu.waiting = false
    · rw [if_pos hsend]
      exact Proceeded.heater hheater hsend.1 hsend.2
    · rw [if_neg hsend]
      refine Proceeded.waits ?_ ?_
      · intro _
        simpa [or_iff_not_imp_left] using hsend
      · intro hdone
        rw [hheater] at hdone
        cases hdone
  · rw [if_neg hheater]
    rw [Bool.not_eq_false] at hheater
    by_cases hmotor : c.shutdownMotorDone = false
    · rw [if_pos hmotor]
      by_cases hsend : c.shutdownMotorSent = false ∧ c.mcu.waiting = false
      · rw [if_pos hsend]
        exact Proceeded.motor hheater hmotor hsend.1 hsend.2
      · rw [if_neg hsend]
        refine Proceeded.waits ?_ ?_
        · intro hpending
          rw [hheater] at hpending
          cases hpending
        · intro _
          exact ⟨hmotor, by simpa [or_iff_not_imp_left] using hsend⟩
    · rw [if_neg hmotor]
      rw [Bool.not_eq_false] at hmotor
      split
      · rename_i program hprogram
        by_cases hstart : c.startAfterShutdown = true ∧ c.faultShutdown = false
        · rw [if_pos hstart]
          exact Proceeded.begins program hheater hmotor hprogram hstart.1 hstart.2
        · rw [if_neg hstart]
          refine Proceeded.rests hheater hmotor ?_
          intro h hfault
          exact absurd ⟨h, hfault⟩ hstart
      · rename_i hprogram
        exact Proceeded.rests hheater hmotor fun _ _ => hprogram

/-- An answer to a command that was not sent is ignored. -/
theorem acknowledge_unsent {c : CookingController K P} (hheater : c.shutdownHeaterSent = false)
    (hmotor : c.shutdownMotorSent = false) (response : Option Frame) : c.acknowledge response = c := by
  have hack := acknowledge_acknowledged c response
  generalize c.acknowledge response = c' at hack
  cases hack with
  | heater _ _ _ _ sent _ => exact Bool.noConfusion (hheater.symm.trans sent)
  | motor _ _ _ _ sent _ => exact Bool.noConfusion (hmotor.symm.trans sent)
  | other _ _ => rfl

theorem rearm_of_ok {c : CookingController K P} (hok : c.mcu.lastCommandStatus = .ok) :
    c.rearm = c := if_neg (not_not.mpr hok)

/-- While the heater is not off, the sequence only sends. -/
theorem proceed_heater [LinkPort K] {c : CookingController K P}
    (hheater : c.shutdownHeaterDone = false) (now : Millis) :
    (c.proceed now).state = c.state ∧ (c.proceed now).pendingProgram = c.pendingProgram := by
  have hproceed := proceed_proceeded c now
  generalize c.proceed now = c' at hproceed
  cases hproceed with
  | waits _ _ => exact ⟨rfl, rfl⟩
  | heater _ _ _ => exact ⟨rfl, rfl⟩
  | motor heater _ _ _ => exact Bool.noConfusion (hheater.symm.trans heater)
  | begins _ heater _ _ _ _ => exact Bool.noConfusion (hheater.symm.trans heater)
  | rests heater _ _ => exact Bool.noConfusion (hheater.symm.trans heater)

/-- The flags follow the sequence. -/
structure InOrder (c : CookingController K P) : Prop where
  heaterDone : c.shutdownHeaterDone = true → c.shutdownHeaterSent = true
  motorSent : c.shutdownMotorSent = true → c.shutdownHeaterDone = true
  motorDone : c.shutdownMotorDone = true → c.shutdownMotorSent = true

theorem InOrder.motorUnsent {c : CookingController K P} (h : c.InOrder)
    (hheater : c.shutdownHeaterDone = false) : c.shutdownMotorSent = false := by
  by_contra hsent
  rw [Bool.not_eq_false] at hsent
  exact Bool.noConfusion (hheater.symm.trans (h.motorSent hsent))

theorem InOrder.motorPending {c : CookingController K P} (h : c.InOrder)
    (hheater : c.shutdownHeaterDone = false) : c.shutdownMotorDone = false := by
  by_contra hdone
  rw [Bool.not_eq_false] at hdone
  exact Bool.noConfusion ((h.motorUnsent hheater).symm.trans (h.motorDone hdone))

theorem inOrder_beginShutdown (c : CookingController K P) (faulted : Bool) :
    (c.beginShutdown faulted).InOrder :=
  ⟨fun h => (by cases h), fun h => (by cases h), fun h => (by cases h)⟩

theorem InOrder.acknowledge {c : CookingController K P} (h : c.InOrder) (response : Option Frame) :
    (c.acknowledge response).InOrder := by
  have hack := acknowledge_acknowledged c response
  generalize c.acknowledge response = c' at hack
  cases hack with
  | heater _ _ _ _ sent _ => exact ⟨fun _ => sent, fun _ => rfl, h.motorDone⟩
  | motor _ _ _ _ sent _ => exact ⟨h.heaterDone, h.motorSent, fun _ => sent⟩
  | other _ _ => exact h

theorem InOrder.rearm {c : CookingController K P} (h : c.InOrder) : c.rearm.InOrder := by
  have hrearm := rearm_rearmed c
  generalize c.rearm = c' at hrearm
  cases hrearm with
  | none _ => exact h
  | heater _ pending =>
    exact ⟨fun hdone => Bool.noConfusion (pending.symm.trans hdone), h.motorSent, h.motorDone⟩
  | motor _ _ pending =>
    exact ⟨h.heaterDone, fun hsent => (by cases hsent),
      fun hdone => Bool.noConfusion (pending.symm.trans hdone)⟩
  | late _ _ _ => exact ⟨h.heaterDone, h.motorSent, h.motorDone⟩

theorem InOrder.proceed [LinkPort K] {c : CookingController K P} (h : c.InOrder) (now : Millis) :
    (c.proceed now).InOrder := by
  have hproceed := proceed_proceeded c now
  generalize c.proceed now = c' at hproceed
  cases hproceed with
  | waits _ _ => exact h
  | heater pending _ _ =>
    exact ⟨fun hdone => Bool.noConfusion (pending.symm.trans hdone), h.motorSent, h.motorDone⟩
  | motor heater pending _ _ =>
    exact ⟨h.heaterDone, fun _ => heater, fun hdone => Bool.noConfusion (pending.symm.trans hdone)⟩
  | begins _ _ _ _ _ _ => exact ⟨fun h => (by cases h), fun h => (by cases h), fun h => (by cases h)⟩
  | rests _ _ _ => exact ⟨h.heaterDone, h.motorSent, h.motorDone⟩

/-- What the tick of a running program does. -/
inductive Played [LinkPort K] (c : CookingController K P) (now : Millis) :
    CookingController K P → Prop
  | goesOn (program : P) (mcu : McuClient K) (requests : ByRequests now c.mcu mcu) :
      Played c now { c with program := some program, mcu }
  | finishes (program : P) (mcu : McuClient K) (requests : ByRequests now c.mcu mcu) :
      Played c now
        (({ c with program := some program, mcu } : CookingController K P).beginShutdown false)

end CookingController

theorem ByRequests.trans {K : Type} [LinkPort K] {now : Millis} {c c' c'' : McuClient K}
    (h : ByRequests now c c') (h' : ByRequests now c' c'') : ByRequests now c c'' := by
  induction h' with
  | refl => exact h
  | request _ id payload ih => exact ByRequests.request ih id payload

/-- Requests keep what each of them keeps. -/
theorem ByRequests.keeps {K : Type} [LinkPort K] {now : Millis} {c c' : McuClient K}
    (h : ByRequests now c c') (inv : McuClient K → Prop) (hc : inv c)
    (hrequest : ∀ c id payload, inv c → inv (c.request now id payload).2) : inv c' := by
  induction h with
  | refl => exact hc
  | request _ id payload ih => exact hrequest _ id payload ih

namespace CookingController

variable {K P : Type} [LinkPort K] [Program K P]

theorem runProgram_played (c : CookingController K P) (program : P) (now : Millis) :
    Played c now (c.runProgram program now) := by
  have htick := Program.onTick_requests program c.mcu now (now - c.startedMs)
  unfold runProgram
  dsimp only
  split
  · exact Played.finishes _ _ (htick.trans (Program.onStop_requests _ _ _ _))
  · exact Played.goesOn _ _ htick

/-- What the last part of the tick does. -/
inductive Advanced (c : CookingController K P) (response : Option Frame) (now : Millis) :
    CookingController K P → Prop
  | plays (running : c.state = .running) (c' : CookingController K P) (played : Played c now c') :
      Advanced c response now c'
  | stops (stopping : c.state = .stopping ∨ c.state = .faulted) :
      Advanced c response now (c.runStoppingSequence response now)
  | rests (stopping : c.state ≠ .stopping) (faulted : c.state ≠ .faulted) : Advanced c response now c

theorem advance_stopping {c : CookingController K P} (h : c.state = .stopping ∨ c.state = .faulted)
    (response : Option Frame) (now : Millis) :
    c.advance response now = c.runStoppingSequence response now := by
  rcases h with h | h <;> simp [advance, h]

theorem advance_advanced (c : CookingController K P) (response : Option Frame) (now : Millis) :
    Advanced c response now (c.advance response now) := by
  cases hstate : c.state with
  | idle =>
    have heq : c.advance response now = c := by simp [advance, hstate]
    rw [heq]
    exact Advanced.rests (by simp [hstate]) (by simp [hstate])
  | running =>
    cases hprogram : c.program with
    | none =>
      have heq : c.advance response now = c := by simp [advance, hstate, hprogram]
      rw [heq]
      exact Advanced.rests (by simp [hstate]) (by simp [hstate])
    | some program =>
      have heq : c.advance response now = c.runProgram program now := by
        simp [advance, hstate, hprogram]
      rw [heq]
      exact Advanced.plays hstate _ (runProgram_played c program now)
  | stopping =>
    rw [advance_stopping (Or.inl hstate)]
    exact Advanced.stops (Or.inl hstate)
  | done =>
    have heq : c.advance response now = c := by simp [advance, hstate]
    rw [heq]
    exact Advanced.rests (by simp [hstate]) (by simp [hstate])
  | faulted =>
    rw [advance_stopping (Or.inr hstate)]
    exact Advanced.stops (Or.inr hstate)

omit [LinkPort K] [Program K P] in
theorem sense_fst (c : CookingController K P) :
    c.sense.1 = if c.mcu.responseReady = true then some c.mcu.response else none :=
  McuClient.takeResponse_fst c.mcu

omit [LinkPort K] [Program K P] in
theorem sense_mcu (c : CookingController K P) :
    c.sense.2.mcu = { c.mcu with responseReady := false } := McuClient.takeResponse_snd c.mcu

theorem tick10ms_eq (c : CookingController K P) (now : Millis) :
    c.tick10ms now = (c.sense.2.react.stepOta).advance c.sense.1 now := rfl

/-- The tick of an alarmed controller opens the fault shutdown. -/
theorem tick10ms_alarmed {c : CookingController K P} (halarmed : c.Alarmed) (now : Millis) :
    c.tick10ms now = (c.sense.2.beginShutdown true).stepOta.proceed now := by
  have halarmed' : c.sense.2.Alarmed := by
    rw [Alarmed, sense_mcu]
    exact halarmed
  have hreact : c.sense.2.react = c.sense.2.beginShutdown true := if_pos halarmed'
  rw [tick10ms_eq, hreact, advance_stopping (Or.inr rfl), runStoppingSequence,
    acknowledge_unsent rfl rfl, rearm_of_ok rfl]

theorem tick10ms_alarmed_state {c : CookingController K P} (halarmed : c.Alarmed) (now : Millis) :
    (c.tick10ms now).state = .faulted ∧ (c.tick10ms now).pendingProgram = none := by
  rw [tick10ms_alarmed halarmed]
  exact proceed_heater rfl now

/-- The tick of a quiet controller goes on with its session. -/
theorem tick10ms_quiet {c : CookingController K P} (hquiet : ¬ c.Alarmed) (now : Millis) :
    c.tick10ms now = c.sense.2.stepOta.advance c.sense.1 now := by
  have hquiet' : ¬ c.sense.2.Alarmed := by
    rw [Alarmed, sense_mcu]
    exact hquiet
  have hreact : c.sense.2.react = c.sense.2 := if_neg hquiet'
  rw [tick10ms_eq, hreact]

end CookingController

end Culina.Cooking
