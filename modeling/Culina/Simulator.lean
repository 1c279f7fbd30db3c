import Culina.MainLoop
import Culina.Replies
import Culina.Sessions

/-!
The whole device in one process: the simulated board, the safety processor and the application in
lockstep over the in-memory transport. In every millisecond the board moves, the processor takes its
tick on what the application wrote before, and the application hears at once what the tick has
written. In between the user acts on board and application.
-/
namespace Culina.Simulator

open Wire Ports Safety SafetyMcu Supervision SerialLink Lid Plant MainLoop Runs
open Client McuClient Cooking CookingController Sessions

/-! What the user does to the board. -/

inductive Touch where
  | add (grams viscosity : ℚ)
  | openLid
  | closeLid

namespace Touch

def apply (board : SimBoard Models) : Touch → SimBoard Models
  | add grams viscosity =>
      { board with
        sensors :=
          { board.sensors with
            scale := { board.sensors.scale with trueMassG := board.sensors.scale.trueMassG + grams }
            motor := { board.sensors.motor with viscosity } } }
  | openLid => { board with lid := board.lid.userOpen }
  | closeLid => { board with lid := board.lid.userClose }

/-- The bowl is filled up to its 2200 grams. -/
def Fits (board : SimBoard Models) : Touch → Prop
  | add grams _ => 0 ≤ grams ∧ grams ≤ 2200 - board.sensors.scale.trueMassG
  | _ => True

theorem apply_served {board : SimBoard Models} {touch : Touch} (hfits : touch.Fits board)
    (hmass : 0 ≤ board.sensors.scale.trueMassG ∧ board.sensors.scale.trueMassG ≤ 2200) :
    Served board (touch.apply board) := by
  cases touch with
  | add grams viscosity =>
    obtain ⟨hgrams, hroom⟩ := hfits
    exact ⟨⟨_, viscosity, by linarith [hmass.1], by linarith, rfl⟩, rfl⟩
  | openLid => exact ⟨⟨_, _, hmass.1, hmass.2, rfl⟩, userOpen_locked _⟩
  | closeLid => exact ⟨⟨_, _, hmass.1, hmass.2, rfl⟩, rfl⟩

end Touch

/-! The system. -/

/-- `appToMcu` is what the application has written since the last tick of the safety processor. -/
structure SystemSim (P : Type) where
  rig : Rig
  app : CookingController Link P
  appDivider : ℕ := 0
  appToMcu : List Byte := []

variable {P : Type}

/-- What the link of an application has written on the way from one state to another. -/
def sentBetween (before after : CookingController Link P) : List Byte :=
  after.mcu.link.uart.wire.drop before.mcu.link.uart.wire.length

/-- Bytes arrive at a client. -/
def heard (c : McuClient Link) (bytes : List Byte) : McuClient Link :=
  { c with link := { c.link with uart := c.link.uart.receive bytes } }

def hear (app : CookingController Link P) (bytes : List Byte) : CookingController Link P :=
  { app with mcu := heard app.mcu bytes }

def fed (rig : Rig) : Rig :=
  { rig with
    board :=
      { rig.board with
        sensors :=
          { rig.board.sensors with
            watchdog := rig.board.sensors.watchdog.feed rig.board.sensors.nowMs } } }

namespace SystemSim

def nowMs (s : SystemSim P) : Millis := s.rig.board.sensors.nowMs

/-- The board and the safety processor have had their millisecond. -/
def ticked (s : SystemSim P) : Rig := s.rig.pass ⟨s.appToMcu, []⟩

/-- What the tick of the safety processor has written. -/
def mcuToApp (s : SystemSim P) : List Byte :=
  s.ticked.machine.mcu.link.uart.wire.drop s.rig.machine.mcu.link.uart.wire.length

/-- The application has polled what the tick has written. -/
def polled (s : SystemSim P) : CookingController Link P :=
  (hear s.app s.mcuToApp).poll s.ticked.board.sensors.nowMs

/-- The loop body of `step_ms`; the controller runs in every tenth millisecond, and feeds the
watchdog. -/
def stepMs [Program Link P] (s : SystemSim P) : SystemSim P :=
  if s.appDivider + 1 ≥ 10 then
    let app := s.polled.tick10ms s.ticked.board.sensors.nowMs
    { rig := fed s.ticked, app, appDivider := 0, appToMcu := sentBetween s.app app }
  else
    { rig := s.ticked, app := s.polled, appDivider := s.appDivider + 1
      appToMcu := sentBetween s.app s.polled }

/-- The user has the application do something. -/
def command (s : SystemSim P) (app : CookingController Link P) : SystemSim P :=
  { s with app, appToMcu := s.appToMcu ++ sentBetween s.app app }

inductive Action (P : Type) where
  | stepMs
  | touch (touch : Touch)
  | direct (request : DirectRequest)
  | start (program : Option P)
  | stop
  | userNext
  | verify (image : List Byte) (expectedCrc : BitVec 16)

variable [Program Link P]

def next (s : SystemSim P) : Action P → SystemSim P
  | .stepMs => s.stepMs
  | .touch touch => { s with rig := { s.rig with board := touch.apply s.rig.board } }
  | .direct request => s.command (Sessions.direct s.app request s.nowMs)
  | .start program => s.command (s.app.startProgram program).2
  | .stop => s.command s.app.stop
  | .userNext => s.command s.app.userNext
  | .verify image expectedCrc =>
      s.command { s.app with ota := s.app.ota.map fun ota => (ota.begin image expectedCrc).2 }

def Allowed (s : SystemSim P) : Action P → Prop
  | .touch touch => touch.Fits s.rig.board
  | _ => True

/-- Both processors as constructed, over queues that take all they are offered. -/
def start (scaleNoise tempNoise : ℕ → ℚ) : SystemSim P where
  rig := Rig.start (fun _ len => len) scaleNoise tempNoise 0
  app := Sessions.initial { uart := { accept := fun _ len => len } } (some {})

def Started (s : SystemSim P) : Prop := ∃ scaleNoise tempNoise, s = start scaleNoise tempNoise

end SystemSim

/-- The controller leaves the safety processor alone. -/
theorem stepMs_machine [Program Link P] (s : SystemSim P) : s.stepMs.rig.machine = s.ticked.machine := by
  unfold SystemSim.stepMs
  split <;> rfl

/-! What the controller does to the client. -/

/-- Clients reached by what the controller and its user call, accepted or not. -/
inductive Calls {K : Type} [LinkPort K] (now : Millis) (c : McuClient K) : McuClient K → Prop
  | refl : Calls now c c
  | request {c' : McuClient K} (before : Calls now c c') (id : MsgId) (payload : List Byte) :
      Calls now c (c'.request now id payload).2
  | takeResponse {c' : McuClient K} (before : Calls now c c') : Calls now c { c' with responseReady := false }
  | clearCommandStatus {c' : McuClient K} (before : Calls now c c') : Calls now c c'.clearCommandStatus
  | clearFault {c' : McuClient K} (before : Calls now c c') : Calls now c c'.clearFault

namespace Calls

variable {K : Type} [LinkPort K] {now : Millis} {c c' c'' : McuClient K}

theorem trans (h : Calls now c c') (h' : Calls now c' c'') : Calls now c c'' := by
  induction h' with
  | refl => exact h
  | request _ id payload ih => exact request ih id payload
  | takeResponse _ ih => exact takeResponse ih
  | clearCommandStatus _ ih => exact clearCommandStatus ih
  | clearFault _ ih => exact clearFault ih

theorem of_requests (h : ByRequests now c c') : Calls now c c' := by
  induction h with
  | refl => exact refl
  | request _ id payload ih => exact request ih id payload

end Calls

section Controller

variable {K : Type} [LinkPort K] {now : Millis}

theorem proceed_calls (c : CookingController K P) (now : Millis) : Calls now c.mcu (c.proceed now).mcu := by
  have hproceed := proceed_proceeded c now
  generalize c.proceed now = c' at hproceed
  cases hproceed with
  | waits _ _ => exact Calls.refl
  | heater _ _ _ => exact Calls.request Calls.refl _ _
  | motor _ _ _ _ => exact Calls.request Calls.refl _ _
  | begins _ _ _ _ _ _ => exact Calls.clearCommandStatus (Calls.clearFault Calls.refl)
  | rests _ _ _ => exact Calls.refl

theorem runStoppingSequence_calls (c : CookingController K P) (response : Option Frame) (now : Millis) :
    Calls now c.mcu (c.runStoppingSequence response now).mcu := by
  have hrearm := rearm_rearmed (c.acknowledge response)
  have hproceed := proceed_calls (c.acknowledge response).rearm now
  have hmcu := acknowledge_mcu c response
  unfold runStoppingSequence
  generalize (c.acknowledge response).rearm = c' at hrearm hproceed ⊢
  refine Calls.trans ?_ hproceed
  cases hrearm with
  | none _ =>
    rw [hmcu]
    exact Calls.refl
  | heater _ _ | motor _ _ _ | late _ _ _ =>
    dsimp only
    rw [hmcu]
    exact Calls.clearCommandStatus Calls.refl

theorem tick10ms_calls [Program K P] (c : CookingController K P) (now : Millis) :
    Calls now c.mcu (c.tick10ms now).mcu := by
  have hsense : Calls now c.mcu c.sense.2.mcu := by
    rw [sense_mcu]
    exact Calls.takeResponse Calls.refl
  have hreact : Calls now c.sense.2.mcu c.sense.2.react.stepOta.mcu := by
    unfold stepOta react
    split
    · exact Calls.clearCommandStatus Calls.refl
    · exact Calls.refl
  have hadvance := advance_advanced c.sense.2.react.stepOta c.sense.1 now
  rw [tick10ms_eq]
  refine (hsense.trans hreact).trans ?_
  generalize c.sense.2.react.stepOta = c' at hadvance ⊢
  generalize hafter : c'.advance c.sense.1 now = after at hadvance ⊢
  cases hadvance with
  | plays _ _ played =>
    cases played with
    | goesOn _ _ requests => exact Calls.of_requests requests
    | finishes _ _ requests => exact Calls.clearCommandStatus (Calls.of_requests requests)
  | stops _ => exact runStoppingSequence_calls c' c.sense.1 now
  | rests _ _ => exact Calls.refl

end Controller

/-- A step of the simulator is a millisecond, a touch, or something that the application does with its
client. -/
inductive Step [Program Link P] (s : SystemSim P) : SystemSim.Action P → SystemSim P → Prop
  | stepMs : Step s .stepMs s.stepMs
  | touch (touch : Touch) :
      Step s (.touch touch) { s with rig := { s.rig with board := touch.apply s.rig.board } }
  | command (action : SystemSim.Action P) (app : CookingController Link P)
      (calls : Calls s.nowMs s.app.mcu app.mcu) : Step s action (s.command app)

theorem next_step [Program Link P] (s : SystemSim P) (action : SystemSim.Action P) :
    Step s action (s.next action) := by
  cases action with
  | stepMs => exact Step.stepMs
  | touch touch => exact Step.touch touch
  | direct request =>
    refine Step.command _ (Sessions.direct s.app request s.nowMs) ?_
    rw [Sessions.direct, DirectRequest.issue_eq]
    exact Calls.request Calls.refl _ _
  | start program =>
    refine Step.command _ (s.app.startProgram program).2 ?_
    unfold CookingController.startProgram
    split
    · exact Calls.refl
    · split
      · exact Calls.refl
      · exact Calls.clearCommandStatus Calls.refl
  | stop =>
    refine Step.command _ s.app.stop ?_
    unfold CookingController.stop
    split_ifs
    · exact Calls.refl
    · exact Calls.clearCommandStatus Calls.refl
    · exact Calls.refl
  | userNext => exact Step.command _ s.app.userNext Calls.refl
  | verify image expectedCrc => exact Step.command _ _ Calls.refl

end Culina.Simulator
