import Culina.Cooking
import Culina.Runs

/-!
The application as its user and its link drive it: the events between which the
controller and its client run, the manual program, and what the client keeps through
all of them.
-/
namespace Culina.Sessions

open Wire Services Ports Client McuClient Cooking CookingController Runs

/-! The manual program. -/

def dialToRpm (dial : ℕ) : ℕ := (if dial > 10 then 10 else dial) * 1070

structure ManualMode where
  tempDeci : DeciCelsius
  dial : ℕ
  durationMs : Millis
  heaterSet : Bool := false
  motorSet : Bool := false
deriving DecidableEq

namespace ManualMode

variable {K : Type} [LinkPort K]

def ofSeconds (temp : DeciCelsius) (dial : ℕ) (durationS : BitVec 32) : ManualMode where
  tempDeci := temp
  dial
  durationMs := durationS * 1000

def onTick (program : ManualMode) (c : McuClient K) (now : Millis) : ManualMode × McuClient K :=
  if program.heaterSet = false then
    if program.tempDeci ≤ 0 then ({ program with heaterSet := true }, c)
    else
      let (status, c) := c.setHeater now program.tempDeci
      ({ program with heaterSet := decide (status = .ok) }, c)
  else if program.motorSet = false then
    let (status, c) := c.setMotor now (dialToRpm program.dial) kRampNormal
    ({ program with motorSet := decide (status = .ok) }, c)
  else (program, c)

theorem onTick_requests (program : ManualMode) (c : McuClient K) (now : Millis) :
    ByRequests now c (program.onTick c now).2 := by
  unfold onTick
  split_ifs
  · exact ByRequests.refl
  · exact ByRequests.request ByRequests.refl _ _
  · exact ByRequests.request ByRequests.refl _ _
  · exact ByRequests.refl

instance : Program K ManualMode where
  onTick program c now _ := program.onTick c now
  finished program _ elapsed := decide (elapsed ≥ program.durationMs)
  onStop program c _ _ := (program, c)
  userNext program := program
  onTick_requests program c now _ := onTick_requests program c now
  onStop_requests _ _ _ _ := ByRequests.refl

end ManualMode

/-! Requests past the controller. -/

/-- The commands that the command line and the display give the client themselves. -/
inductive DirectRequest where
  | setMotor (rpm : ℕ) (rampProfile : Byte)
  | motorStop
  | setHeater (target : DeciCelsius)
  | heaterOff
  | tare
  | lockLid (locked : Bool)

namespace DirectRequest

def msgId : DirectRequest → MsgId
  | setMotor _ _ => MsgId.motorSetTarget
  | motorStop => MsgId.motorStop
  | setHeater _ => MsgId.heaterSetTarget
  | heaterOff => MsgId.heaterOff
  | tare => MsgId.scaleTare
  | lockLid locked => if locked then MsgId.lidLock else MsgId.lidUnlock

def payload : DirectRequest → List Byte
  | setMotor rpm rampProfile => putU16 (BitVec.ofNat 16 rpm) ++ [rampProfile]
  | setHeater target => putI16 target
  | _ => []

variable {K : Type} [LinkPort K]

def issue (direct : DirectRequest) (c : McuClient K) (now : Millis) : Status × McuClient K :=
  match direct with
  | setMotor rpm rampProfile => c.setMotor now rpm rampProfile
  | motorStop => c.motorStop now
  | setHeater target => c.setHeater now target
  | heaterOff => c.heaterOff now
  | tare => c.tare now
  | lockLid locked => c.lockLid now locked

theorem issue_eq (direct : DirectRequest) (c : McuClient K) (now : Millis) :
    direct.issue c now = c.request now direct.msgId direct.payload := by
  cases direct <;> rfl

end DirectRequest

/-! Events. -/

/-- `link` is the link moving by itself: bytes received, sent or lost. -/
inductive AppEvent (K P : Type) where
  | link (link : K)
  | poll (now : Millis)
  | tick (now : Millis)
  | direct (now : Millis) (request : DirectRequest)
  | start (program : Option P)
  | stop
  | userNext
  | verify (image : List Byte) (expectedCrc : BitVec 16)

variable {K P : Type} [LinkPort K] [Program K P]

def direct (c : CookingController K P) (request : DirectRequest) (now : Millis) :
    CookingController K P :=
  { c with mcu := (request.issue c.mcu now).2 }

def apply (c : CookingController K P) : AppEvent K P → CookingController K P
  | .link link => { c with mcu := { c.mcu with link } }
  | .poll now => c.poll now
  | .tick now => c.tick10ms now
  | .direct now request => direct c request now
  | .start program => (c.startProgram program).2
  | .stop => c.stop
  | .userNext => c.userNext
  | .verify image expectedCrc => { c with ota := c.ota.map fun ota => (ota.begin image expectedCrc).2 }

/-- The application as constructed. -/
def initial (link : K) (ota : Option OtaUpdater) : CookingController K P := { mcu := { link }, ota }

/-- The states that the application reaches by admitted events from its construction. -/
def AppReachable (allowed : CookingController K P → AppEvent K P → Prop) :
    CookingController K P → Prop :=
  Reachable (fun c => ∃ link ota, c = initial link ota) (Guarded allowed apply)

theorem appReachable_initial {allowed : CookingController K P → AppEvent K P → Prop} (link : K)
    (ota : Option OtaUpdater) : AppReachable allowed (initial (P := P) link ota) :=
  Reachable.init ⟨link, ota, rfl⟩

/-- Take the events in order. -/
def play (c : CookingController K P) (events : List (AppEvent K P)) : CookingController K P :=
  events.foldl apply c

/-! What the client keeps. -/

/-- While a request is out, no response is held and no failure is reported. -/
def Coherent (c : McuClient K) : Prop :=
  c.waiting = true → c.responseReady = false ∧ c.lastCommandStatus = .ok

/-- A request ends in this poll without success. -/
def Fails (c : McuClient K) (now : Millis) : Prop :=
  c.waiting = true ∧ (c.poll now).waiting = false ∧ (c.poll now).lastCommandStatus ≠ .ok

instance (c : McuClient K) (now : Millis) : Decidable (Fails c now) :=
  inferInstanceAs (Decidable (_ ∧ _))

theorem coherent_request {c : McuClient K} (h : Coherent c) (now : Millis) (id : MsgId)
    (payload : List Byte) : Coherent (c.request now id payload).2 := by
  have hrequest := request_requested c now id payload
  generalize (c.request now id payload).1 = status at hrequest
  generalize (c.request now id payload).2 = c' at hrequest
  cases hrequest with
  | accepted accepts => exact fun _ => ⟨rfl, rfl⟩
  | unsent _ _ _ _ _ => exact h
  | refused _ _ => exact h

theorem coherent_timed {c c' : McuClient K} {now : Millis} (h : Coherent c)
    (htimed : Timed c now c') : Coherent c' := by
  cases htimed with
  | quiet early => exact h
  | gaveUp waiting =>
    intro hwaiting
    cases hwaiting
  | unsent waiting early first failed => exact h
  | retried waiting early first sent => exact h

omit [LinkPort K] in
theorem coherent_received {c c' : McuClient K} {frame : Frame} {now : Millis} (h : Coherent c)
    (hreceived : Received c frame now c') : Coherent c' := by
  cases hreceived with
  | sample type => exact h
  | fault type => exact h
  | answer found =>
    intro hwaiting
    cases hwaiting
  | ignored stray => exact h

theorem coherent_beaten {c c' : McuClient K} {now : Millis} (h : Coherent c)
    (hbeaten : Beaten c now c') : Coherent c' := by
  cases hbeaten with
  | quiet => exact h
  | unsent idle => exact h
  | sent idle sent => exact h

theorem coherent_poll {c : McuClient K} (h : Coherent c) (now : Millis) : Coherent (c.poll now) :=
  poll_keeps Coherent c now (fun _ _ => coherent_timed) (fun _ h => h)
    (fun _ _ _ => coherent_received) (fun _ _ => coherent_beaten) h

/-- A poll in which no request fails leaves the status or resets it. -/
theorem poll_status {c : McuClient K} {now : Millis} (hfine : ¬ Fails c now) :
    (c.poll now).lastCommandStatus = c.lastCommandStatus ∨ (c.poll now).lastCommandStatus = .ok := by
  let inv (c' : McuClient K) : Prop :=
    (c'.waiting = true → c.waiting = true) ∧
      (c'.lastCommandStatus = c.lastCommandStatus ∨ c'.lastCommandStatus = .ok ∨
        c.waiting = true ∧ c'.waiting = false)
  have hinv : inv (c.poll now) := by
    refine poll_keeps inv c now ?_ (fun _ h => h) ?_ ?_ ⟨id, Or.inl rfl⟩
    · rintro c c' ⟨hwaiting, hstatus⟩ htimed
      cases htimed with
      | quiet early => exact ⟨hwaiting, hstatus⟩
      | gaveUp waiting => exact ⟨fun h => (by cases h), Or.inr (Or.inr ⟨hwaiting waiting, rfl⟩)⟩
      | unsent waiting early first failed => exact ⟨hwaiting, hstatus⟩
      | retried waiting early first sent => exact ⟨hwaiting, hstatus⟩
    · rintro c frame c' ⟨hwaiting, hstatus⟩ hreceived
      cases hreceived with
      | sample type => exact ⟨hwaiting, hstatus⟩
      | fault type => exact ⟨hwaiting, hstatus⟩
      | answer found =>
        exact ⟨fun h => (by cases h), Or.inr (Or.inr ⟨hwaiting found.2.1, rfl⟩)⟩
      | ignored stray => exact ⟨hwaiting, hstatus⟩
    · rintro c c' ⟨hwaiting, hstatus⟩ hbeaten
      cases hbeaten with
      | quiet => exact ⟨hwaiting, hstatus⟩
      | unsent idle => exact ⟨hwaiting, hstatus⟩
      | sent idle sent => exact ⟨hwaiting, hstatus⟩
  obtain ⟨-, hstatus | hok | ⟨hwas, his⟩⟩ := hinv
  · exact Or.inl hstatus
  · exact Or.inr hok
  · right
    by_contra hfailed
    exact hfine ⟨hwas, his, hfailed⟩

end Culina.Sessions
