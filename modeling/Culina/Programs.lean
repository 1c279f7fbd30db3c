import Culina.Sessions
import Culina.RecipeParser

/-!
The other cooking programs: the timed modes, the turbo pulse and the guided recipe. Each
issues at most one request in a tick, and issues it again in a later tick until it is accepted.
-/
namespace Culina.Programs

open Wire Services Ports Client Cooking Sessions RecipeParser

variable {K : Type} [LinkPort K]

/-! The timed modes. -/

structure DoughMode where
  durationMs : Millis
  kneading : Bool := false
  commandPending : Bool := true
deriving DecidableEq

namespace DoughMode

def kKneadMs : Millis := 4000
def kRestMs : Millis := 2000

def ofSeconds (durationS : BitVec 32) : DoughMode where
  durationMs := durationS * 1000

def onTick (program : DoughMode) (c : McuClient K) (now elapsed : Millis) :
    DoughMode × McuClient K :=
  let cycle := elapsed % (kKneadMs + kRestMs)
  let wantKnead := decide (cycle < kKneadMs)
  if wantKnead ≠ program.kneading ∨ program.commandPending = true then
    let target := if wantKnead then dialToRpm 3 else 0
    let (status, c) := c.setMotor now target kRampFast
    (if status = .ok then { program with kneading := wantKnead, commandPending := false }
      else { program with commandPending := true }, c)
  else (program, c)

theorem onTick_requests (program : DoughMode) (c : McuClient K) (now elapsed : Millis) :
    ByRequests now c (program.onTick c now elapsed).2 := by
  unfold onTick
  dsimp only
  split
  · exact ByRequests.request ByRequests.refl _ _
  · exact ByRequests.refl

instance : Program K DoughMode where
  onTick := onTick
  finished program _ elapsed := decide (elapsed ≥ program.durationMs)
  onStop program c _ _ := (program, c)
  userNext program := program
  onTick_requests := onTick_requests
  onStop_requests _ _ _ _ := ByRequests.refl

end DoughMode

structure SousVideMode where
  targetDeci : DeciCelsius
  durationMs : Millis
  heaterSet : Bool := false
  motorSet : Bool := false
  atTemperature : Bool := false
deriving DecidableEq

namespace SousVideMode

def ofSeconds (target : DeciCelsius) (durationS : BitVec 32) : SousVideMode where
  targetDeci :=
    let target := if target < 370 then 370 else target
    if target > 900 then 900 else target
  durationMs := durationS * 1000

def onTick (program : SousVideMode) (c : McuClient K) (now : Millis) :
    SousVideMode × McuClient K :=
  if program.heaterSet = false then
    let (status, c) := c.setHeater now program.targetDeci
    ({ program with heaterSet := decide (status = .ok) }, c)
  else if program.motorSet = false then
    let (status, c) := c.setMotor now (dialToRpm 2) kRampGentle
    ({ program with motorSet := decide (status = .ok) }, c)
  else
    let bath := c.store.averageTempC 2000
    (if |bath - toCelsius program.targetDeci| ≤ 1 / 2 then { program with atTemperature := true }
      else program, c)

theorem onTick_requests (program : SousVideMode) (c : McuClient K) (now : Millis) :
    ByRequests now c (program.onTick c now).2 := by
  unfold onTick
  dsimp only
  split
  · exact ByRequests.request ByRequests.refl _ _
  · split
    · exact ByRequests.request ByRequests.refl _ _
    · exact ByRequests.refl

instance : Program K SousVideMode where
  onTick program c now _ := program.onTick c now
  finished program _ elapsed := decide (elapsed ≥ program.durationMs)
  onStop program c _ _ := (program, c)
  userNext program := program
  onTick_requests program c now _ := onTick_requests program c now
  onStop_requests _ _ _ _ := ByRequests.refl

end SousVideMode

structure SteamMode where
  durationMs : Millis
  heaterSet : Bool := false
  motorSet : Bool := false
  lidOpen : Bool := false
deriving DecidableEq

namespace SteamMode

def ofSeconds (durationS : BitVec 32) : SteamMode where
  durationMs := durationS * 1000

def onTick (program : SteamMode) (c : McuClient K) (now : Millis) : SteamMode × McuClient K :=
  if program.heaterSet = false then
    let (status, c) := c.setHeater now 1000
    ({ program with heaterSet := decide (status = .ok) }, c)
  else if program.motorSet = false then
    let (status, c) := c.setMotor now (dialToRpm 1) kRampGentle
    ({ program with motorSet := decide (status = .ok) }, c)
  else ({ program with lidOpen := decide (c.store.latest.flags &&& kFlagLidClosed = 0) }, c)

theorem onTick_requests (program : SteamMode) (c : McuClient K) (now : Millis) :
    ByRequests now c (program.onTick c now).2 := by
  unfold onTick
  split
  · exact ByRequests.request ByRequests.refl _ _
  · split
    · exact ByRequests.request ByRequests.refl _ _
    · exact ByRequests.refl

instance : Program K SteamMode where
  onTick program c now _ := program.onTick c now
  finished program _ elapsed := decide (elapsed ≥ program.durationMs)
  onStop program c _ _ := (program, c)
  userNext program := program
  onTick_requests program c now _ := onTick_requests program c now
  onStop_requests _ _ _ _ := ByRequests.refl

end SteamMode

/-! The turbo pulse. -/

namespace TurboPulse

inductive Phase where
  | locking
  | spinning
  | stopping
  | unlocking
  | finished
deriving DecidableEq

end TurboPulse

structure TurboPulse where
  pulseMs : Millis
  phase : TurboPulse.Phase := .locking
  spinStartedMs : Millis := 0
deriving DecidableEq

namespace TurboPulse

def ofMillis (pulseMs : BitVec 32) : TurboPulse where
  pulseMs := if pulseMs > 2000 then 2000 else pulseMs

def onTick (program : TurboPulse) (c : McuClient K) (now elapsed : Millis) :
    TurboPulse × McuClient K :=
  match program.phase with
  | .locking =>
      let (status, c) := c.lockLid now true
      (if status = .ok then { program with phase := .spinning } else program, c)
  | .spinning =>
      if program.spinStartedMs = 0 then
        let (status, c) := c.setMotor now 10700 kRampBurst
        (if status = .ok then { program with spinStartedMs := elapsed } else program, c)
      else
        (if elapsed - program.spinStartedMs ≥ program.pulseMs then { program with phase := .stopping }
          else program, c)
  | .stopping =>
      let (status, c) := c.motorStop now
      (if status = .ok then { program with phase := .unlocking } else program, c)
  | .unlocking =>
      if c.store.hasData = false ∨ c.store.latest.rpm ≥ 100 then (program, c)
      else
        let (status, c) := c.lockLid now false
        (if status = .ok then { program with phase := .finished } else program, c)
  | .finished => (program, c)

theorem onTick_requests (program : TurboPulse) (c : McuClient K) (now elapsed : Millis) :
    ByRequests now c (program.onTick c now elapsed).2 := by
  unfold onTick
  cases program.phase with
  | locking => exact ByRequests.request ByRequests.refl _ _
  | spinning =>
    dsimp only
    split
    · exact ByRequests.request ByRequests.refl _ _
    · exact ByRequests.refl
  | stopping => exact ByRequests.request ByRequests.refl _ _
  | unlocking =>
    dsimp only
    split
    · exact ByRequests.refl
    · exact ByRequests.request ByRequests.refl _ _
  | finished => exact ByRequests.refl

instance : Program K TurboPulse where
  onTick := onTick
  finished program _ _ := decide (program.phase = .finished)
  onStop program c _ _ := (program, c)
  userNext program := program
  onTick_requests := onTick_requests
  onStop_requests _ _ _ _ := ByRequests.refl

end TurboPulse

/-! The guided recipe. -/

namespace GuidedRecipe

inductive Phase where
  | setup
  | run
  | teardown
deriving DecidableEq

end GuidedRecipe

structure GuidedRecipe where
  recipe : Recipe
  stepIndex : ℕ := 0
  phase : GuidedRecipe.Phase := .setup
  commandIndex : ℕ := 0
  stepStartedMs : Millis := 0
  advanceRequested : Bool := false
  scaleTared : Bool := false
deriving DecidableEq

namespace GuidedRecipe

/-- The setup of a step, with whether it is complete. -/
def runSetup (program : GuidedRecipe) (step : RecipeStep) (c : McuClient K) (now : Millis) :
    Bool × GuidedRecipe × McuClient K :=
  match step.kind with
  | .note => (true, program, c)
  | .mix =>
      let (status, c) := c.setMotor now (dialToRpm step.dialSpeed) kRampNormal
      (decide (status = .ok), program, c)
  | .heat =>
      if program.commandIndex = 0 then
        let (status, c) := c.setHeater now step.targetTemp
        (false, if status = .ok then { program with commandIndex := 1 } else program, c)
      else
        let (status, c) := c.setMotor now (dialToRpm step.dialSpeed) kRampGentle
        (decide (status = .ok), program, c)
  | .weigh =>
      if program.scaleTared = true then (true, program, c)
      else
        let (status, c) := c.tare now
        (decide (status = .ok), { program with scaleTared := decide (status = .ok) }, c)

def stepDone (program : GuidedRecipe) (step : RecipeStep) (c : McuClient K) (elapsed : Millis) :
    Bool :=
  match step.kind with
  | .note => program.advanceRequested
  | .mix | .heat => decide (elapsed - program.stepStartedMs ≥ step.durationS * 1000)
  | .weigh => decide (c.store.latest.grams ≥ step.targetWeight)

def runTeardown (program : GuidedRecipe) (step : RecipeStep) (c : McuClient K) (now : Millis) :
    Bool × GuidedRecipe × McuClient K :=
  match step.kind with
  | .note | .weigh => (true, program, c)
  | .mix =>
      let (status, c) := c.motorStop now
      (decide (status = .ok), program, c)
  | .heat =>
      if program.commandIndex = 0 then
        let (status, c) := c.heaterOff now
        (false, if status = .ok then { program with commandIndex := 1 } else program, c)
      else
        let (status, c) := c.motorStop now
        (decide (status = .ok), program, c)

def advance (program : GuidedRecipe) : GuidedRecipe :=
  { program with
    stepIndex := program.stepIndex + 1
    phase := .setup
    commandIndex := 0
    advanceRequested := false }

def onTick (program : GuidedRecipe) (c : McuClient K) (now elapsed : Millis) :
    GuidedRecipe × McuClient K :=
  if h : program.stepIndex < program.recipe.stepCount then
    let step := program.recipe.step ⟨program.stepIndex, h⟩
    match program.phase with
    | .setup =>
        match program.runSetup step c now with
        | (true, program, c) =>
            ({ program with stepStartedMs := elapsed, commandIndex := 0, phase := .run }, c)
        | (false, program, c) => (program, c)
    | .run =>
        (if program.stepDone step c elapsed then { program with commandIndex := 0, phase := .teardown }
          else program, c)
    | .teardown =>
        match program.runTeardown step c now with
        | (true, program, c) => (program.advance, c)
        | (false, program, c) => (program, c)
  else (program, c)

def finished (program : GuidedRecipe) : Bool := decide (program.stepIndex ≥ program.recipe.stepCount)

def userNext (program : GuidedRecipe) : GuidedRecipe := { program with advanceRequested := true }

end GuidedRecipe

/-- A null recipe is `none`. -/
def startRecipe (c : CookingController K GuidedRecipe) (recipe : Option Recipe) :
    Status × CookingController K GuidedRecipe :=
  match recipe with
  | none => (.invalidArgument, c)
  | some recipe =>
      if recipe.stepCount = 0 then (.invalidArgument, c) else c.startProgram (some { recipe })

namespace GuidedRecipe

/-- What a step of the recipe asks of the safety processor. -/
inductive Asks (step : RecipeStep) : MsgId → List Byte → Prop
  | motor (rpm : ℕ) (rampProfile : Byte) (ramp : rampProfile = kRampNormal ∨ rampProfile = kRampGentle) :
      Asks step MsgId.motorSetTarget (putU16 (BitVec.ofNat 16 rpm) ++ [rampProfile])
  | heater (kind : step.kind = .heat) :
      Asks step MsgId.heaterSetTarget (putI16 step.targetTemp)
  | motorStop : Asks step MsgId.motorStop []
  | heaterOff : Asks step MsgId.heaterOff []
  | tare (kind : step.kind = .weigh) : Asks step MsgId.scaleTare []

/-- What a tick does to the client for a step: nothing, or one request of the step. -/
inductive Ticked (step : RecipeStep) (c : McuClient K) (now : Millis) : McuClient K → Prop
  | idle : Ticked step c now c
  | asks (id : MsgId) (payload : List Byte) (asked : Asks step id payload) :
      Ticked step c now (c.request now id payload).2

theorem runSetup_ticked (program : GuidedRecipe) (step : RecipeStep) (c : McuClient K)
    (now : Millis) :
    (program.runSetup step c now).2.1.recipe = program.recipe ∧
      Ticked step c now (program.runSetup step c now).2.2 := by
  unfold runSetup
  cases hkind : step.kind with
  | note => exact ⟨rfl, Ticked.idle⟩
  | mix => exact ⟨rfl, Ticked.asks _ _ (Asks.motor _ _ (Or.inl rfl))⟩
  | heat =>
    dsimp only
    by_cases hfirst : program.commandIndex = 0
    · rw [if_pos hfirst]
      refine ⟨?_, Ticked.asks _ _ (Asks.heater hkind)⟩
      dsimp only
      split <;> rfl
    · rw [if_neg hfirst]
      exact ⟨rfl, Ticked.asks _ _ (Asks.motor _ _ (Or.inr rfl))⟩
  | weigh =>
    dsimp only
    by_cases htared : program.scaleTared = true
    · rw [if_pos htared]
      exact ⟨rfl, Ticked.idle⟩
    · rw [if_neg htared]
      exact ⟨rfl, Ticked.asks _ _ (Asks.tare hkind)⟩

theorem runTeardown_ticked (program : GuidedRecipe) (step : RecipeStep) (c : McuClient K)
    (now : Millis) :
    (program.runTeardown step c now).2.1.recipe = program.recipe ∧
      Ticked step c now (program.runTeardown step c now).2.2 := by
  unfold runTeardown
  cases step.kind with
  | note => exact ⟨rfl, Ticked.idle⟩
  | weigh => exact ⟨rfl, Ticked.idle⟩
  | mix => exact ⟨rfl, Ticked.asks _ _ Asks.motorStop⟩
  | heat =>
    dsimp only
    by_cases hfirst : program.commandIndex = 0
    · rw [if_pos hfirst]
      refine ⟨?_, Ticked.asks _ _ Asks.heaterOff⟩
      dsimp only
      split <;> rfl
    · rw [if_neg hfirst]
      exact ⟨rfl, Ticked.asks _ _ Asks.motorStop⟩

/-- A tick leaves the client alone or requests something for a step of the recipe. -/
theorem onTick_ticked (program : GuidedRecipe) (c : McuClient K) (now elapsed : Millis) :
    (program.onTick c now elapsed).1.recipe = program.recipe ∧
      ((program.onTick c now elapsed).2 = c ∨
        ∃ i, Ticked (program.recipe.step i) c now (program.onTick c now elapsed).2) := by
  unfold onTick
  by_cases hstep : program.stepIndex < program.recipe.stepCount
  · rw [dif_pos hstep]
    cases program.phase with
    | setup =>
      have hsetup := program.runSetup_ticked (program.recipe.step ⟨program.stepIndex, hstep⟩) c now
      dsimp only
      generalize program.runSetup (program.recipe.step ⟨program.stepIndex, hstep⟩) c now = outcome
        at hsetup
      obtain ⟨done, program', c'⟩ := outcome
      obtain ⟨hrecipe, hticked⟩ := hsetup
      cases done with
      | false => exact ⟨hrecipe, Or.inr ⟨_, hticked⟩⟩
      | true => exact ⟨hrecipe, Or.inr ⟨_, hticked⟩⟩
    | run =>
      refine ⟨?_, Or.inl rfl⟩
      dsimp only
      split <;> rfl
    | teardown =>
      have hteardown :=
        program.runTeardown_ticked (program.recipe.step ⟨program.stepIndex, hstep⟩) c now
      dsimp only
      generalize program.runTeardown (program.recipe.step ⟨program.stepIndex, hstep⟩) c now = outcome
        at hteardown
      obtain ⟨done, program', c'⟩ := outcome
      obtain ⟨hrecipe, hticked⟩ := hteardown
      cases done with
      | false => exact ⟨hrecipe, Or.inr ⟨_, hticked⟩⟩
      | true => exact ⟨hrecipe, Or.inr ⟨_, hticked⟩⟩
  · rw [dif_neg hstep]
    exact ⟨rfl, Or.inl rfl⟩

theorem onTick_requests (program : GuidedRecipe) (c : McuClient K) (now elapsed : Millis) :
    ByRequests now c (program.onTick c now elapsed).2 := by
  have hticked := (program.onTick_ticked c now elapsed).2
  generalize (program.onTick c now elapsed).2 = c' at hticked
  rcases hticked with hsame | ⟨i, hticked⟩
  · rw [hsame]
    exact ByRequests.refl
  · cases hticked with
    | idle => exact ByRequests.refl
    | asks id payload _ => exact ByRequests.request ByRequests.refl id payload

instance : Program K GuidedRecipe where
  onTick := onTick
  finished program _ _ := program.finished
  onStop program c _ _ := (program, c)
  userNext := userNext
  onTick_requests := onTick_requests
  onStop_requests _ _ _ _ := ByRequests.refl

end GuidedRecipe

/-! Any of them. -/

/-- A program as the controller holds it. -/
inductive AnyProgram where
  | manual (program : ManualMode)
  | dough (program : DoughMode)
  | sousVide (program : SousVideMode)
  | steam (program : SteamMode)
  | turbo (program : TurboPulse)
  | recipe (program : GuidedRecipe)
deriving DecidableEq

namespace AnyProgram

def onTick (program : AnyProgram) (c : McuClient K) (now elapsed : Millis) :
    AnyProgram × McuClient K :=
  match program with
  | manual program => Prod.map manual id (program.onTick c now)
  | dough program => Prod.map dough id (program.onTick c now elapsed)
  | sousVide program => Prod.map sousVide id (program.onTick c now)
  | steam program => Prod.map steam id (program.onTick c now)
  | turbo program => Prod.map turbo id (program.onTick c now elapsed)
  | recipe program => Prod.map recipe id (program.onTick c now elapsed)

def finished (program : AnyProgram) (elapsed : Millis) : Bool :=
  match program with
  | manual program => decide (elapsed ≥ program.durationMs)
  | dough program => decide (elapsed ≥ program.durationMs)
  | sousVide program => decide (elapsed ≥ program.durationMs)
  | steam program => decide (elapsed ≥ program.durationMs)
  | turbo program => decide (program.phase = .finished)
  | recipe program => program.finished

/-- Of the programs only the recipe reacts to the user. -/
def userNext : AnyProgram → AnyProgram
  | recipe program => recipe program.userNext
  | program => program

instance : Program K AnyProgram where
  onTick := onTick
  finished program _ elapsed := program.finished elapsed
  onStop program c _ _ := (program, c)
  userNext := userNext
  onTick_requests program c now elapsed := by
    cases program with
    | manual program => exact program.onTick_requests c now
    | dough program => exact program.onTick_requests c now elapsed
    | sousVide program => exact program.onTick_requests c now
    | steam program => exact program.onTick_requests c now
    | turbo program => exact program.onTick_requests c now elapsed
    | recipe program => exact program.onTick_requests c now elapsed
  onStop_requests _ _ _ _ := ByRequests.refl

end AnyProgram

end Culina.Programs
