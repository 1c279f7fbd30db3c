import Culina.Counters
import Culina.Packets
import Culina.Programs
import Culina.Runs

/-!
The order of a guided recipe. What the recipe has still to ask for is a function of its state: every
tick moves at most one request from it to the client, so what was accepted is a prefix of the
schedule of the recipe, whatever the client refuses and whenever the user presses on.
-/
namespace Culina.RecipeOrder

open Wire Ports Client McuClient Sessions Programs RecipeParser GuidedRecipe Runs

/-! The schedule. -/

def setMotorRequest (dialSpeed : ℕ) (rampProfile : Byte) : Request :=
  (.request, MsgId.motorSetTarget, putU16 (BitVec.ofNat 16 (dialToRpm dialSpeed)) ++ [rampProfile])

def setHeaterRequest (target : DeciCelsius) : Request :=
  (.request, MsgId.heaterSetTarget, putI16 target)

/-- What sets a step up; the scale is tared once. -/
def setup (tared : Bool) (step : RecipeStep) : List Request :=
  match step.kind with
  | .note => []
  | .mix => [setMotorRequest step.dialSpeed kRampNormal]
  | .heat => [setHeaterRequest step.targetTemp, setMotorRequest step.dialSpeed kRampGentle]
  | .weigh => if tared then [] else [bareRequest MsgId.scaleTare]

def teardown (step : RecipeStep) : List Request :=
  match step.kind with
  | .note | .weigh => []
  | .mix => [bareRequest MsgId.motorStop]
  | .heat => [bareRequest MsgId.heaterOff, bareRequest MsgId.motorStop]

/-- Behind a weigh step the scale is tared. -/
def taredBehind (tared : Bool) (step : RecipeStep) : Bool := tared || decide (step.kind = .weigh)

/-- A request with the step and the phase it belongs to. -/
structure Entry where
  index : ℕ
  phase : Phase
  request : Request
deriving DecidableEq

def entries (index : ℕ) (phase : Phase) (requests : List Request) : List Entry :=
  requests.map fun request => ⟨index, phase, request⟩

/-- The requests of the steps from an index on. -/
def schedule (tared : Bool) (index : ℕ) : List RecipeStep → List Entry
  | [] => []
  | step :: rest =>
      entries index .setup (setup tared step) ++ entries index .teardown (teardown step) ++
        schedule (taredBehind tared step) (index + 1) rest

def stepsOf (recipe : Recipe) : List RecipeStep := List.ofFn recipe.step

/-! What is left of it. -/

/-- What is left of a phase of two commands. -/
def left (commandIndex : ℕ) (requests : List Request) : List Request :=
  if commandIndex = 0 then requests else requests.drop 1

def setupLeft (program : GuidedRecipe) (step : RecipeStep) : List Request :=
  match step.kind with
  | .heat => left program.commandIndex (setup program.scaleTared step)
  | _ => setup program.scaleTared step

def teardownLeft (program : GuidedRecipe) (step : RecipeStep) : List Request :=
  match step.kind with
  | .heat => left program.commandIndex (teardown step)
  | _ => teardown step

def remaining (program : GuidedRecipe) : List Entry :=
  match (stepsOf program.recipe).drop program.stepIndex with
  | [] => []
  | step :: rest =>
      match program.phase with
      | .setup =>
          entries program.stepIndex .setup (setupLeft program step) ++
            entries program.stepIndex .teardown (teardown step) ++
              schedule (taredBehind program.scaleTared step) (program.stepIndex + 1) rest
      | .run =>
          entries program.stepIndex .teardown (teardown step) ++
            schedule program.scaleTared (program.stepIndex + 1) rest
      | .teardown =>
          entries program.stepIndex .teardown (teardownLeft program step) ++
            schedule program.scaleTared (program.stepIndex + 1) rest

theorem entries_append (index : ℕ) (phase : Phase) (first second : List Request) :
    entries index phase (first ++ second) = entries index phase first ++ entries index phase second :=
  List.map_append

/-! One tick. -/

variable {K : Type} [LinkPort K]

theorem setMotor_accepted (c : McuClient (Tap K)) (now : Millis) (dialSpeed : ℕ) (rampProfile : Byte) :
    acceptedBetween c (c.setMotor now (dialToRpm dialSpeed) rampProfile).2 =
      if (c.setMotor now (dialToRpm dialSpeed) rampProfile).1 = .ok then
        [setMotorRequest dialSpeed rampProfile]
      else [] := request_accepted c now _ _

theorem setHeater_accepted (c : McuClient (Tap K)) (now : Millis) (target : DeciCelsius) :
    acceptedBetween c (c.setHeater now target).2 =
      if (c.setHeater now target).1 = .ok then [setHeaterRequest target] else [] :=
  request_accepted c now _ _

/-- The last request of a phase was accepted, or is left. -/
theorem accepted_or_left (status : Status) (request : Request) :
    (if status = .ok then [request] else []) ++ (if decide (status = .ok) then [] else [request]) =
      [request] := by
  cases status <;> rfl

/-- What a phase in progress leaves alone. -/
structure Kept (program program' : GuidedRecipe) : Prop where
  recipe : program'.recipe = program.recipe
  stepIndex : program'.stepIndex = program.stepIndex
  phase : program'.phase = program.phase
  stepStartedMs : program'.stepStartedMs = program.stepStartedMs
  advanceRequested : program'.advanceRequested = program.advanceRequested

theorem Kept.refl (program : GuidedRecipe) : Kept program program := ⟨rfl, rfl, rfl, rfl, rfl⟩

/-- The requests of a setup go out in order, and a complete setup has none left. -/
structure SetUp (program : GuidedRecipe) (step : RecipeStep) (c : McuClient (Tap K)) (done : Bool)
    (program' : GuidedRecipe) (c' : McuClient (Tap K)) : Prop where
  kept : Kept program program'
  accepted : acceptedBetween c c' ++ (if done then [] else setupLeft program' step) =
    setupLeft program step
  tared : taredBehind program'.scaleTared step = taredBehind program.scaleTared step
  complete : done = true → program'.scaleTared = taredBehind program.scaleTared step

theorem runSetup_setUp (program : GuidedRecipe) (step : RecipeStep) (c : McuClient (Tap K))
    (now : Millis) :
    SetUp program step c (program.runSetup step c now).1 (program.runSetup step c now).2.1
      (program.runSetup step c now).2.2 := by
  unfold runSetup
  cases hkind : step.kind with
  | note =>
    have hleft : setupLeft program step = [] := by simp [setupLeft, setup, hkind]
    refine ⟨Kept.refl _, ?_, rfl, fun _ => by simp [taredBehind, hkind]⟩
    rw [hleft, acceptedBetween_self]
    rfl
  | mix =>
    have hleft : setupLeft program step = [setMotorRequest step.dialSpeed kRampNormal] := by
      simp [setupLeft, setup, hkind]
    refine ⟨Kept.refl _, ?_, rfl, fun _ => by simp [taredBehind, hkind]⟩
    dsimp only
    rw [setMotor_accepted, hleft]
    exact accepted_or_left _ _
  | heat =>
    have hsetup : setup program.scaleTared step =
        [setHeaterRequest step.targetTemp, setMotorRequest step.dialSpeed kRampGentle] := by
      simp [setup, hkind]
    dsimp only
    by_cases hfirst : program.commandIndex = 0
    · have hleft : setupLeft program step =
          [setHeaterRequest step.targetTemp, setMotorRequest step.dialSpeed kRampGentle] := by
        simp only [setupLeft, hkind, left, if_pos hfirst, hsetup]
      have hnext : setupLeft { program with commandIndex := 1 } step =
          [setMotorRequest step.dialSpeed kRampGentle] := by
        simp [setupLeft, hkind, left, setup]
      rw [if_pos hfirst]
      by_cases hok : (c.setHeater now step.targetTemp).1 = .ok
      · rw [if_pos hok]
        refine ⟨⟨rfl, rfl, rfl, rfl, rfl⟩, ?_, rfl, nofun⟩
        rw [setHeater_accepted, hleft, hnext]
        simp [hok]
      · rw [if_neg hok]
        refine ⟨Kept.refl _, ?_, rfl, nofun⟩
        rw [setHeater_accepted]
        simp [hok]
    · have hleft : setupLeft program step = [setMotorRequest step.dialSpeed kRampGentle] := by
        simp only [setupLeft, hkind, left, if_neg hfirst, hsetup, List.drop_succ_cons, List.drop_zero]
      rw [if_neg hfirst]
      refine ⟨Kept.refl _, ?_, rfl, fun _ => by simp [taredBehind, hkind]⟩
      rw [setMotor_accepted, hleft]
      exact accepted_or_left _ _
  | weigh =>
    dsimp only
    by_cases htared : program.scaleTared = true
    · have hleft : setupLeft program step = [] := by simp [setupLeft, setup, hkind, htared]
      rw [if_pos htared]
      refine ⟨Kept.refl _, ?_, rfl, fun _ => by simp [taredBehind, htared]⟩
      rw [hleft, acceptedBetween_self]
      rfl
    · have hleft (tared : Bool) : setupLeft { program with scaleTared := tared } step =
          if tared then [] else [bareRequest MsgId.scaleTare] := by
        simp [setupLeft, setup, hkind]
      have hall : setupLeft program step = [bareRequest MsgId.scaleTare] := by
        simp [setupLeft, setup, hkind, htared]
      rw [if_neg htared]
      refine ⟨⟨rfl, rfl, rfl, rfl, rfl⟩, ?_, by simp [taredBehind, hkind], fun hok => ?_⟩
      · rw [tare_accepted, hleft, hall]
        by_cases hok : (c.tare now).1 = .ok <;> simp [hok]
      · simpa [taredBehind, hkind] using hok

/-- So do the requests of a teardown. -/
structure TornDown (program : GuidedRecipe) (step : RecipeStep) (c : McuClient (Tap K)) (done : Bool)
    (program' : GuidedRecipe) (c' : McuClient (Tap K)) : Prop where
  kept : Kept program program'
  accepted : acceptedBetween c c' ++ (if done then [] else teardownLeft program' step) =
    teardownLeft program step
  tared : program'.scaleTared = program.scaleTared

theorem runTeardown_tornDown (program : GuidedRecipe) (step : RecipeStep) (c : McuClient (Tap K))
    (now : Millis) :
    TornDown program step c (program.runTeardown step c now).1 (program.runTeardown step c now).2.1
      (program.runTeardown step c now).2.2 := by
  unfold runTeardown
  cases hkind : step.kind with
  | note | weigh =>
    have hleft : teardownLeft program step = [] := by simp [teardownLeft, teardown, hkind]
    refine ⟨Kept.refl _, ?_, rfl⟩
    rw [hleft, acceptedBetween_self]
    rfl
  | mix =>
    have hleft : teardownLeft program step = [bareRequest MsgId.motorStop] := by
      simp [teardownLeft, teardown, hkind]
    refine ⟨Kept.refl _, ?_, rfl⟩
    dsimp only
    rw [motorStop_accepted, hleft]
    exact accepted_or_left _ _
  | heat =>
    have hteardown : teardown step = [bareRequest MsgId.heaterOff, bareRequest MsgId.motorStop] := by
      simp [teardown, hkind]
    dsimp only
    by_cases hfirst : program.commandIndex = 0
    · have hleft : teardownLeft program step =
          [bareRequest MsgId.heaterOff, bareRequest MsgId.motorStop] := by
        simp only [teardownLeft, hkind, left, if_pos hfirst, hteardown]
      have hnext : teardownLeft { program with commandIndex := 1 } step =
          [bareRequest MsgId.motorStop] := by
        simp [teardownLeft, hkind, left, teardown]
      rw [if_pos hfirst]
      by_cases hok : (c.heaterOff now).1 = .ok
      · rw [if_pos hok]
        refine ⟨⟨rfl, rfl, rfl, rfl, rfl⟩, ?_, rfl⟩
        rw [heaterOff_accepted, hleft, hnext]
        simp [hok]
      · rw [if_neg hok]
        refine ⟨Kept.refl _, ?_, rfl⟩
        rw [heaterOff_accepted]
        simp [hok]
    · have hleft : teardownLeft program step = [bareRequest MsgId.motorStop] := by
        simp only [teardownLeft, hkind, left, if_neg hfirst, hteardown, List.drop_succ_cons,
          List.drop_zero]
      rw [if_neg hfirst]
      refine ⟨Kept.refl _, ?_, rfl⟩
      rw [motorStop_accepted, hleft]
      exact accepted_or_left _ _

theorem drop_stepsOf {recipe : Recipe} {i : ℕ} (h : i < recipe.stepCount) :
    (stepsOf recipe).drop i = recipe.step ⟨i, h⟩ :: (stepsOf recipe).drop (i + 1) := by
  have hlength : i < (stepsOf recipe).length := by rwa [stepsOf, List.length_ofFn]
  rw [List.drop_eq_getElem_cons hlength]
  congr 1
  exact List.getElem_ofFn hlength

/-- Before its first request a step leaves the schedule from there. -/
theorem remaining_before {program : GuidedRecipe} (hphase : program.phase = .setup)
    (hfirst : program.commandIndex = 0) : remaining program =
      schedule program.scaleTared program.stepIndex
        ((stepsOf program.recipe).drop program.stepIndex) := by
  unfold remaining
  cases (stepsOf program.recipe).drop program.stepIndex with
  | nil => rfl
  | cons step rest =>
    have hleft : setupLeft program step = setup program.scaleTared step := by
      unfold setupLeft left
      rw [hfirst]
      cases step.kind <;> rfl
    rw [hphase]
    dsimp only
    rw [hleft, schedule]

theorem remaining_initial (recipe : Recipe) :
    remaining { recipe } = schedule false 0 (stepsOf recipe) := remaining_before rfl rfl

/-! What is left in the middle of a step. -/

theorem remaining_inSetup {program : GuidedRecipe} {step : RecipeStep} {rest : List RecipeStep}
    (hsteps : (stepsOf program.recipe).drop program.stepIndex = step :: rest)
    (hphase : program.phase = .setup) : remaining program =
      entries program.stepIndex .setup (setupLeft program step) ++
        entries program.stepIndex .teardown (teardown step) ++
          schedule (taredBehind program.scaleTared step) (program.stepIndex + 1) rest := by
  unfold remaining
  rw [hsteps, hphase]

theorem remaining_inRun {program : GuidedRecipe} {step : RecipeStep} {rest : List RecipeStep}
    (hsteps : (stepsOf program.recipe).drop program.stepIndex = step :: rest)
    (hphase : program.phase = .run) : remaining program =
      entries program.stepIndex .teardown (teardown step) ++
        schedule program.scaleTared (program.stepIndex + 1) rest := by
  unfold remaining
  rw [hsteps, hphase]

theorem remaining_inTeardown {program : GuidedRecipe} {step : RecipeStep} {rest : List RecipeStep}
    (hsteps : (stepsOf program.recipe).drop program.stepIndex = step :: rest)
    (hphase : program.phase = .teardown) : remaining program =
      entries program.stepIndex .teardown (teardownLeft program step) ++
        schedule program.scaleTared (program.stepIndex + 1) rest := by
  unfold remaining
  rw [hsteps, hphase]

theorem teardownLeft_first {program : GuidedRecipe} (h : program.commandIndex = 0) (step : RecipeStep) :
    teardownLeft program step = teardown step := by
  unfold teardownLeft left
  rw [if_pos h]
  cases step.kind <;> rfl

/-- Step lemma: a tick moves requests from what is left to the client. -/
theorem onTick_remaining (program : GuidedRecipe) (c : McuClient (Tap K)) (now elapsed : Millis) :
    entries program.stepIndex program.phase (acceptedBetween c (program.onTick c now elapsed).2) ++
        remaining (program.onTick c now elapsed).1 = remaining program := by
  unfold onTick
  by_cases hstep : program.stepIndex < program.recipe.stepCount
  · rw [dif_pos hstep]
    have hsteps := drop_stepsOf hstep
    generalize program.recipe.step ⟨program.stepIndex, hstep⟩ = step at hsteps ⊢
    generalize hrest : (stepsOf program.recipe).drop (program.stepIndex + 1) = rest at hsteps
    have hkept {program' : GuidedRecipe} (h : Kept program program') :
        (stepsOf program'.recipe).drop program'.stepIndex = step :: rest := by
      rw [h.recipe, h.stepIndex, hsteps]
    cases hphase : program.phase with
    | setup =>
      rw [remaining_inSetup hsteps hphase]
      have hsetup := runSetup_setUp program step c now
      dsimp only
      generalize program.runSetup step c now = outcome at hsetup
      obtain ⟨done, program', c'⟩ := outcome
      obtain ⟨kept, haccepted, htared, hcomplete⟩ := hsetup
      have hsteps' := hkept kept
      have hindex : program'.stepIndex = program.stepIndex := kept.stepIndex
      rw [← haccepted, entries_append]
      cases done with
      | true =>
        have hafter : remaining { program' with
            stepStartedMs := elapsed, commandIndex := 0, phase := .run } =
              entries program'.stepIndex .teardown (teardown step) ++
                schedule program'.scaleTared (program'.stepIndex + 1) rest :=
          remaining_inRun hsteps' rfl
        dsimp only
        rw [hafter, hcomplete rfl, hindex, if_pos rfl]
        simp only [entries, List.map_nil, List.append_nil, List.append_assoc]
      | false =>
        have hafter := remaining_inSetup hsteps' (kept.phase.trans hphase)
        dsimp only at htared hafter ⊢
        rw [hafter, htared, hindex, if_neg Bool.false_ne_true]
        simp only [List.append_assoc]
    | run =>
      rw [remaining_inRun hsteps hphase]
      dsimp only
      rw [acceptedBetween_self]
      change remaining _ = _
      split
      · have hafter : remaining { program with commandIndex := 0, phase := .teardown } =
            entries program.stepIndex .teardown (teardownLeft _ step) ++
              schedule program.scaleTared (program.stepIndex + 1) rest :=
          remaining_inTeardown hsteps rfl
        rw [hafter, teardownLeft_first rfl]
      · exact remaining_inRun hsteps hphase
    | teardown =>
      rw [remaining_inTeardown hsteps hphase]
      have hteardown := runTeardown_tornDown program step c now
      dsimp only
      generalize program.runTeardown step c now = outcome at hteardown
      obtain ⟨done, program', c'⟩ := outcome
      obtain ⟨kept, haccepted, htared⟩ := hteardown
      have hsteps' := hkept kept
      have hindex : program'.stepIndex = program.stepIndex := kept.stepIndex
      rw [← haccepted, entries_append]
      cases done with
      | true =>
        have hafter : remaining program'.advance =
            schedule program.scaleTared (program.stepIndex + 1) rest := by
          rw [remaining_before rfl rfl]
          unfold advance
          dsimp only at htared ⊢
          rw [htared, kept.recipe, hindex, hrest]
        dsimp only
        rw [hafter, if_pos rfl]
        simp only [entries, List.map_nil, List.append_nil]
      | false =>
        have hafter := remaining_inTeardown hsteps' (kept.phase.trans hphase)
        dsimp only at htared hafter ⊢
        rw [hafter, htared, hindex, if_neg Bool.false_ne_true, List.append_assoc]
  · rw [dif_neg hstep, acceptedBetween_self]
    rfl

/-! Where a tick leaves the recipe. -/

/-- A tick stays in its phase, or moves to the next one when the phase is complete. -/
inductive Moved (program : GuidedRecipe) (c : McuClient K) (elapsed : Millis) (program' : GuidedRecipe) :
    Prop
  | stays (kept : Kept program program')
  | begins (phase : program.phase = .setup)
      (kept : Kept { program with phase := .run, stepStartedMs := elapsed } program')
  | ends (h : program.stepIndex < program.recipe.stepCount) (phase : program.phase = .run)
      (done : program.stepDone (program.recipe.step ⟨program.stepIndex, h⟩) c elapsed = true)
      (kept : Kept { program with phase := .teardown } program')
  | leaves (h : program.stepIndex < program.recipe.stepCount) (phase : program.phase = .teardown)
      (kept : Kept program.advance program')

theorem onTick_moved (program : GuidedRecipe) (c : McuClient (Tap K)) (now elapsed : Millis) :
    Moved program c elapsed (program.onTick c now elapsed).1 := by
  unfold onTick
  by_cases hstep : program.stepIndex < program.recipe.stepCount
  · rw [dif_pos hstep]
    cases hphase : program.phase with
    | setup =>
      have hsetup := runSetup_setUp program (program.recipe.step ⟨program.stepIndex, hstep⟩) c now
      dsimp only
      generalize program.runSetup (program.recipe.step ⟨program.stepIndex, hstep⟩) c now = outcome
        at hsetup
      obtain ⟨done, program', c'⟩ := outcome
      obtain ⟨hrecipe, hindex, hphase', hstarted, hrequested⟩ := hsetup.kept
      cases done with
      | true => exact Moved.begins hphase ⟨hrecipe, hindex, rfl, rfl, hrequested⟩
      | false => exact Moved.stays ⟨hrecipe, hindex, hphase', hstarted, hrequested⟩
    | run =>
      dsimp only
      split
      · rename_i hdone
        exact Moved.ends hstep hphase hdone ⟨rfl, rfl, rfl, rfl, rfl⟩
      · exact Moved.stays (Kept.refl _)
    | teardown =>
      have hteardown :=
        runTeardown_tornDown program (program.recipe.step ⟨program.stepIndex, hstep⟩) c now
      dsimp only
      generalize program.runTeardown (program.recipe.step ⟨program.stepIndex, hstep⟩) c now = outcome
        at hteardown
      obtain ⟨done, program', c'⟩ := outcome
      obtain ⟨hrecipe, hindex, hphase', hstarted, hrequested⟩ := hteardown.kept
      cases done with
      | true => exact Moved.leaves hstep hphase ⟨hrecipe, congrArg (· + 1) hindex, rfl, hstarted, rfl⟩
      | false => exact Moved.stays ⟨hrecipe, hindex, hphase', hstarted, hrequested⟩
  · rw [dif_neg hstep]
    exact Moved.stays (Kept.refl _)

/-! Runs. -/

/-- A request that was accepted, and when. -/
structure Sent where
  entry : Entry
  elapsed : ℕ

structure Session where
  program : GuidedRecipe
  elapsed : ℕ := 0
  sent : List Sent := []

/-- The client of a tick is any: its telemetry, its pending requests and its link are whatever they
have become. -/
inductive Event (K : Type) where
  | tick (client : McuClient (Tap K)) (now : Millis) (elapsed : ℕ)
  | userNext

def start (recipe : Recipe) : Session := { program := { recipe } }

def next (s : Session) : Event K → Session
  | .tick c now elapsed =>
      let out := s.program.onTick c now (BitVec.ofNat 32 elapsed)
      { program := out.1
        elapsed
        sent := s.sent ++ (entries s.program.stepIndex s.program.phase (acceptedBetween c out.2)).map
          fun entry => ⟨entry, elapsed⟩ }
  | .userNext => { s with program := s.program.userNext }

/-- The elapsed time never goes back and fits its counter. -/
def Timely (s : Session) : Event K → Prop
  | .tick _ _ elapsed => s.elapsed ≤ elapsed ∧ elapsed < 2 ^ 32
  | .userNext => True

/-- Step lemma: what was sent and what is left make up the same list. -/
theorem next_schedule (s : Session) (event : Event K) :
    (next s event).sent.map Sent.entry ++ remaining (next s event).program =
      s.sent.map Sent.entry ++ remaining s.program := by
  cases event with
  | tick c now elapsed =>
    have hremaining := onTick_remaining s.program c now (BitVec.ofNat 32 elapsed)
    unfold next
    dsimp only
    rw [List.map_append, List.map_map, List.append_assoc]
    change _ ++ (List.map id _ ++ _) = _
    rw [List.map_id, hremaining]
  | userNext => rfl

/-- Run lemma. -/
theorem foldl_schedule (s : Session) (events : List (Event K)) :
    (events.foldl next s).sent.map Sent.entry ++ remaining (events.foldl next s).program =
      s.sent.map Sent.entry ++ remaining s.program := by
  induction events generalizing s with
  | nil => rfl
  | cons event rest ih => exact (ih (next s event)).trans (next_schedule s event)

theorem remaining_finished {program : GuidedRecipe} (h : program.finished = true) :
    remaining program = [] := by
  have hpast : program.recipe.stepCount ≤ program.stepIndex := of_decide_eq_true h
  have hnil : (stepsOf program.recipe).drop program.stepIndex = [] := by
    rwa [List.drop_eq_nil_iff, stepsOf, List.length_ofFn]
  unfold remaining
  rw [hnil]

theorem next_recipe (s : Session) (event : Event K) :
    (next s event).program.recipe = s.program.recipe := by
  cases event with
  | tick c now elapsed =>
    change (s.program.onTick c now (BitVec.ofNat 32 elapsed)).1.recipe = _
    cases onTick_moved s.program c now (BitVec.ofNat 32 elapsed) with
    | stays kept => exact kept.recipe
    | begins _ kept => exact kept.recipe
    | ends _ _ _ kept => exact kept.recipe
    | leaves _ _ kept => exact kept.recipe
  | userNext => rfl

theorem foldl_recipe (s : Session) (events : List (Event K)) :
    (events.foldl next s).program.recipe = s.program.recipe := by
  induction events generalizing s with
  | nil => rfl
  | cons event rest ih => exact (ih (next s event)).trans (next_recipe s event)

/-! The times. -/

/-- How long a step runs. -/
def heldMs (step : RecipeStep) : ℕ :=
  match step.kind with
  | .mix | .heat => step.durationS.toNat * 1000
  | .note | .weigh => 0

omit [LinkPort K] in
/-- A step that is done has run its time. -/
theorem held_of_done {program : GuidedRecipe} {step : RecipeStep} (hstep : step.WellFormed)
    {c : McuClient K} {started elapsed : ℕ} (hstarted : program.stepStartedMs = BitVec.ofNat 32 started)
    (hle : started ≤ elapsed) (hfits : elapsed < 2 ^ 32)
    (hdone : program.stepDone step c (BitVec.ofNat 32 elapsed) = true) :
    started + heldMs step ≤ elapsed := by
  have htimed (htime : step.durationS.toNat ≤ 86400)
      (hdone : BitVec.ofNat 32 elapsed - program.stepStartedMs ≥ step.durationS * 1000) :
      started + step.durationS.toNat * 1000 ≤ elapsed := by
    rw [hstarted, ge_iff_le, BitVec.le_def,
      Counters.ofNat_sub_ofNat hle (lt_of_le_of_lt (Nat.sub_le _ _) hfits)] at hdone
    have hproduct : (step.durationS * 1000).toNat = step.durationS.toNat * 1000 := by
      rw [BitVec.toNat_mul]
      exact Nat.mod_eq_of_lt (by change step.durationS.toNat * 1000 < _; omega)
    omega
  unfold stepDone at hdone
  unfold heldMs
  cases hstep with
  | note kind =>
    rw [kind]
    exact hle
  | mix kind _ time =>
    rw [kind] at hdone ⊢
    exact htimed time.2 (of_decide_eq_true hdone)
  | heat kind _ _ time =>
    rw [kind] at hdone ⊢
    exact htimed time.2 (of_decide_eq_true hdone)
  | weigh kind =>
    rw [kind]
    exact hle

/-- A step whose setup is complete began at a time, and tears down only after it ran. -/
structure Begun (s : Session) (started : ℕ) : Prop where
  shown : s.program.stepStartedMs = BitVec.ofNat 32 started
  past : started ≤ s.elapsed
  setUp : ∀ x ∈ s.sent, x.entry.index = s.program.stepIndex → x.entry.phase = .setup →
    x.elapsed ≤ started
  held : s.program.phase = .teardown → ∀ h : s.program.stepIndex < s.program.recipe.stepCount,
    started + heldMs (s.program.recipe.step ⟨s.program.stepIndex, h⟩) ≤ s.elapsed

/-- A step tears down only after it ran. -/
def Apart (recipe : Recipe) (sent : List Sent) : Prop :=
  ∀ x ∈ sent, ∀ y ∈ sent, x.entry.index = y.entry.index → x.entry.phase = .setup →
    y.entry.phase = .teardown → ∀ h : x.entry.index < recipe.stepCount,
      x.elapsed + heldMs (recipe.step ⟨x.entry.index, h⟩) ≤ y.elapsed

structure Timed (s : Session) : Prop where
  recipe : s.program.recipe.WellFormed
  past : ∀ x ∈ s.sent, x.entry.index ≤ s.program.stepIndex ∧ x.elapsed ≤ s.elapsed
  untorn : s.program.phase ≠ .teardown →
    ∀ x ∈ s.sent, x.entry.index = s.program.stepIndex → x.entry.phase ≠ .teardown
  begun : s.program.phase ≠ .setup → ∃ started, Begun s started
  apart : Apart s.program.recipe s.sent

theorem start_timed {recipe : Recipe} (h : recipe.WellFormed) : Timed (start recipe) where
  recipe := h
  past := nofun
  untorn _ := nofun
  begun hphase := absurd rfl hphase
  apart := nofun

theorem Timed.keep {s : Session} (h : Timed s) {program' : GuidedRecipe}
    (kept : Kept s.program program') : Timed { s with program := program' } := by
  obtain ⟨recipe, stepIndex, phase, commandIndex, started, requested, tared⟩ := program'
  obtain ⟨rfl, rfl, rfl, rfl, rfl⟩ := kept
  refine ⟨h.recipe, h.past, h.untorn, fun hphase => ?_, h.apart⟩
  obtain ⟨started, hshown, hpast, hsetUp, hheld⟩ := h.begun hphase
  exact ⟨started, hshown, hpast, hsetUp, hheld⟩

/-- Requests of the phase the step is in. -/
theorem Timed.send {s : Session} (h : Timed s) {elapsed : ℕ} (hle : s.elapsed ≤ elapsed)
    (requests : List Request) :
    Timed { s with
      elapsed
      sent := s.sent ++ (entries s.program.stepIndex s.program.phase requests).map
        fun entry => ⟨entry, elapsed⟩ } := by
  have hnew {x : Sent} (hx : x ∈ (entries s.program.stepIndex s.program.phase requests).map
      fun entry => (⟨entry, elapsed⟩ : Sent)) : x.entry.index = s.program.stepIndex ∧
        x.entry.phase = s.program.phase ∧ x.elapsed = elapsed := by
    obtain ⟨entry, hentry, rfl⟩ := List.mem_map.mp hx
    obtain ⟨request, -, rfl⟩ := List.mem_map.mp hentry
    exact ⟨rfl, rfl, rfl⟩
  constructor
  · exact h.recipe
  · intro x hx
    rcases List.mem_append.mp hx with hx | hx
    · exact ⟨(h.past x hx).1, le_trans (h.past x hx).2 hle⟩
    · obtain ⟨hindex, -, helapsed⟩ := hnew hx
      exact ⟨le_of_eq hindex, le_of_eq helapsed⟩
  · intro hphase x hx hindex
    rcases List.mem_append.mp hx with hx | hx
    · exact h.untorn hphase x hx hindex
    · rw [(hnew hx).2.1]
      exact hphase
  · intro hphase
    obtain ⟨started, hshown, hpast, hsetUp, hheld⟩ := h.begun hphase
    refine ⟨started, hshown, le_trans hpast hle, fun x hx hindex hsetup => ?_,
      fun hteardown hstep => le_trans (hheld hteardown hstep) hle⟩
    rcases List.mem_append.mp hx with hx | hx
    · exact hsetUp x hx hindex hsetup
    · exact absurd ((hnew hx).2.1.symm.trans hsetup) hphase
  · intro x hx y hy hsame hsetup hteardown hstep
    rcases List.mem_append.mp hx with hx | hx
    · rcases List.mem_append.mp hy with hy | hy
      · exact h.apart x hx y hy hsame hsetup hteardown hstep
      · obtain ⟨hindex, hphase, helapsed⟩ := hnew hy
        rw [hteardown] at hphase
        obtain ⟨started, -, -, hsetUp, hheld⟩ := h.begun (by rw [← hphase]; exact nofun)
        obtain ⟨⟨index, phase, request⟩, elapsed'⟩ := x
        dsimp only at hsame hsetup hstep ⊢
        subst hsame
        rw [hindex] at hstep
        have hbefore : elapsed' ≤ started := hsetUp _ hx hindex hsetup
        have hran := hheld hphase.symm hstep
        simp only [hindex]
        omega
    · obtain ⟨hindex, hphase, -⟩ := hnew hx
      rw [hsetup] at hphase
      rcases List.mem_append.mp hy with hy | hy
      · exact absurd hteardown (h.untorn (by rw [← hphase]; exact nofun) y hy (hsame ▸ hindex))
      · have hphase' := (hnew hy).2.1
        rw [hteardown, ← hphase] at hphase'
        cases hphase'

omit [LinkPort K] in
theorem Timed.move {s : Session} (h : Timed s) (hfits : s.elapsed < 2 ^ 32) {c : McuClient K}
    {program' : GuidedRecipe} (hmoved : Moved s.program c (BitVec.ofNat 32 s.elapsed) program') :
    Timed { s with program := program' } := by
  cases hmoved with
  | stays kept => exact h.keep kept
  | begins hphase kept =>
    have hbegun : Timed { s with
        program := { s.program with phase := .run, stepStartedMs := BitVec.ofNat 32 s.elapsed } } := by
      refine ⟨h.recipe, h.past, fun _ => h.untorn (by rw [hphase]; exact nofun), fun _ => ?_, h.apart⟩
      exact ⟨s.elapsed, rfl, le_refl _, fun x hx _ _ => (h.past x hx).2, nofun⟩
    exact hbegun.keep kept
  | ends hstep hphase done kept =>
    have hended : Timed { s with program := { s.program with phase := .teardown } } := by
      refine ⟨h.recipe, h.past, fun hne => absurd rfl hne, fun _ => ?_, h.apart⟩
      obtain ⟨started, hshown, hpast, hsetUp, -⟩ := h.begun (by rw [hphase]; exact nofun)
      exact ⟨started, hshown, hpast, hsetUp,
        fun _ _ => held_of_done (h.recipe.step _) hshown hpast hfits done⟩
    exact hended.keep kept
  | leaves hstep hphase kept =>
    have hleft : Timed { s with program := s.program.advance } := by
      refine ⟨h.recipe, fun x hx => ?_, fun _ x hx hindex => ?_, fun hne => absurd rfl hne, h.apart⟩
      · exact ⟨Nat.le_succ_of_le (h.past x hx).1, (h.past x hx).2⟩
      · have hbefore := (h.past x hx).1
        change x.entry.index = s.program.stepIndex + 1 at hindex
        omega
    exact hleft.keep kept

/-- Step lemma. -/
theorem next_timed {s : Session} (h : Timed s) {event : Event K} (htimely : Timely s event) :
    Timed (next s event) := by
  cases event with
  | tick c now elapsed =>
    obtain ⟨hle, hfits⟩ := htimely
    have hsent := h.send hle
      (acceptedBetween c (s.program.onTick c now (BitVec.ofNat 32 elapsed)).2)
    exact hsent.move hfits (onTick_moved s.program c now (BitVec.ofNat 32 elapsed))
  | userNext =>
    obtain ⟨hrecipe, hpast, huntorn, hbegun, hapart⟩ := h
    refine ⟨hrecipe, hpast, huntorn, fun hphase => ?_, hapart⟩
    obtain ⟨started, hshown, hpast, hsetUp, hheld⟩ := hbegun hphase
    exact ⟨started, hshown, hpast, hsetUp, hheld⟩

/-- Run lemma. -/
theorem foldl_timed {s : Session} (h : Timed s) (events : List (Event K))
    (htimely : Along Timely next s events) : Timed (events.foldl next s) := by
  induction events generalizing s with
  | nil => exact h
  | cons event rest ih => exact ih (next_timed h htimely.1) htimely.2

/-! The user. -/

/-- Since the step before was left the user has pressed on. -/
def PressedSince (recipe : Recipe) (events : List (Event K)) (index : ℕ) : Prop :=
  ∃ earlier later, events = earlier ++ .userNext :: later ∧
    (earlier.foldl next (start recipe)).program.stepIndex = index

/-- A press that counts is one of the step, and a note ends with one. -/
structure Pressed (recipe : Recipe) (events : List (Event K)) (program : GuidedRecipe) : Prop where
  requested : program.advanceRequested = true → PressedSince recipe events program.stepIndex
  note : program.phase = .teardown → ∀ h : program.stepIndex < program.recipe.stepCount,
    (program.recipe.step ⟨program.stepIndex, h⟩).kind = .note → program.advanceRequested = true

theorem PressedSince.snoc {recipe : Recipe} {events : List (Event K)} {index : ℕ}
    (h : PressedSince recipe events index) (event : Event K) :
    PressedSince recipe (events ++ [event]) index := by
  obtain ⟨earlier, later, rfl, hindex⟩ := h
  exact ⟨earlier, later ++ [event], by simp, hindex⟩

theorem Pressed.keep {recipe : Recipe} {events : List (Event K)} {program program' : GuidedRecipe}
    (h : Pressed recipe events program) (kept : Kept program program') :
    Pressed recipe events program' := by
  obtain ⟨recipe, stepIndex, phase, commandIndex, started, requested, tared⟩ := program'
  obtain ⟨rfl, rfl, rfl, rfl, rfl⟩ := kept
  exact ⟨h.requested, h.note⟩

theorem Pressed.move {recipe : Recipe} {events : List (Event K)} {program program' : GuidedRecipe}
    (h : Pressed recipe events program) {c : McuClient (Tap K)} {elapsed : Millis}
    (hmoved : Moved program c elapsed program') : Pressed recipe events program' := by
  cases hmoved with
  | stays kept => exact h.keep kept
  | begins _ kept =>
    have hbegun : Pressed recipe events { program with phase := .run, stepStartedMs := elapsed } :=
      ⟨h.requested, nofun⟩
    exact hbegun.keep kept
  | ends hstep _ done kept =>
    have hended : Pressed recipe events { program with phase := .teardown } := by
      refine ⟨h.requested, fun _ _ hnote => ?_⟩
      unfold stepDone at done
      dsimp only at hnote
      rw [hnote] at done
      exact done
    exact hended.keep kept
  | leaves _ _ kept =>
    have hleft : Pressed recipe events program.advance := ⟨nofun, nofun⟩
    exact hleft.keep kept

/-- Run lemma. -/
theorem foldl_pressed (recipe : Recipe) (events : List (Event K)) :
    Pressed recipe events (events.foldl next (start recipe)).program := by
  induction events using List.reverseRecOn with
  | nil => exact ⟨nofun, nofun⟩
  | append_singleton events event ih =>
    rw [List.foldl_append, List.foldl_cons, List.foldl_nil]
    have hlater : Pressed recipe (events ++ [event]) (events.foldl next (start recipe)).program :=
      ⟨fun hrequested => (ih.requested hrequested).snoc event, ih.note⟩
    cases event with
    | tick c now elapsed =>
      have hmoved := onTick_moved (events.foldl next (start recipe)).program c now
        (BitVec.ofNat 32 elapsed)
      exact hlater.move hmoved
    | userNext => exact ⟨fun _ => ⟨events, [], rfl, rfl⟩, fun _ _ _ => rfl⟩

/-- A note is left only after a press of its own. -/
theorem pressed_of_left (recipe : Recipe) (events : List (Event K)) (event : Event K) :
    let s := events.foldl next (start recipe)
    (next s event).program.stepIndex ≠ s.program.stepIndex →
      ∀ h : s.program.stepIndex < recipe.stepCount, (recipe.step ⟨_, h⟩).kind = .note →
        PressedSince recipe events s.program.stepIndex := by
  intro s hleft h hnote
  have hpressed := foldl_pressed recipe events
  have hkind (recipe' : Recipe) (hrecipe : recipe' = recipe)
      (hstep : s.program.stepIndex < recipe'.stepCount) : (recipe'.step ⟨_, hstep⟩).kind = .note := by
    subst hrecipe
    exact hnote
  have hrecipe : s.program.recipe = recipe := foldl_recipe (start recipe) events
  cases event with
  | userNext => exact absurd rfl hleft
  | tick c now elapsed =>
    cases onTick_moved s.program c now (BitVec.ofNat 32 elapsed) with
    | stays kept => exact absurd kept.stepIndex hleft
    | begins _ kept => exact absurd kept.stepIndex hleft
    | ends _ _ _ kept => exact absurd kept.stepIndex hleft
    | leaves hstep hphase _ =>
      exact hpressed.requested (hpressed.note hphase hstep (hkind _ hrecipe hstep))

/-! The order. -/

/-- Whatever the client refuses, whatever is measured and whenever the user presses on: what was sent
is a prefix of the schedule, all of it when the recipe is finished; a step tears down only after it
ran; and a note is left only after a press of its own. -/
theorem recipe_order {path : Option CStrings.File} {out recipe : Recipe}
    (hparsed : parseRecipeFile path out = (.ok, recipe)) (events : List (Event K))
    (htimely : Along Timely next (start recipe) events) :
    let s := events.foldl next (start recipe)
    s.sent.map Sent.entry <+: schedule false 0 (stepsOf recipe) ∧
      (s.program.finished = true → s.sent.map Sent.entry = schedule false 0 (stepsOf recipe)) ∧
      Apart recipe s.sent ∧
      ∀ event : Event K, (next s event).program.stepIndex ≠ s.program.stepIndex →
        ∀ h : s.program.stepIndex < recipe.stepCount, (recipe.step ⟨_, h⟩).kind = .note →
          PressedSince recipe events s.program.stepIndex := by
  intro s
  have hschedule : s.sent.map Sent.entry ++ remaining s.program =
      schedule false 0 (stepsOf recipe) :=
    (foldl_schedule (start recipe) events).trans (remaining_initial recipe)
  have hrecipe : s.program.recipe = recipe := foldl_recipe (start recipe) events
  have htimed := foldl_timed (start_timed (parseRecipeFile_wellFormed hparsed)) events htimely
  refine ⟨⟨remaining s.program, hschedule⟩, fun hfinished => ?_, ?_, pressed_of_left recipe events⟩
  · rw [← hschedule, remaining_finished hfinished, List.append_nil]
  · rw [← hrecipe]
    exact htimed.apart

/-- A recipe of one mix step. -/
def mixFile : CStrings.File where
  bytes := CStrings.codes ("name: Tea\nstep: mix|speed=3|time=1".toList)

/-- The first tick is refused, because the client still waits for a response. -/
def mixRun : List (Event Packets.FrameLink) :=
  [.tick { link := { link := {} }, waiting := true } 0 0, .tick { link := { link := {} } } 10 10, .userNext,
    .tick { link := { link := {} } } 1010 1010, .tick { link := { link := {} } } 1020 1020]

theorem recipe_order_mix :
    ∃ recipe, parseRecipeFile (some mixFile) {} = (.ok, recipe) ∧
      (mixRun.foldl next (start recipe)).program.finished = true ∧
      (mixRun.foldl next (start recipe)).sent.map Sent.entry = schedule false 0 (stepsOf recipe) := by
  have hok : (parseRecipeFile (some mixFile) {}).1 = .ok := by decide +kernel
  have hparse : parseRecipeFile (some mixFile) {} =
      (.ok, (parseRecipeFile (some mixFile) {}).2) := by
    rw [← hok, Prod.mk.eta]
  have htimely : Along Timely next (start (parseRecipeFile (some mixFile) {}).2) mixRun :=
    ⟨⟨le_refl 0, by decide⟩, ⟨Nat.zero_le 10, by decide⟩, trivial, ⟨(by decide : 10 ≤ 1010), by decide⟩,
      ⟨(by decide : 1010 ≤ 1020), by decide⟩, trivial⟩
  have hfinished : (mixRun.foldl next (start (parseRecipeFile (some mixFile) {}).2)).program.finished =
      true := by decide +kernel
  exact ⟨_, hparse, hfinished, (recipe_order hparse mixRun htimely).2.1 hfinished⟩

end Culina.RecipeOrder
