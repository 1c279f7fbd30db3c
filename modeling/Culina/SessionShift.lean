import Culina.ClockShift
import Culina.Programs

/-!
The application with its clock moved: the client, the telemetry history and the cooking
session. What a program keeps is counted from the start of its session and does not move.
-/
namespace Culina.SessionShift

open Wire Services Ports Client McuClient Cooking CookingController Sessions Programs ClockShift

/-! The telemetry history. -/

instance : VAdd Millis Sample where
  vadd offset sample := { sample with tMs := offset + sample.tMs }

instance : VAdd Millis TelemetryStore where
  vadd offset store := ⟨store.samples.map fun sample => offset +ᵥ sample⟩

section History

variable (offset : Millis) (store : TelemetryStore)

theorem samples_vadd :
    (offset +ᵥ store).samples = store.samples.map fun sample => offset +ᵥ sample := rfl

theorem append_vadd (sample : Sample) :
    (offset +ᵥ store).append (offset +ᵥ sample) = offset +ᵥ store.append sample := by
  have hsamples : (store.samples.map fun sample => offset +ᵥ sample) ++ [offset +ᵥ sample] =
      (store.samples ++ [sample]).map fun sample => offset +ᵥ sample := by
    rw [List.map_append, List.map_singleton]
  unfold TelemetryStore.append
  rw [samples_vadd, hsamples]
  dsimp only
  rw [List.length_map]
  split_ifs
  · exact congrArg TelemetryStore.mk (List.map_tail).symm
  · rfl

/-- The latest sample keeps its measurements. -/
theorem latest_vadd : ∃ tMs, (offset +ᵥ store).latest = { store.latest with tMs } := by
  have hlatest : (offset +ᵥ store).latest =
      (store.samples.map fun sample => offset +ᵥ sample).getLast?.getD {} := rfl
  rw [hlatest, List.getLast?_map]
  unfold TelemetryStore.latest
  cases store.samples.getLast? with
  | none => exact ⟨0, rfl⟩
  | some sample => exact ⟨offset + sample.tMs, rfl⟩

theorem hasData_vadd : (offset +ᵥ store).hasData = store.hasData := by
  unfold TelemetryStore.hasData
  exact congrArg not List.isEmpty_map

theorem window_vadd (windowMs : Millis) :
    (offset +ᵥ store).window windowMs = (store.window windowMs).map fun sample => offset +ᵥ sample := by
  have hwindow : (offset +ᵥ store).window windowMs =
      (store.samples.map fun sample => offset +ᵥ sample).reverse.takeWhile fun sample =>
        ¬ ((offset +ᵥ store).latest.tMs - sample.tMs > windowMs) := rfl
  have hlatest : (offset +ᵥ store).latest =
      (store.samples.map fun sample => offset +ᵥ sample).getLast?.getD {} := rfl
  rw [hwindow, hlatest, ← List.map_reverse, List.takeWhile_map, List.getLast?_map]
  unfold TelemetryStore.window TelemetryStore.latest
  cases hlast : store.samples.getLast? with
  | none =>
    rw [List.getLast?_eq_none_iff.mp hlast]
    rfl
  | some last =>
    have hage (sample : Sample) : (offset +ᵥ last).tMs - (offset +ᵥ sample).tMs = last.tMs - sample.tMs :=
      sub_offset offset last.tMs sample.tMs
    simp only [Option.map_some, Option.getD_some, Function.comp_def, hage]

theorem averageTempC_vadd (windowMs : Millis) :
    (offset +ᵥ store).averageTempC windowMs = store.averageTempC windowMs := by
  unfold TelemetryStore.averageTempC
  rw [window_vadd]
  dsimp only
  rw [List.length_map, List.map_map]
  rfl

theorem maxTempC_vadd (windowMs : Millis) :
    (offset +ᵥ store).maxTempC windowMs = store.maxTempC windowMs := by
  have hempty : (offset +ᵥ store).samples.isEmpty = store.samples.isEmpty := List.isEmpty_map
  unfold TelemetryStore.maxTempC
  rw [window_vadd, hempty, List.foldl_map]
  rfl

end History

/-! The client. -/

variable {K P : Type} [VAdd Millis K]

instance : VAdd Millis (McuClient K) where
  vadd offset c :=
    { c with
      link := offset +ᵥ c.link
      store := offset +ᵥ c.store
      sentAtMs := offset + c.sentAtMs
      requestStartedMs := offset + c.requestStartedMs
      lastTxMs := offset + c.lastTxMs }

section Requests

variable (offset : Millis) (c : McuClient K)

theorem link_vadd : (offset +ᵥ c).link = offset +ᵥ c.link := rfl

theorem store_vadd : (offset +ᵥ c).store = offset +ᵥ c.store := rfl

theorem nextSeq_vadd : (offset +ᵥ c).nextSeq = c.nextSeq := rfl

theorem waiting_vadd : (offset +ᵥ c).waiting = c.waiting := rfl

theorem responseReady_vadd : (offset +ᵥ c).responseReady = c.responseReady := rfl

theorem retried_vadd : (offset +ᵥ c).retried = c.retried := rfl

theorem pending_vadd :
    (offset +ᵥ c).pendingMsgId = c.pendingMsgId ∧ (offset +ᵥ c).pendingPayload = c.pendingPayload :=
  ⟨rfl, rfl⟩

variable [LinkPort K] [ClockedPort K]

theorem request_vadd (now : Millis) (id : MsgId) (payload : List Byte) :
    (offset +ᵥ c).request (offset + now) id payload =
      ((c.request now id payload).1, offset +ᵥ (c.request now id payload).2) := by
  unfold McuClient.request
  rw [link_vadd, waiting_vadd, responseReady_vadd, nextSeq_vadd, ClockedPort.send_vadd]
  by_cases hbusy : c.waiting = true ∨ c.responseReady = true
  · rw [if_pos hbusy, if_pos hbusy]
  · rw [if_neg hbusy, if_neg hbusy]
    by_cases hlong : payload.length > kMaxPayload
    · rw [if_pos hlong, if_pos hlong]
    · rw [if_neg hlong, if_neg hlong]
      rcases LinkPort.send c.link .request c.nextSeq id payload with ⟨_ | _, link⟩ <;> rfl

theorem retry_vadd (now : Millis) : (offset +ᵥ c).retry (offset + now) = offset +ᵥ c.retry now := by
  unfold McuClient.retry
  rw [link_vadd, nextSeq_vadd, (pending_vadd offset c).1, (pending_vadd offset c).2,
    ClockedPort.send_vadd]
  rcases LinkPort.send c.link .request c.nextSeq c.pendingMsgId c.pendingPayload with ⟨_ | _, link⟩ <;>
    rfl

theorem giveUp_vadd : (offset +ᵥ c).giveUp = offset +ᵥ c.giveUp := by
  have hcancel := ClockedPort.cancel_vadd offset c.link
  change ({ offset +ᵥ c with
      link := LinkPort.cancelPendingTx (offset +ᵥ c.link)
      waiting := false
      lastCommandStatus := .timeout } : McuClient K) = _
  rw [hcancel]
  rfl

theorem pollTimers_vadd (now : Millis) :
    (offset +ᵥ c).pollTimers (offset + now) = offset +ᵥ c.pollTimers now := by
  have hage : offset + now - (offset +ᵥ c).requestStartedMs = now - c.requestStartedMs :=
    sub_offset offset now c.requestStartedMs
  have hsent : offset + now - (offset +ᵥ c).sentAtMs = now - c.sentAtMs :=
    sub_offset offset now c.sentAtMs
  unfold McuClient.pollTimers
  rw [hage, hsent, waiting_vadd, retried_vadd, giveUp_vadd, retry_vadd]
  split_ifs <;> rfl

theorem heartbeat_vadd (now : Millis) :
    (offset +ᵥ c).heartbeat (offset + now) = offset +ᵥ c.heartbeat now := by
  unfold McuClient.heartbeat
  rw [link_vadd, nextSeq_vadd, ClockedPort.send_vadd]
  rcases LinkPort.send c.link .request c.nextSeq MsgId.ping [] with ⟨_ | _, link⟩ <;> rfl

theorem pollHeartbeat_vadd (now : Millis) :
    (offset +ᵥ c).pollHeartbeat (offset + now) = offset +ᵥ c.pollHeartbeat now := by
  have hidle : offset + now - (offset +ᵥ c).lastTxMs = now - c.lastTxMs :=
    sub_offset offset now c.lastTxMs
  unfold McuClient.pollHeartbeat
  rw [hidle, waiting_vadd, heartbeat_vadd]
  split_ifs <;> rfl

omit [LinkPort K] [ClockedPort K] in
theorem receive_vadd (frame : Frame) (now : Millis) :
    (offset +ᵥ c).receive frame (offset + now) = offset +ᵥ c.receive frame now := by
  unfold McuClient.receive
  by_cases hsample : IsSample frame
  · rw [if_pos hsample, if_pos hsample]
    have happend := append_vadd offset c.store (sampleOf frame now)
    change ({ offset +ᵥ c with
      store := (offset +ᵥ c.store).append (offset +ᵥ sampleOf frame now) } : McuClient K) = _
    rw [happend]
    rfl
  · rw [if_neg hsample, if_neg hsample]
    by_cases hfault : IsFault frame
    · rw [if_pos hfault, if_pos hfault]
      rfl
    · rw [if_neg hfault, if_neg hfault]
      by_cases hmatches : c.Matches frame
      · have hmatches' : (offset +ᵥ c).Matches frame := hmatches
        rw [if_pos hmatches, if_pos hmatches']
        rfl
      · have hmatches' : ¬ (offset +ᵥ c).Matches frame := hmatches
        rw [if_neg hmatches, if_neg hmatches']

theorem pollFrames_vadd (fuel : ℕ) (now : Millis) :
    (offset +ᵥ c).pollFrames fuel (offset + now) = offset +ᵥ c.pollFrames fuel now := by
  induction fuel generalizing c with
  | zero => rfl
  | succ fuel ih =>
    unfold McuClient.pollFrames
    rw [link_vadd, ClockedPort.poll_vadd]
    rcases LinkPort.poll c.link now with ⟨_ | frame, link⟩
    · rfl
    · dsimp only
      have hstep : McuClient.receive { offset +ᵥ c with link := offset +ᵥ link } frame (offset + now) =
          offset +ᵥ McuClient.receive { c with link } frame now := receive_vadd offset { c with link } frame now
      rw [hstep, ih]

/-- A poll of the client. -/
theorem poll_vadd (now : Millis) : (offset +ᵥ c).poll (offset + now) = offset +ᵥ c.poll now := by
  have hincoming (c : McuClient K) : LinkPort.incoming (offset +ᵥ c).link = LinkPort.incoming c.link :=
    ClockedPort.incoming_vadd offset c.link
  unfold McuClient.poll McuClient.pollLink
  rw [pollTimers_vadd, hincoming, pollFrames_vadd, pollHeartbeat_vadd]

end Requests

/-! The session. -/

instance : VAdd Millis (CookingController K P) where
  vadd offset c := { c with mcu := offset +ᵥ c.mcu, startedMs := offset + c.startedMs }

/-- A program that does the same on a moved client. -/
class ClockedProgram (K P : Type) [LinkPort K] [VAdd Millis K] [Program K P] : Prop where
  onTick_vadd : ∀ (offset : Millis) (program : P) (c : McuClient K) (now elapsed : Millis),
    Program.onTick program (offset +ᵥ c) (offset + now) elapsed =
      ((Program.onTick program c now elapsed).1, offset +ᵥ (Program.onTick program c now elapsed).2)
  finished_vadd : ∀ (offset : Millis) (program : P) (c : McuClient K) (elapsed : Millis),
    Program.finished program (offset +ᵥ c) elapsed = Program.finished program c elapsed
  onStop_vadd : ∀ (offset : Millis) (program : P) (c : McuClient K) (now elapsed : Millis),
    Program.onStop program (offset +ᵥ c) (offset + now) elapsed =
      ((Program.onStop program c now elapsed).1, offset +ᵥ (Program.onStop program c now elapsed).2)

section Stages

variable (offset : Millis) (c : CookingController K P)

theorem mcu_vadd : (offset +ᵥ c).mcu = offset +ᵥ c.mcu := rfl

theorem state_vadd : (offset +ᵥ c).state = c.state := rfl

theorem program_vadd : (offset +ᵥ c).program = c.program := rfl

theorem pendingProgram_vadd : (offset +ᵥ c).pendingProgram = c.pendingProgram := rfl

theorem startAfterShutdown_vadd : (offset +ᵥ c).startAfterShutdown = c.startAfterShutdown := rfl

theorem faultShutdown_vadd : (offset +ᵥ c).faultShutdown = c.faultShutdown := rfl

theorem shutdownHeaterSent_vadd : (offset +ᵥ c).shutdownHeaterSent = c.shutdownHeaterSent := rfl

theorem shutdownHeaterDone_vadd : (offset +ᵥ c).shutdownHeaterDone = c.shutdownHeaterDone := rfl

theorem shutdownMotorSent_vadd : (offset +ᵥ c).shutdownMotorSent = c.shutdownMotorSent := rfl

theorem shutdownMotorDone_vadd : (offset +ᵥ c).shutdownMotorDone = c.shutdownMotorDone := rfl

theorem startProgram_vadd (program : Option P) :
    (offset +ᵥ c).startProgram program =
      ((c.startProgram program).1, offset +ᵥ (c.startProgram program).2) := by
  unfold CookingController.startProgram
  cases program with
  | none => rfl
  | some program =>
    have hengaged : (offset +ᵥ c).Engaged ↔ c.Engaged := Iff.rfl
    dsimp only
    by_cases hbusy : c.Engaged
    · rw [if_pos hbusy, if_pos (hengaged.mpr hbusy)]
    · rw [if_neg hbusy, if_neg (hengaged.not.mpr hbusy)]
      rfl

theorem stop_vadd : (offset +ᵥ c).stop = offset +ᵥ c.stop := by
  unfold CookingController.stop
  rw [state_vadd, startAfterShutdown_vadd]
  split_ifs <;> rfl

theorem sense_vadd : (offset +ᵥ c).sense = (c.sense.1, offset +ᵥ c.sense.2) := by
  have htake : (offset +ᵥ c).mcu.takeResponse =
      (c.mcu.takeResponse.1, offset +ᵥ c.mcu.takeResponse.2) := by
    unfold McuClient.takeResponse
    rw [mcu_vadd, responseReady_vadd]
    split_ifs <;> rfl
  unfold CookingController.sense
  rw [htake]
  dsimp only
  rw [store_vadd, averageTempC_vadd, maxTempC_vadd]
  rfl

theorem react_vadd : (offset +ᵥ c).react = offset +ᵥ c.react := by
  have halarmed : (offset +ᵥ c).Alarmed ↔ c.Alarmed := Iff.rfl
  unfold CookingController.react
  by_cases hfault : c.Alarmed
  · rw [if_pos hfault, if_pos (halarmed.mpr hfault)]
    rfl
  · rw [if_neg hfault, if_neg (halarmed.not.mpr hfault)]

theorem stepOta_vadd : (offset +ᵥ c).stepOta = offset +ᵥ c.stepOta := rfl

theorem acknowledge_vadd (response : Option Frame) :
    (offset +ᵥ c).acknowledge response = offset +ᵥ c.acknowledge response := by
  unfold CookingController.acknowledge
  cases response with
  | none => rfl
  | some response =>
    dsimp only
    rw [shutdownHeaterSent_vadd, shutdownHeaterDone_vadd, shutdownMotorSent_vadd,
      shutdownMotorDone_vadd]
    split_ifs <;> rfl

theorem rearm_vadd : (offset +ᵥ c).rearm = offset +ᵥ c.rearm := by
  unfold CookingController.rearm
  rw [mcu_vadd]
  change (if c.mcu.lastCommandStatus ≠ .ok then _ else _) = _
  by_cases hfailed : c.mcu.lastCommandStatus ≠ .ok
  · rw [if_pos hfailed, if_pos hfailed]
    dsimp only
    rw [shutdownHeaterDone_vadd, shutdownMotorDone_vadd]
    split_ifs <;> rfl
  · rw [if_neg hfailed, if_neg hfailed]

end Stages

section Ticks

variable [LinkPort K] [ClockedPort K] (offset : Millis) (c : CookingController K P)

theorem proceed_vadd (now : Millis) : (offset +ᵥ c).proceed (offset + now) = offset +ᵥ c.proceed now := by
  have hheater := request_vadd offset c.mcu now MsgId.heaterOff []
  have hmotor := request_vadd offset c.mcu now MsgId.motorStop []
  unfold CookingController.proceed McuClient.heaterOff McuClient.motorStop
  rw [mcu_vadd, waiting_vadd, shutdownHeaterSent_vadd, shutdownHeaterDone_vadd,
    shutdownMotorSent_vadd, shutdownMotorDone_vadd, hheater, hmotor]
  by_cases hheating : c.shutdownHeaterDone = false
  · rw [if_pos hheating, if_pos hheating]
    split_ifs <;> rfl
  · rw [if_neg hheating, if_neg hheating]
    by_cases hturning : c.shutdownMotorDone = false
    · rw [if_pos hturning, if_pos hturning]
      split_ifs <;> rfl
    · rw [if_neg hturning, if_neg hturning, pendingProgram_vadd]
      cases c.pendingProgram with
      | none => rfl
      | some program =>
        dsimp only
        rw [startAfterShutdown_vadd, faultShutdown_vadd]
        split_ifs <;> rfl

theorem runStoppingSequence_vadd (response : Option Frame) (now : Millis) :
    (offset +ᵥ c).runStoppingSequence response (offset + now) =
      offset +ᵥ c.runStoppingSequence response now := by
  unfold CookingController.runStoppingSequence
  rw [acknowledge_vadd, rearm_vadd, proceed_vadd]

variable [Program K P] [ClockedProgram K P]

omit [ClockedPort K] in
theorem runProgram_vadd (program : P) (now : Millis) :
    (offset +ᵥ c).runProgram program (offset + now) = offset +ᵥ c.runProgram program now := by
  have helapsed : offset + now - (offset +ᵥ c).startedMs = now - c.startedMs :=
    sub_offset offset now c.startedMs
  unfold CookingController.runProgram
  rw [helapsed, mcu_vadd]
  dsimp only
  rw [ClockedProgram.onTick_vadd]
  dsimp only
  rw [ClockedProgram.finished_vadd, ClockedProgram.onStop_vadd]
  split_ifs <;> rfl

theorem advance_vadd (response : Option Frame) (now : Millis) :
    (offset +ᵥ c).advance response (offset + now) = offset +ᵥ c.advance response now := by
  have hstopping := runStoppingSequence_vadd offset c response now
  unfold CookingController.advance
  rw [state_vadd, program_vadd]
  cases c.state with
  | running =>
    cases c.program with
    | none => rfl
    | some program => exact runProgram_vadd offset c program now
  | stopping => exact hstopping
  | faulted => exact hstopping
  | idle => rfl
  | done => rfl

/-- A tick of the controller. -/
theorem tick10ms_vadd (now : Millis) :
    (offset +ᵥ c).tick10ms (offset + now) = offset +ᵥ c.tick10ms now := by
  rw [tick10ms_eq, tick10ms_eq, sense_vadd, react_vadd, stepOta_vadd, advance_vadd]

end Ticks

/-! The programs. -/

section Programs

variable [LinkPort K] [ClockedPort K] (offset : Millis) (c : McuClient K)

theorem manual_vadd (program : ManualMode) (now : Millis) :
    program.onTick (offset +ᵥ c) (offset + now) =
      ((program.onTick c now).1, offset +ᵥ (program.onTick c now).2) := by
  unfold ManualMode.onTick McuClient.setHeater McuClient.setMotor
  rw [request_vadd, request_vadd]
  split_ifs <;> rfl

theorem dough_vadd (program : DoughMode) (now elapsed : Millis) :
    program.onTick (offset +ᵥ c) (offset + now) elapsed =
      ((program.onTick c now elapsed).1, offset +ᵥ (program.onTick c now elapsed).2) := by
  unfold DoughMode.onTick McuClient.setMotor
  dsimp only
  rw [request_vadd]
  split_ifs <;> rfl

theorem sousVide_vadd (program : SousVideMode) (now : Millis) :
    program.onTick (offset +ᵥ c) (offset + now) =
      ((program.onTick c now).1, offset +ᵥ (program.onTick c now).2) := by
  unfold SousVideMode.onTick McuClient.setHeater McuClient.setMotor
  rw [request_vadd, request_vadd, store_vadd, averageTempC_vadd]
  split_ifs <;> rfl

theorem steam_vadd (program : SteamMode) (now : Millis) :
    program.onTick (offset +ᵥ c) (offset + now) =
      ((program.onTick c now).1, offset +ᵥ (program.onTick c now).2) := by
  obtain ⟨tMs, hlatest⟩ := latest_vadd offset c.store
  unfold SteamMode.onTick McuClient.setHeater McuClient.setMotor
  rw [request_vadd, request_vadd, store_vadd, hlatest]
  split_ifs <;> rfl

theorem turbo_vadd (program : TurboPulse) (now elapsed : Millis) :
    program.onTick (offset +ᵥ c) (offset + now) elapsed =
      ((program.onTick c now elapsed).1, offset +ᵥ (program.onTick c now elapsed).2) := by
  obtain ⟨tMs, hlatest⟩ := latest_vadd offset c.store
  unfold TurboPulse.onTick McuClient.lockLid McuClient.setMotor McuClient.motorStop
  cases program.phase with
  | locking =>
    dsimp only
    rw [request_vadd]
  | spinning =>
    dsimp only
    rw [request_vadd]
    split_ifs <;> rfl
  | stopping =>
    dsimp only
    rw [request_vadd]
  | unlocking =>
    dsimp only
    rw [request_vadd, store_vadd, hasData_vadd, hlatest]
    split_ifs <;> rfl
  | finished => rfl

theorem runSetup_vadd (program : GuidedRecipe) (step : RecipeParser.RecipeStep) (now : Millis) :
    program.runSetup step (offset +ᵥ c) (offset + now) =
      ((program.runSetup step c now).1, (program.runSetup step c now).2.1,
        offset +ᵥ (program.runSetup step c now).2.2) := by
  unfold GuidedRecipe.runSetup McuClient.setMotor McuClient.setHeater McuClient.tare
  cases step.kind with
  | note => rfl
  | mix =>
    dsimp only
    rw [request_vadd]
  | heat =>
    dsimp only
    rw [request_vadd, request_vadd]
    split_ifs <;> rfl
  | weigh =>
    dsimp only
    rw [request_vadd]
    split_ifs <;> rfl

theorem runTeardown_vadd (program : GuidedRecipe) (step : RecipeParser.RecipeStep) (now : Millis) :
    program.runTeardown step (offset +ᵥ c) (offset + now) =
      ((program.runTeardown step c now).1, (program.runTeardown step c now).2.1,
        offset +ᵥ (program.runTeardown step c now).2.2) := by
  unfold GuidedRecipe.runTeardown McuClient.motorStop McuClient.heaterOff
  cases step.kind with
  | note => rfl
  | weigh => rfl
  | mix =>
    dsimp only
    rw [request_vadd]
  | heat =>
    dsimp only
    rw [request_vadd, request_vadd]
    split_ifs <;> rfl

omit [LinkPort K] [ClockedPort K] in
theorem stepDone_vadd (program : GuidedRecipe) (step : RecipeParser.RecipeStep) (elapsed : Millis) :
    program.stepDone step (offset +ᵥ c) elapsed = program.stepDone step c elapsed := by
  obtain ⟨tMs, hlatest⟩ := latest_vadd offset c.store
  unfold GuidedRecipe.stepDone
  rw [store_vadd, hlatest]

theorem recipe_vadd (program : GuidedRecipe) (now elapsed : Millis) :
    program.onTick (offset +ᵥ c) (offset + now) elapsed =
      ((program.onTick c now elapsed).1, offset +ᵥ (program.onTick c now elapsed).2) := by
  unfold GuidedRecipe.onTick
  by_cases hstep : program.stepIndex < program.recipe.stepCount
  · rw [dif_pos hstep, dif_pos hstep]
    dsimp only
    rw [runSetup_vadd, runTeardown_vadd, stepDone_vadd]
    cases program.phase with
    | setup =>
      rcases program.runSetup (program.recipe.step ⟨program.stepIndex, hstep⟩) c now with
        ⟨_ | _, program', c'⟩ <;> rfl
    | run => rfl
    | teardown =>
      rcases program.runTeardown (program.recipe.step ⟨program.stepIndex, hstep⟩) c now with
        ⟨_ | _, program', c'⟩ <;> rfl
  · rw [dif_neg hstep, dif_neg hstep]

instance : ClockedProgram K AnyProgram where
  onTick_vadd offset program c now elapsed := by
    change program.onTick (offset +ᵥ c) (offset + now) elapsed =
      ((program.onTick c now elapsed).1, offset +ᵥ (program.onTick c now elapsed).2)
    cases program with
    | manual program => exact congrArg (Prod.map _ id) (manual_vadd offset c program now)
    | dough program => exact congrArg (Prod.map _ id) (dough_vadd offset c program now elapsed)
    | sousVide program => exact congrArg (Prod.map _ id) (sousVide_vadd offset c program now)
    | steam program => exact congrArg (Prod.map _ id) (steam_vadd offset c program now)
    | turbo program => exact congrArg (Prod.map _ id) (turbo_vadd offset c program now elapsed)
    | recipe program => exact congrArg (Prod.map _ id) (recipe_vadd offset c program now elapsed)
  finished_vadd _ _ _ _ := rfl
  onStop_vadd _ _ _ _ _ := rfl

end Programs

/-! Runs of both processors. -/

instance : VAdd Millis (AppEvent K P) where
  vadd offset event :=
    match event with
    | .link link => .link (offset +ᵥ link)
    | .poll now => .poll (offset + now)
    | .tick now => .tick (offset + now)
    | .direct now request => .direct (offset + now) request
    | .start program => .start program
    | .stop => .stop
    | .userNext => .userNext
    | .verify image expectedCrc => .verify image expectedCrc

/-- What happens to the safety processor: `link` is the link moving by itself, `sense` the board. -/
inductive McuEvent (K H : Type) where
  | link (link : K)
  | sense (board : H)
  | tick (now : Millis)

instance {H : Type} : VAdd Millis (McuEvent K H) where
  vadd offset event :=
    match event with
    | .link link => .link (offset +ᵥ link)
    | .sense board => .sense board
    | .tick now => .tick (offset + now)

open Safety in
def serve {H : Type} [LinkPort K] [Board H] (s : SafetyMcu K H) : McuEvent K H → SafetyMcu K H
  | .link link => { s with link }
  | .sense board => { s with handler := { s.handler with board } }
  | .tick now => s.tick1ms now

section Runs

variable {H : Type} [LinkPort K] [ClockedPort K]

theorem serve_vadd [Board H] (offset : Millis) (s : Safety.SafetyMcu K H) (event : McuEvent K H) :
    serve (offset +ᵥ s) (offset +ᵥ event) = offset +ᵥ serve s event := by
  cases event with
  | link link => rfl
  | sense board => rfl
  | tick now => exact tick1ms_vadd offset s now

theorem apply_vadd [Program K P] [ClockedProgram K P] (offset : Millis) (c : CookingController K P)
    (event : AppEvent K P) : apply (offset +ᵥ c) (offset +ᵥ event) = offset +ᵥ apply c event := by
  cases event with
  | link link => rfl
  | poll now =>
    have hpoll := SessionShift.poll_vadd offset c.mcu now
    exact congrArg (fun mcu => ({ offset +ᵥ c with mcu } : CookingController K P)) hpoll
  | tick now => exact tick10ms_vadd offset c now
  | direct now request =>
    have hissue : (request.issue (offset +ᵥ c.mcu) (offset + now)).2 =
        offset +ᵥ (request.issue c.mcu now).2 := by
      rw [DirectRequest.issue_eq, DirectRequest.issue_eq, request_vadd]
    exact congrArg (fun mcu => ({ offset +ᵥ c with mcu } : CookingController K P)) hissue
  | start program => exact congrArg Prod.snd (startProgram_vadd offset c program)
  | stop => exact stop_vadd offset c
  | userNext => rfl
  | verify image expectedCrc => rfl

/-- A run over moved events moves the state that the run reaches. -/
theorem foldl_vadd {S E : Type} [VAdd Millis S] [VAdd Millis E] {step : S → E → S} (offset : Millis)
    (hstep : ∀ s event, step (offset +ᵥ s) (offset +ᵥ event) = offset +ᵥ step s event) (s : S)
    (events : List E) :
    (events.map fun event => offset +ᵥ event).foldl step (offset +ᵥ s) =
      offset +ᵥ events.foldl step s := by
  rw [List.foldl_map]
  exact List.foldl_hom (fun s => offset +ᵥ s) hstep

end Runs

/-! What can be seen from outside. -/

open SerialLink Safety

/-- Two states of the safety processor with the same bytes sent and waiting, the same devices and
the same fault. -/
structure McuAlike {H : Type} (s t : SafetyMcu Link H) : Prop where
  uart : s.link.uart = t.link.uart
  handler : s.handler = t.handler
  powerW : s.powerW = t.powerW
  fault : s.fault = t.fault

/-- Two states of the application with the same bytes sent and waiting, the same session, programs
and display, and the same answers for whoever asks the client. -/
structure AppAlike (c d : CookingController Link P) : Prop where
  uart : c.mcu.link.uart = d.mcu.link.uart
  state : c.state = d.state
  program : c.program = d.program
  pendingProgram : c.pendingProgram = d.pendingProgram
  watchdogFeeds : c.watchdogFeeds = d.watchdogFeeds
  display : c.displayAvgTempC = d.displayAvgTempC ∧ c.hotBowl = d.hotBowl
  client : c.mcu.waiting = d.mcu.waiting ∧ c.mcu.lastCommandStatus = d.mcu.lastCommandStatus ∧
    c.mcu.lastFault = d.mcu.lastFault ∧ c.mcu.takeResponse.1 = d.mcu.takeResponse.1

theorem mcuAlike_vadd {H : Type} (offset : Millis) (s : SafetyMcu Link H) : McuAlike (offset +ᵥ s) s :=
  ⟨rfl, rfl, rfl, rfl⟩

theorem appAlike_vadd (offset : Millis) (c : CookingController Link P) : AppAlike (offset +ᵥ c) c := by
  refine ⟨rfl, rfl, rfl, rfl, rfl, ⟨rfl, rfl⟩, rfl, rfl, rfl, ?_⟩
  rw [takeResponse_fst, takeResponse_fst]
  rfl

/-- With the clock and all timestamps moved by the same offset, every step of both processors does
the same, and so does every run: what it sends and drives is the same, and the state it reaches is
the same but for the timestamps, which have moved. -/
theorem clock_shift {H : Type} [Board H] (offset : Millis) :
    (∀ (s : SafetyMcu Link H) (now : Millis),
      (offset +ᵥ s).tick1ms (offset + now) = offset +ᵥ s.tick1ms now ∧
        (offset +ᵥ s).exchanges (offset + now) = s.exchanges now) ∧
    (∀ (c : McuClient Link) (now : Millis),
      (offset +ᵥ c).poll (offset + now) = offset +ᵥ c.poll now ∧
        ∀ id payload, (offset +ᵥ c).request (offset + now) id payload =
          ((c.request now id payload).1, offset +ᵥ (c.request now id payload).2)) ∧
    (∀ c : CookingController Link AnyProgram,
      (∀ now, (offset +ᵥ c).tick10ms (offset + now) = offset +ᵥ c.tick10ms now) ∧
        (∀ program, (offset +ᵥ c).startProgram program =
          ((c.startProgram program).1, offset +ᵥ (c.startProgram program).2)) ∧
        (offset +ᵥ c).stop = offset +ᵥ c.stop) ∧
    (∀ (s : SafetyMcu Link H) (events : List (McuEvent Link H)),
      (events.map fun event => offset +ᵥ event).foldl serve (offset +ᵥ s) =
          offset +ᵥ events.foldl serve s ∧
        McuAlike ((events.map fun event => offset +ᵥ event).foldl serve (offset +ᵥ s))
          (events.foldl serve s)) ∧
    (∀ (c : CookingController Link AnyProgram) (events : List (AppEvent Link AnyProgram)),
      play (offset +ᵥ c) (events.map fun event => offset +ᵥ event) = offset +ᵥ play c events ∧
        AppAlike (play (offset +ᵥ c) (events.map fun event => offset +ᵥ event)) (play c events)) := by
  refine ⟨fun s now => ?_, fun c now => ?_, fun c => ?_, fun s events => ?_, fun c events => ?_⟩
  · exact ⟨tick1ms_vadd offset s now, exchanges_vadd offset s now⟩
  · exact ⟨poll_vadd offset c now, request_vadd offset c now⟩
  · exact ⟨tick10ms_vadd offset c, startProgram_vadd offset c, stop_vadd offset c⟩
  · have hrun := foldl_vadd offset (serve_vadd offset) s events
    rw [hrun]
    exact ⟨rfl, mcuAlike_vadd offset _⟩
  · have hrun : play (offset +ᵥ c) (events.map fun event => offset +ᵥ event) = offset +ᵥ play c events :=
      foldl_vadd offset (apply_vadd offset) c events
    rw [hrun]
    exact ⟨rfl, appAlike_vadd offset _⟩

end Culina.SessionShift
