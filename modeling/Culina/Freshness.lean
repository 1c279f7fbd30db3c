import Culina.RemoteCalls

/-!
Telemetry from the sensors to the store. A sample is published every ten milliseconds; in the simulator it
reaches the store of the application in the millisecond in which its sensors were read, field by field as
they were read.
-/
namespace Culina.Freshness

open Wire Layout Framing Writer Drives Ports Commands Safety SafetyMcu Supervision SerialLink WholeFrames
open Counters Heartbeat LinkLoss Lid Plant MainLoop Client McuClient Services Cooking Replies Simulator Lockstep
open Device RemoteCalls Runs

/-! The sample on the wire. -/

theorem getU32_putU32 (v : BitVec 32) : getU32 (v.setWidth 8) ((v >>> 8).setWidth 8)
    ((v >>> 16).setWidth 8) ((v >>> 24).setWidth 8) = v := by
  apply BitVec.eq_of_getLsbD_eq
  intro i hi
  simp only [getU32, BitVec.getLsbD_or, BitVec.getLsbD_setWidth, BitVec.getLsbD_shiftLeft,
    BitVec.getLsbD_ushiftRight]
  rcases lt_or_ge i 8 with h | h
  · simp [h, hi, show i < 16 by omega, show i < 24 by omega]
  · rcases lt_or_ge i 16 with h' | h'
    · simp [h', hi, show ¬ i < 8 by omega, show i < 24 by omega, show i - 8 < 8 by omega,
        show i - 8 < 32 by omega, show 8 + (i - 8) = i by omega]
    · rcases lt_or_ge i 24 with h'' | h''
      · simp [h'', hi, show ¬ i < 8 by omega, show ¬ i < 16 by omega, show ¬ i - 8 < 8 by omega,
          show i - 16 < 8 by omega, show i - 16 < 32 by omega, show 16 + (i - 16) = i by omega]
      · simp [hi, show ¬ i < 8 by omega, show ¬ i < 16 by omega, show ¬ i < 24 by omega,
          show ¬ i - 8 < 8 by omega, show ¬ i - 16 < 8 by omega, show i - 24 < 8 by omega,
          show i - 24 < 32 by omega, show 24 + (i - 24) = i by omega]

/-- What the fields of a sample hold of what was read. -/
def wireSample (data : TelemetryData) (now : Millis) : Sample where
  tMs := now
  deciCelsius := (BitVec.ofInt 16 data.deciCelsius).toInt
  rpm := data.rpm % 2 ^ 16
  grams := (BitVec.ofInt 32 data.grams).toInt
  flags := data.flags

/-- The first bytes of a payload are what the frame says. -/
theorem payload_of_bytes {f : Frame} {bytes : List Byte} (h : f.bytes = bytes) {i : ℕ} (hi : i < bytes.length)
    (hroom : i < kMaxPayload) : f.payload[i] = bytes.getD i 0 := by
  subst h
  rw [List.getD_eq_getElem?_getD, List.getElem?_eq_getElem hi, Option.getD_some]
  simp [Frame.bytes]

/-- A sample is read as it was written. -/
theorem sampleOf_telemetry {f : Frame} {seq : Byte} {data : TelemetryData}
    (h : content f = content (Frame.ofBytes .telemetry seq MsgId.telemetry (encodeTelemetry data))) (now : Millis) :
    IsSample f ∧ sampleOf f now = wireSample data now := by
  have hfits : (encodeTelemetry data).length ≤ kMaxPayload := by
    rw [encodeTelemetry_length]
    decide
  simp only [content, Prod.mk.injEq] at h
  obtain ⟨htype, -, hid, hlen, hbytes⟩ := h
  rw [Frame.bytes_ofBytes _ _ _ _ hfits] at hbytes
  have hbyte : ∀ i, i < 13 → ∀ hroom : i < kMaxPayload, f.payload[i] = (encodeTelemetry data).getD i 0 :=
    fun i hi hroom => payload_of_bytes hbytes hi hroom
  refine ⟨⟨htype, hid, hlen⟩, ?_⟩
  unfold sampleOf wireSample
  rw [hbyte 4 (by omega), hbyte 5 (by omega), hbyte 6 (by omega), hbyte 7 (by omega), hbyte 8 (by omega),
    hbyte 9 (by omega), hbyte 10 (by omega), hbyte 11 (by omega), hbyte 12 (by omega)]
  have hdeci := getU16_putU16 (BitVec.ofInt 16 data.deciCelsius)
  have hrpm := getU16_putU16 (BitVec.ofNat 16 data.rpm)
  have hgrams := getU32_putU32 (BitVec.ofInt 32 data.grams)
  simp only [encodeTelemetry, putU32, putI16, putU16, putI32, List.cons_append, List.nil_append, List.getD_cons_succ,
    List.getD_cons_zero, getI16, getI32, hdeci, hrpm, hgrams, BitVec.toNat_ofNat]

/-! What the publisher makes of it. -/

def sampleFrame (seq : Byte) (data : TelemetryData) : Frame :=
  Frame.ofBytes .telemetry seq MsgId.telemetry (encodeTelemetry data)

/-- The report of a fault that is held back. -/
def faultFrames (publisher : TelemetryPublisher) : List Frame :=
  if publisher.pendingFault ≠ .none then
    [Frame.ofBytes .telemetry publisher.seq MsgId.fault [publisher.pendingFault.toByte]] else []

theorem faultFrames_msgId (publisher : TelemetryPublisher) :
    ∀ f ∈ faultFrames publisher, f.msgId = MsgId.fault := by
  intro f hf
  unfold faultFrames at hf
  split_ifs at hf
  · rw [List.mem_singleton.mp hf]
    rfl
  · exact absurd hf List.not_mem_nil

/-- A sample that is due goes out behind the report of a fault, if there is one. -/
theorem published_cases (publisher : TelemetryPublisher) (data : TelemetryData) (now : Millis) :
    if now - publisher.lastPublishMs < kPeriodMs then
      (published publisher data now).1 = faultFrames publisher ∧
        (published publisher data now).2.lastPublishMs = publisher.lastPublishMs
    else
      (∃ seq, (published publisher data now).1 = faultFrames publisher ++ [sampleFrame seq data]) ∧
        (published publisher data now).2.lastPublishMs = now := by
  unfold published faultFrames
  by_cases hquiet : publisher.pendingFault = .none
  · simp only [hquiet, ne_eq, not_true_eq_false, if_false]
    split_ifs
    · exact ⟨rfl, rfl⟩
    · exact ⟨⟨publisher.seq, rfl⟩, rfl⟩
  · simp only [hquiet, ne_eq, not_false_eq_true, if_true]
    split_ifs
    · exact ⟨rfl, rfl⟩
    · exact ⟨⟨publisher.seq + 1, rfl⟩, rfl⟩

section Ticks

variable {H : Type} [Board H] {s : SafetyMcu Link H}

/-- The processor that publishes at the end of a tick. -/
def behind (s : SafetyMcu Link H) (now : Millis) : SafetyMcu Link H := ((looped s now).judge now).driveStage

omit [Board H] in
theorem driveStage_telemetry (s : SafetyMcu Link H) : s.driveStage.telemetry = s.telemetry := rfl

theorem publishStage_telemetry (s : SafetyMcu Link H) (now : Millis) : (s.publishStage now).telemetry =
    (s.telemetry.maybePublish s.link (telemetryData s) now).1 := rfl

omit [Board H] in
theorem judge_lastPublishMs (s : SafetyMcu Link H) (now : Millis) :
    (s.judge now).telemetry.lastPublishMs = s.telemetry.lastPublishMs := by
  unfold judge linkStage interlockStage
  split_ifs <;> rfl

/-- Only publishing moves the time of the last sample. -/
theorem behind_lastPublishMs (s : SafetyMcu Link H) (now : Millis) :
    (behind s now).telemetry.lastPublishMs = s.telemetry.lastPublishMs := by
  have hsampled : s.sampleStage.telemetry.lastPublishMs = s.telemetry.lastPublishMs := by
    rcases hread : Board.readDeciCelsius s.handler.board with ⟨_ | reading, board⟩
    · simp only [sampleStage, sampleInputs, hread]
      split <;> rfl
    · rw [sampleStage_ok hread]
  have hlooped : (looped s now).telemetry.lastPublishMs = s.telemetry.lastPublishMs := by
    refine pollFrames_keeps _ now (fun t _ => t.telemetry.lastPublishMs = s.telemetry.lastPublishMs) _
      (fun _ _ _ h => h) (fun t frame _ h => ?_) [] hsampled
    have hsame : (t.handleFrame frame now).telemetry = t.telemetry := rfl
    rw [hsame]
    exact h
  rw [behind, driveStage_telemetry, judge_lastPublishMs, hlooped]

theorem publishedIn_eq (s : SafetyMcu Link H) (now : Millis) :
    publishedIn s now = (published (behind s now).telemetry (telemetryData (behind s now)) now).1 := rfl

theorem tick1ms_telemetry (h : Clear s.link) (now : Millis) :
    (s.tick1ms now).telemetry =
      (published (behind s now).telemetry (telemetryData (behind s now)) now).2 := by
  have hloop := frameStage_wrote (s := s.sampleStage) (by rwa [sampleStage_link]) now
  have hdrive : Wrote s.sampleStage.link.uart.wire (behind s now).link
      ((s.exchanges now).filterMap answered) := by
    rw [behind, driveStage_link, judge_link]
    exact hloop
  have hpublish := (maybePublish_wrote hdrive (behind s now).telemetry (telemetryData (behind s now)) now).1
  rw [← hpublish, tick1ms_eq, publishStage_telemetry]
  rfl

/-- The sensors as a tick has sampled them. -/
theorem behind_inputs (hs : Supervised s) {reading : DeciCelsius} {board : H}
    (hread : Board.readDeciCelsius s.handler.board = (.ok reading, board)) (now : Millis) :
    (behind s now).inputs = sampled board reading := by
  rw [behind, driveStage_inputs, (judge_inputs _ _).1, (looped_from hs now).inputs, sampleStage_ok hread]

end Ticks

/-! The sample in the store. -/

variable {P : Type} {s : SystemSim P} {frames : List Frame}

/-- The safety processor that publishes in the next millisecond, and the time of its last sample. -/
def publisher (s : SystemSim P) : SafetyMcu Link (SimBoard Models) := behind (found s) (soon s)

def lastPublishMs (s : SystemSim P) : Millis := s.rig.machine.mcu.telemetry.lastPublishMs

theorem publisher_lastPublishMs (s : SystemSim P) : (publisher s).telemetry.lastPublishMs = lastPublishMs s := by
  rw [publisher, behind_lastPublishMs]
  rfl

/-- Reports of faults leave the samples alone. -/
theorem watch_reports {received : List Frame} (hreports : ∀ f ∈ received, f.msgId = MsgId.fault) (now : Millis)
    (seen : View) : (received.foldl (watch now) seen).1 = seen.1 := by
  induction received generalizing seen with
  | nil => rfl
  | cons f received ih =>
    obtain ⟨hreport, hreports⟩ := List.forall_mem_cons.mp hreports
    have hother : ¬ IsSample f := fun h => absurd (hreport.symm.trans h.2.1) (by decide)
    rw [List.foldl_cons, ih hreports]
    unfold watch
    rw [if_neg hother]
    split <;> rfl

theorem msgId_of_map_eq {received report : List Frame} (h : received.map content = report.map content)
    (hreports : ∀ f ∈ report, f.msgId = MsgId.fault) : ∀ f ∈ received, f.msgId = MsgId.fault := by
  intro f hf
  obtain ⟨g, hg, hsame⟩ := List.mem_map.mp (h ▸ List.mem_map_of_mem hf)
  exact (congrArg (fun said => said.2.2.1) hsame).symm.trans (hreports g hg)

/-- In a millisecond in which a sample is due the store takes it, in the others nothing. -/
theorem Watched.store {c c' : McuClient Link} (h : Watched c c' (publishing s) (soon s)) :
    c'.store = if soon s - lastPublishMs s < kPeriodMs then c.store
      else c.store.append (wireSample (telemetryData (publisher s)) (soon s)) := by
  obtain ⟨received, hreceived, hview⟩ := h
  have hstore : c'.store = (received.foldl (watch (soon s)) (view c)).1 := congrArg Prod.fst hview
  have hreports := faultFrames_msgId (publisher s).telemetry
  have hcases := published_cases (publisher s).telemetry (telemetryData (publisher s)) (soon s)
  rw [publisher_lastPublishMs] at hcases
  have hpublishing : publishing s = (published (publisher s).telemetry (telemetryData (publisher s)) (soon s)).1 :=
    publishedIn_eq _ _
  rw [hpublishing] at hreceived
  rw [hstore]
  split_ifs at hcases ⊢
  · rw [hcases.1] at hreceived
    exact watch_reports (msgId_of_map_eq hreceived hreports) _ _
  · obtain ⟨⟨seq, hframes⟩, -⟩ := hcases
    rw [hframes, List.map_append] at hreceived
    obtain ⟨first, last, rfl, hfirst, hlast⟩ := List.map_eq_append_iff.mp hreceived
    obtain ⟨f, rfl⟩ : ∃ f, last = [f] := by
      rw [← List.length_eq_one_iff]
      have := congrArg List.length hlast
      simpa using this
    have hsaid : content f = content (sampleFrame seq (telemetryData (publisher s))) := by simpa using hlast
    obtain ⟨hsample, hread⟩ := sampleOf_telemetry hsaid (soon s)
    rw [List.foldl_append, List.foldl_cons, List.foldl_nil, watch, if_pos hsample, hread]
    have hbefore := watch_reports (msgId_of_map_eq hfirst hreports) (soon s) (view c)
    rw [hbefore]
    rfl

theorem calls_store {K : Type} [LinkPort K] {now : Millis} {c c' : McuClient K} (h : Calls now c c') :
    c'.store = c.store := by
  induction h with
  | refl => rfl
  | request _ id payload ih =>
    rename_i c' _
    have hrequest := request_requested c' now id payload
    generalize (c'.request now id payload).1 = status at hrequest
    generalize (c'.request now id payload).2 = c'' at hrequest
    cases hrequest with
    | accepted _ => exact ih
    | unsent _ _ _ _ _ => exact ih
    | refused _ _ => exact ih
  | takeResponse _ ih => exact ih
  | clearCommandStatus _ ih => exact ih
  | clearFault _ ih => exact ih

theorem latest_append (store : TelemetryStore) (sample : Sample) : (store.append sample).latest = sample := by
  have hlast : (store.append sample).samples.getLast? = some sample := by
    unfold TelemetryStore.append
    dsimp only
    split
    · rename_i hfull
      cases hold : store.samples with
      | nil =>
        rw [hold] at hfull
        exact absurd hfull (show ¬ 1 > kMaxSamples by decide)
      | cons first rest => simp
    · exact List.getLast?_concat
  rw [TelemetryStore.latest, hlast, Option.getD_some]

/-- The tick moves the time of the last sample when it publishes one. -/
theorem Linked.lastPublishMs (h : Linked s frames) : s.ticked.machine.mcu.telemetry.lastPublishMs =
    if soon s - Freshness.lastPublishMs s < kPeriodMs then Freshness.lastPublishMs s else soon s := by
  obtain ⟨-, hclear, -⟩ := h.found
  have htelemetry := tick1ms_telemetry hclear (soon s)
  rw [← ticked_mcu] at htelemetry
  have hcases := published_cases (publisher s).telemetry (telemetryData (publisher s)) (soon s)
  rw [publisher_lastPublishMs] at hcases
  rw [htelemetry]
  split_ifs at hcases ⊢
  · exact hcases.2
  · exact hcases.2

/-- The last sample was published less than ten milliseconds ago, and is the latest in the store. -/
def Fresh (s : SystemSim P) : Prop :=
  ∃ published, published ≤ s.rig.machine.clock ∧ s.rig.machine.clock < published + 10 ∧
    lastPublishMs s = Machine.now published ∧
    (published = 0 ∨ s.app.mcu.store.latest.tMs = Machine.now published)

variable [Program Link P]

theorem stepMs_store (s : SystemSim P) : s.stepMs.app.mcu.store = s.polled.mcu.store := by
  unfold SystemSim.stepMs
  split
  · exact calls_store (tick10ms_calls s.polled s.ticked.board.sensors.nowMs)
  · rfl

/-- Step lemma for the millisecond. -/
theorem stepMs_fresh (h : Fresh s) (hlinked : Linked s frames) (hinStep : InStep s) : Fresh s.stepMs := by
  have hpaced : Paced s.ticked (s.appDivider + 1) := pass_paced hinStep.paced hinStep.divider s.appToMcu
  obtain ⟨-, hwatched, -⟩ := hlinked.polled hpaced.nowMs
  have hstore := (stepMs_store s).trans (Watched.store hwatched)
  have hlast := Linked.lastPublishMs hlinked
  rw [← stepMs_machine] at hlast
  obtain ⟨published, hle, hlt, hshown, hlatest⟩ := h
  have hclock : s.stepMs.rig.machine.clock = s.rig.machine.clock + 1 := by
    rw [stepMs_machine]
    rfl
  have hage : (soon s - lastPublishMs s).toNat = s.rig.machine.clock + 1 - published := by
    rw [hshown, soon, ← shown_zero, ← shown_zero]
    exact shown_sub (by omega) (by omega)
  have hperiod : kPeriodMs.toNat = 10 := rfl
  unfold Fresh
  rw [hclock, hstore]
  change ∃ published, _ ∧ _ ∧ s.stepMs.rig.machine.mcu.telemetry.lastPublishMs = _ ∧ _
  rw [hlast]
  by_cases hearly : soon s - lastPublishMs s < kPeriodMs
  · rw [if_pos hearly, if_pos hearly]
    rw [BitVec.lt_def] at hearly
    exact ⟨published, by omega, by omega, hshown, hlatest⟩
  · rw [if_neg hearly, if_neg hearly, latest_append]
    exact ⟨s.rig.machine.clock + 1, le_rfl, by omega, rfl, Or.inr rfl⟩

/-- Step lemma. -/
theorem next_fresh (h : Fresh s) (hlinked : Linked s frames) (hinStep : InStep s)
    (action : SystemSim.Action P) : Fresh (s.next action) := by
  have hstep := next_step s action
  generalize s.next action = s' at hstep
  cases hstep with
  | stepMs => exact stepMs_fresh h hlinked hinStep
  | touch _ => exact h
  | command _ app calls =>
    obtain ⟨published, hle, hlt, hshown, hlatest⟩ := h
    refine ⟨published, hle, hlt, hshown, ?_⟩
    change published = 0 ∨ app.mcu.store.latest.tMs = _
    rw [calls_store calls]
    exact hlatest

theorem fresh_of_operated (h : Operated s) : Fresh s := by
  refine (Reachable.keeps h (fun s => Operated s ∧ Fresh s) ?_ ?_).2
  · intro s hs
    refine ⟨Reachable.init hs, 0, ?_⟩
    obtain ⟨scaleNoise, tempNoise, rfl⟩ := hs
    exact ⟨Nat.zero_le _, show 0 < 10 by decide, rfl, Or.inl rfl⟩
  · rintro s action _ ⟨hs, hfresh⟩ hlast
    obtain ⟨frames, hlinked⟩ := linked_of_operated hs
    refine ⟨Reachable.step hs hlast, ?_⟩
    obtain ⟨-, rfl⟩ := hlast
    exact next_fresh hfresh hlinked (inStep_of_reachable hs) action

/-! What the sample holds. -/

/-- The writes of a tick leave the speed as it is. -/
theorem driven_shownRpm {found : SimBoard Models} {rig : Rig} (h : Rig.Driven found rig) :
    rig.board.sensors.motor.shownRpm = found.sensors.motor.shownRpm := by
  obtain ⟨stalled, hmotor, -⟩ := h.motor
  rw [hmotor]
  rfl

omit [Program Link P] in
/-- The inputs of the next tick, told from the board it leaves. -/
theorem publisher_inputs (hinStep : InStep s) : (publisher s).inputs =
    { tempC := toCelsius (fromCelsius (s.ticked.board.sensors.thermal.temperatureC +
        s.rig.board.sensors.tempSensor.noise s.rig.board.sensors.tempSensor.draws))
      rpm := s.ticked.board.sensors.motor.shownRpm
      lidClosed := s.ticked.board.lid.closed
      lidLocked := s.rig.board.lid.locked
      motorStalled := s.rig.board.sensors.step.motor.stalled } := by
  have hsound := hinStep.paced.sound
  have hbounds := (Rig.stepped_served hsound ⟨s.appToMcu, []⟩).inBounds (step_inBounds hsound.bounds)
  have hread := readDeciCelsius_working hbounds.sensor
  have hsupervised : Supervised (found s) := Machine.arrive_supervised hsound.supervised _
  have hinputs := behind_inputs (s := found s) hsupervised hread (soon s)
  have hdriven : Rig.Driven (s.rig.stepped ⟨s.appToMcu, []⟩) s.ticked := Rig.pass_driven hsound ⟨s.appToMcu, []⟩
  generalize s.ticked = ticked at hdriven
  rw [publisher, hinputs, driven_shownRpm hdriven, hdriven.closed, hdriven.thermal]
  rfl

omit [Program Link P] in
/-- The power that the sample reports is what the tick has written to the heater. -/
theorem publisher_powerW (hinStep : InStep s) : (publisher s).powerW = s.ticked.board.sensors.heater.watts := by
  have hsound : Rig.Sound s.ticked := Rig.pass_sound hinStep.paced.sound ⟨s.appToMcu, []⟩
  rw [hsound.watts, ticked_mcu, tick1ms_eq, publishStage_powerW]
  rfl

/-- The board behind a millisecond is that of its tick, but for the watchdog. -/
theorem stepMs_board (s : SystemSim P) : s.stepMs.rig.board.lid = s.ticked.board.lid ∧
    s.stepMs.rig.board.sensors.motor = s.ticked.board.sensors.motor ∧
    s.stepMs.rig.board.sensors.thermal = s.ticked.board.sensors.thermal ∧
    s.stepMs.rig.board.sensors.heater = s.ticked.board.sensors.heater := by
  have hrig : s.stepMs.rig = fed s.ticked ∨ s.stepMs.rig = s.ticked := by
    unfold SystemSim.stepMs
    split
    · exact Or.inl rfl
    · exact Or.inr rfl
  generalize s.stepMs.rig = rig, s.ticked = ticked at hrig
  rcases hrig with rfl | rfl <;> exact ⟨rfl, rfl, rfl, rfl⟩

theorem shownRpm_small {motor : MotorModel} (h : motor.InRange) : motor.shownRpm < 2 ^ 16 := by
  have hle := h.rpm_le
  unfold MotorModel.kMaxRpm at hle
  have hfloor : ⌊motor.rpm⌋ ≤ 10700 := by exact_mod_cast Int.floor_le_floor hle
  unfold MotorModel.shownRpm
  split <;> omega

/-- From the first ten milliseconds on the latest sample of the application is less than ten milliseconds
old. In the millisecond in which one is due it holds what the sensors have read in it, in the widths of
the wire. -/
theorem telemetry_fresh (h : Operated s) :
    (∃ published, published ≤ s.rig.machine.clock ∧ s.rig.machine.clock < published + 10 ∧
      (10 ≤ s.rig.machine.clock → s.app.mcu.store.latest.tMs = Machine.now published)) ∧
    (¬ soon s - lastPublishMs s < kPeriodMs →
      let after := s.stepMs.rig.board
      let sample := s.stepMs.app.mcu.store.latest
      sample.tMs = soon s ∧ sample.rpm = after.sensors.motor.shownRpm ∧
        sample.deciCelsius = (BitVec.ofInt 16 (fromCelsius (after.sensors.thermal.temperatureC +
          s.rig.board.sensors.tempSensor.noise s.rig.board.sensors.tempSensor.draws))).toInt ∧
        sample.flags = (if after.lid.closed then kFlagLidClosed else 0) |||
          (if s.rig.board.lid.locked then kFlagLidLocked else 0) |||
          (if after.sensors.heater.watts > 0 then kFlagHeaterOn else 0) |||
          (if s.rig.board.sensors.step.motor.stalled then kFlagMotorStalled else 0)) := by
  have hinStep := inStep_of_reachable h
  obtain ⟨frames, hlinked⟩ := linked_of_operated h
  constructor
  · obtain ⟨published, hle, hlt, -, hlatest⟩ := fresh_of_operated h
    exact ⟨published, hle, hlt, fun hold => hlatest.resolve_left (by omega)⟩
  · intro hdue
    have hpaced : Paced s.ticked (s.appDivider + 1) := pass_paced hinStep.paced hinStep.divider s.appToMcu
    obtain ⟨-, hwatched, -⟩ := hlinked.polled hpaced.nowMs
    have hstore := (stepMs_store s).trans (Watched.store hwatched)
    rw [if_neg hdue] at hstore
    obtain ⟨hlid, hmotor, hthermal, hheater⟩ := stepMs_board s
    have hinputs := publisher_inputs hinStep
    have hpower := publisher_powerW hinStep
    have hsmall := shownRpm_small hpaced.sound.bounds.motor
    dsimp only
    rw [hstore, latest_append, hlid, hmotor, hthermal, hheater, ← hpower]
    generalize publisher s = mcu at hinputs ⊢
    refine ⟨rfl, ?_, ?_, ?_⟩
    · change mcu.inputs.rpm % 2 ^ 16 = _
      rw [hinputs]
      exact Nat.mod_eq_of_lt hsmall
    · change (BitVec.ofInt 16 (fromCelsius mcu.inputs.tempC)).toInt = _
      rw [hinputs, fromCelsius_toCelsius]
    · change mcu.flags = _
      rw [SafetyMcu.flags, hinputs]

/-- Nine milliseconds pass. -/
def waited : SystemSim Sessions.ManualMode := (List.replicate 9 SystemSim.Action.stepMs).foldl SystemSim.next quiet

theorem waited_operated : Operated waited := by
  refine Reachable.foldl quiet_operated _ fun action haction _ => ?_
  rw [List.eq_of_mem_replicate haction]
  trivial

theorem telemetry_fresh_waited : waited.stepMs.app.mcu.store.latest.tMs = 10 :=
  ((telemetry_fresh waited_operated).2 (by decide +kernel)).1.trans (by decide +kernel)

end Culina.Freshness
