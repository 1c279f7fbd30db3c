import Culina.FaultEntries

/-!
Fault reports. The publisher holds one report back until the link takes it. As long as no fault is
entered meanwhile, the reports sent and the one held back are the faults entered, in order; a fault
entered meanwhile takes the place of the report before it.
-/
namespace Culina.FaultReports

open Wire Drives Ports Commands Safety SafetyMcu Supervision Machine SerialLink FaultEntries FaultLatch
open TelemetryPublisher Lid Runs

/-! The reports on a link. -/

variable {K H : Type} [LinkPort K]

def report (code : FaultCode) : List Byte := [code.toByte]

theorem send_reports (tap : Tap K) (type : FrameType) (seq : Byte) (msgId : MsgId) (payload : List Byte) :
    (LinkPort.send tap type seq msgId payload).2.reports =
      if (LinkPort.send tap type seq msgId payload).1 = .ok ∧ type = .telemetry ∧ msgId = MsgId.fault then
        tap.reports ++ [payload]
      else tap.reports := by
  have hqueued := tap.send_queued type seq msgId payload
  generalize LinkPort.send tap type seq msgId payload = sent at hqueued ⊢
  unfold Tap.reports
  rw [hqueued]
  by_cases hok : sent.1 = .ok
  · by_cases hreport : type = .telemetry ∧ msgId = MsgId.fault
    · simp [hok, hreport, List.filter_append]
    · simp [hok, hreport, List.filter_append]
  · simp [hok]

/-- The report held back. -/
def held (publisher : TelemetryPublisher) : List (List Byte) :=
  if publisher.pendingFault = .none then [] else [report publisher.pendingFault]

theorem publishSample_reports (publisher : TelemetryPublisher) (tap : Tap K) (data : TelemetryData)
    (now : Millis) :
    (publisher.publishSample tap data now).2.reports = tap.reports ∧
      held (publisher.publishSample tap data now).1 = held publisher := by
  have hsend := send_reports tap .telemetry publisher.seq MsgId.telemetry (encodeTelemetry data)
  rw [if_neg fun h => absurd h.2.2 (by decide)] at hsend
  unfold publishSample
  split
  · exact ⟨rfl, rfl⟩
  · rcases hstatus : LinkPort.send tap .telemetry publisher.seq MsgId.telemetry (encodeTelemetry data)
      with ⟨status, link⟩
    rw [hstatus] at hsend
    dsimp only
    split
    · exact ⟨hsend, rfl⟩
    · exact ⟨hsend, rfl⟩

/-- Publishing moves the report held back to the link, or keeps it. -/
theorem maybePublish_reports (publisher : TelemetryPublisher) (tap : Tap K) (data : TelemetryData)
    (now : Millis) :
    (publisher.maybePublish tap data now).2.reports ++ held (publisher.maybePublish tap data now).1 =
      tap.reports ++ held publisher := by
  unfold maybePublish
  split
  · rename_i hpending
    have hheld : held publisher = [report publisher.pendingFault] := if_neg hpending
    have hsend := send_reports tap .telemetry publisher.seq MsgId.fault [publisher.pendingFault.toByte]
    rcases hstatus : LinkPort.send tap .telemetry publisher.seq MsgId.fault [publisher.pendingFault.toByte]
      with ⟨status, link⟩
    rw [hstatus] at hsend
    dsimp only at hsend ⊢
    split
    · rename_i hrefused
      rw [if_neg fun h => hrefused h.1] at hsend
      rw [hsend]
    · rename_i haccepted
      rw [if_pos ⟨not_not.mp haccepted, rfl, rfl⟩] at hsend
      obtain ⟨hreports, hkept⟩ := publishSample_reports
        { publisher with seq := publisher.seq + 1, pendingFault := .none } link data now
      have hnone : held { publisher with seq := publisher.seq + 1, pendingFault := .none } = [] := if_pos rfl
      rw [hreports, hkept, hnone, hsend, hheld, List.append_nil]
      rfl
  · obtain ⟨hreports, hkept⟩ := publishSample_reports publisher tap data now
    rw [hreports, hkept]

/-! One tick. -/

variable [Board H] {s : SafetyMcu (Tap K) H}

/-- Replies report no fault. -/
theorem handleFrame_reports (s : SafetyMcu (Tap K) H) (frame : Frame) (now : Millis) :
    (s.handleFrame frame now).link.reports = s.link.reports ∧
      (s.handleFrame frame now).telemetry = s.telemetry := by
  refine ⟨?_, rfl⟩
  have hexec := CommandHandler.execute_executed s.handler frame s.inputs (decide (s.fault ≠ .none))
  change (s.handler.handle s.link frame s.inputs (decide (s.fault ≠ .none))).1.reports = _
  unfold CommandHandler.handle
  generalize s.handler.execute frame s.inputs (decide (s.fault ≠ .none)) = outcome at hexec ⊢
  obtain ⟨_ | reply, handler⟩ := outcome
  · rfl
  · have hreply : reply.type ≠ .telemetry := by
      cases hexec <;> nofun
    dsimp only
    rw [send_reports, if_neg fun h => hreply h.2.1]

theorem frameStage_reports (s : SafetyMcu (Tap K) H) (now : Millis) :
    (s.frameStage now).1.link.reports = s.link.reports ∧
      (s.frameStage now).1.telemetry = s.telemetry := by
  refine pollFrames_polls s now
    (fun t _ => t.link.reports = s.link.reports ∧ t.telemetry = s.telemetry) _ ?_ ?_ [] ⟨rfl, rfl⟩
  · intro t log h
    exact h
  · intro t frame log h
    obtain ⟨hreports, htelemetry⟩ := handleFrame_reports t frame now
    exact ⟨hreports.trans h.1, htelemetry.trans h.2⟩

/-- What the publisher holds when a tick comes to its end: the last fault entered. -/
theorem judge_reports (s : SafetyMcu (Tap K) H) (now : Millis) :
    ((looped s now).judge now).link.reports = s.link.reports ∧
      ((looped s now).judge now).telemetry =
        (entries s now).foldl publishFault s.telemetry := by
  have hsample : s.sampleStage.link.reports = s.link.reports := by rw [sampleStage_link]
  have hrefreshed : (refreshed s).telemetry = s.telemetry := by
    unfold refreshed sampleInputs
    dsimp only
    rcases Board.readDeciCelsius s.handler.board with ⟨status | reading, board⟩ <;> rfl
  obtain ⟨hreports, htelemetry⟩ := frameStage_reports s.sampleStage now
  rw [judge_link]
  refine ⟨hreports.trans hsample, ?_⟩
  have hfirst : (looped s now).telemetry = (sensorEntry s).toList.foldl publishFault s.telemetry := by
    rw [looped, htelemetry, sampleStage_entry]
    cases sensorEntry s with
    | none => exact hrefreshed
    | some code => exact congrArg (publishFault · code) hrefreshed
  rw [judge, linkStage_entry, interlockStage_entry]
  unfold entries
  rw [interlockStage_entry, List.foldl_append, List.foldl_append, ← hfirst]
  generalize hinterlock : interlockEntry (looped s now) = first
  cases first with
  | none =>
    dsimp only [Option.elim, Option.toList]
    generalize linkEntry (looped s now) now = second
    cases second <;> rfl
  | some code =>
    dsimp only [Option.elim, Option.toList]
    generalize linkEntry ((looped s now).enterFault code) now = second
    cases second <;> rfl

theorem publishStage_reports (s : SafetyMcu (Tap K) H) (now : Millis) :
    (s.publishStage now).link.reports ++ held (s.publishStage now).telemetry =
      s.link.reports ++ held s.telemetry := by
  unfold publishStage
  exact maybePublish_reports _ _ _ _

/-- Step lemma: what has been reported and is held back behind a tick. -/
theorem tick1ms_reports (s : SafetyMcu (Tap K) H) (now : Millis) :
    (s.tick1ms now).link.reports ++ held (s.tick1ms now).telemetry =
      s.link.reports ++ held ((entries s now).foldl publishFault s.telemetry) := by
  obtain ⟨hreports, htelemetry⟩ := judge_reports s now
  have hdriven : ((looped s now).judge now).driveStage.telemetry = ((looped s now).judge now).telemetry :=
    rfl
  rw [tick1ms_eq, publishStage_reports, driveStage_link, hdriven, hreports, htelemetry]

/-! Runs. -/

variable {H : Type} [Board H]

/-- The processor on a serial link, with the faults it has entered. -/
structure Monitor (H : Type) where
  mcu : SafetyMcu (Tap Link) H
  clock : ℕ
  entered : List FaultCode := []

namespace Monitor

def arrive (m : Monitor H) (input : TickInput H) : SafetyMcu (Tap Link) H :=
  let link := m.mcu.link.link
  { m.mcu with
    link := { m.mcu.link with link := { link with uart := link.uart.receive input.rx } }
    handler := { m.mcu.handler with board := input.board } }

def advance (m : Monitor H) (input : TickInput H) : Monitor H :=
  let clock := m.clock + input.elapsed
  { mcu := (m.arrive input).tick1ms (now clock)
    clock
    entered := m.entered ++ entries (m.arrive input) (now clock) }

/-- Construction with any UART, board and time; the UART accepts what it likes of each write. -/
def Booted (m : Monitor H) : Prop :=
  ∃ (uart : Uart) (board : H) (clock : ℕ),
    m = ⟨.boot ⟨⟨uart, {}, 0, [], 0⟩, []⟩ board (now clock), clock, []⟩

/-- The fault frames queued, completed by the report held back, are the faults entered. -/
def Reported (m : Monitor H) : Prop :=
  m.mcu.link.reports ++ held m.mcu.telemetry = m.entered.map report

/-- A tick that enters a fault starts without a report held back. -/
def Unobstructed (m : Monitor H) (input : TickInput H) : Prop :=
  entries (m.arrive input) (now (m.clock + input.elapsed)) ≠ [] →
    m.mcu.telemetry.pendingFault = .none

theorem held_eq_nil {publisher : TelemetryPublisher} :
    held publisher = [] ↔ publisher.pendingFault = .none := by
  unfold held
  split_ifs with h
  · exact ⟨fun _ => h, fun _ => rfl⟩
  · exact ⟨nofun, fun hnone => absurd hnone h⟩

/-- What a tick makes of the account. -/
theorem reported_advance_iff (m : Monitor H) (input : TickInput H) :
    Reported (m.advance input) ↔
      m.mcu.link.reports ++
          held ((entries (m.arrive input) (now (m.clock + input.elapsed))).foldl publishFault
            m.mcu.telemetry) =
        m.entered.map report ++
          (entries (m.arrive input) (now (m.clock + input.elapsed))).map report := by
  have htick := tick1ms_reports (m.arrive input) (now (m.clock + input.elapsed))
  have harrive : (m.arrive input).link.reports = m.mcu.link.reports := rfl
  rw [harrive] at htick
  rw [Reported, ← List.map_append]
  exact Eq.congr_left htick

/-- Step lemma. -/
theorem advance_reported {m : Monitor H} (h : Reported m) (input : TickInput H) :
    Reported (m.advance input) ↔ Unobstructed m input := by
  rw [reported_advance_iff, ← h]
  unfold Unobstructed
  rcases entries_cases (m.arrive input) (now (m.clock + input.elapsed)) with hnone | ⟨code, hcode, hone⟩
  · rw [hnone]
    simp
  · have hheld : held (publishFault m.mcu.telemetry code) = [report code] := if_neg hcode
    rw [hone, List.foldl_cons, List.foldl_nil, hheld, List.map_singleton, List.append_assoc,
      List.append_cancel_left_eq, ← held_eq_nil]
    constructor
    · intro hsame _
      exact List.self_eq_append_left.mp hsame
    · intro hfree
      rw [hfree (List.cons_ne_nil _ _), List.nil_append]

/-- The account is right in every state of a run exactly if no fault is entered while a report is
held back. -/
theorem fault_reports {m : Monitor H} (hbooted : Booted m) (inputs : List (TickInput H)) :
    Along (fun m input => Reported (m.advance input)) advance m inputs ↔
      Along Unobstructed advance m inputs := by
  have hstart : Reported m := by
    obtain ⟨uart, board, clock, rfl⟩ := hbooted
    rfl
  have hallowed : ∀ inputs (m : Monitor H), Along (fun _ _ => True) advance m inputs := by
    intro inputs
    induction inputs with
    | nil => exact fun _ => trivial
    | cons input rest ih => exact fun m => ⟨trivial, ih _⟩
  refine along_iff Reported ?_ ?_ hstart inputs (hallowed inputs m)
  · intro m input h _
    exact advance_reported h input
  · intro m input h _ hfree
    exact (advance_reported h input).mpr hfree

instance (m : Monitor H) : Decidable (Reported m) := inferInstanceAs (Decidable (_ = _))

/-! A UART that accepts no byte: samples fill the transmit buffer before the first fault. -/

def idleBoard : SimBoard SteadySensors where
  sensors := {}

def clogged : Monitor (SimBoard SteadySensors) :=
  ⟨.boot ⟨⟨⟨fun _ _ => 0, 0, [], []⟩, {}, 0, [], 0⟩, []⟩ idleBoard (now 0), 0, []⟩

def idleInput : TickInput (SimBoard SteadySensors) := ⟨10, [], idleBoard⟩

def stallInput : TickInput (SimBoard SteadySensors) := ⟨1, [], { sensors := { stalled := true } }⟩

def unreadInput : TickInput (SimBoard SteadySensors) :=
  ⟨1, [], { sensors := { reading := .error .hardwareFault } }⟩

theorem clogged_booted : Booted clogged := ⟨_, idleBoard, 0, rfl⟩

/-- The sensor fault takes the place of the stall that was never sent. -/
theorem fault_reports_lost :
    ¬ ∀ m : Monitor (SimBoard SteadySensors), Booted m → ∀ inputs,
      Along (fun m input => Reported (m.advance input)) advance m inputs := by
  intro h
  have hrun := h clogged clogged_booted
    ((List.replicate 45 idleInput ++ [stallInput]) ++ unreadInput :: [])
  have hlost : ¬ Reported
      (((List.replicate 45 idleInput ++ [stallInput]).foldl advance clogged).advance unreadInput) := by
    decide +kernel
  exact hlost hrun.at

theorem fault_reports_stall :
    Along (fun m input => Reported (m.advance input)) advance clogged [stallInput] :=
  (fault_reports clogged_booted [stallInput]).mpr ⟨fun _ => rfl, trivial⟩

end Monitor

end Culina.FaultReports
