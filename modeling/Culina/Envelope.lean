import Culina.Supervision
import Culina.Lid
import Culina.Counters

/-!
The safety envelope: in every run, an output that is driven at the end of a tick is
permitted by what was sampled in that tick, by the latch and by a recent request,
and the duty respects the lid and spill limits. The last request is compared in true
time, so the wrap of the millisecond counter is covered.
-/
namespace Culina.Envelope

open Wire Drives Ports Commands Safety SafetyMcu Supervision Machine SerialLink Lid

variable {H : Type} [Board H]

/-- The link time of a machine stamps its last request, and a driven output has a
recent one. -/
structure Linked (m : Machine H) : Prop where
  stamped : ∀ t, m.lastRequestAt = some t → t ≤ m.clock ∧ m.mcu.lastValidFrameMs = now t
  recent : m.mcu.driven = true → ∃ t, m.lastRequestAt = some t ∧ m.clock - t < 5000

/-- The counter difference is the true one while the true one fits the counter. -/
theorem now_sub {clock t : ℕ} (hle : t ≤ clock) (hfits : clock - t < 2 ^ 32) :
    (now clock - now t).toNat = clock - t := Counters.ofNat_sub_ofNat hle hfits

/-- Step lemma: a timely tick keeps the link time. -/
theorem advance_linked {m : Machine H} (hs : Supervised m.mcu) (hlinked : Linked m)
    {input : TickInput H} (helapsed : input.elapsed < 2 ^ 32 - 5000) :
    Linked (m.advance input) := by
  have hs := arrive_supervised hs input
  have hlast := tick1ms_lastValidFrameMs hs (now (m.clock + input.elapsed))
  by_cases hany : anyRequest ((m.arrive input).exchanges (now (m.clock + input.elapsed))) = true
  · simp only [hany, if_true] at hlast
    constructor
    · intro t ht
      simp only [advance, hany, if_true, Option.some.injEq] at ht ⊢
      subst ht
      exact ⟨le_refl _, hlast⟩
    · intro _
      refine ⟨m.clock + input.elapsed, ?_, ?_⟩
      · simp only [advance, hany, if_true]
      · simp only [advance]
        omega
  · have hstamped : ∀ t, m.lastRequestAt = some t → t ≤ m.clock ∧
        ((m.arrive input).tick1ms (now (m.clock + input.elapsed))).lastValidFrameMs = now t := by
      intro t ht
      obtain ⟨hle, hstamp⟩ := hlinked.stamped t ht
      rw [hlast, if_neg hany]
      exact ⟨hle, hstamp⟩
    constructor
    · intro t ht
      simp only [advance, hany] at ht ⊢
      obtain ⟨hle, hstamp⟩ := hstamped t ht
      exact ⟨Nat.le_add_right_of_le hle, hstamp⟩
    · intro hdriven
      obtain ⟨_, hsource, hage⟩ := tick1ms_driven hs hdriven
      obtain ⟨t, ht, hold⟩ := hlinked.recent (hsource.resolve_left hany)
      obtain ⟨hle, hstamp⟩ := hstamped t ht
      refine ⟨t, ?_, ?_⟩
      · simp only [advance, hany]
        exact ht
      · have hnow : m.clock + input.elapsed - t < 2 ^ 32 := by omega
        rw [hstamp, BitVec.lt_def, now_sub (Nat.le_add_right_of_le hle) hnow] at hage
        exact hage

theorem linked_of_reachable {m : Machine H} (h : Runs.Reachable Booted Timely m) :
    Supervised m.mcu ∧ Linked m := by
  refine h.keeps (fun m => Supervised m.mcu ∧ Linked m) ?_ ?_
  · rintro m ⟨uart, board, clock, rfl⟩
    refine ⟨boot_supervised _ _ _, ⟨fun t ht => ?_, fun hdriven => ?_⟩⟩
    · cases ht
    · cases hdriven
  · rintro m input m' ⟨hs, hlinked⟩ ⟨helapsed, rfl⟩
    exact ⟨tick1ms_supervised (arrive_supervised hs input) _, advance_linked hs hlinked helapsed⟩

/-- What permits a driven output at the end of a tick. -/
structure Permitted (input : TickInput H) (after : Machine H) : Prop where
  cool : ∃ reading, (Board.readDeciCelsius input.board).1 = .ok reading ∧ toCelsius reading < 165
  turning : Board.stalled (Board.readDeciCelsius input.board).2 = false
  unlatched : after.mcu.fault = .none
  recent : ∃ t, after.lastRequestAt = some t ∧ t ≤ after.clock ∧ after.clock - t < 5000

theorem permitted_of_driven {m : Machine H} (hs : Supervised m.mcu) (hlinked : Linked m)
    {input : TickInput H} (helapsed : input.elapsed < 2 ^ 32 - 5000)
    (hdriven : (m.advance input).mcu.driven = true) : Permitted input (m.advance input) := by
  have hfault : (m.advance input).mcu.fault = .none := by
    rw [advance_mcu] at hdriven ⊢
    exact (tick1ms_driven (arrive_supervised hs input) hdriven).1
  have hafter := advance_linked hs hlinked helapsed
  have hs := arrive_supervised hs input
  rw [advance_mcu] at hfault
  obtain ⟨_, heval, reading, hread, hinputs⟩ := tick1ms_unlatched hs hfault
  obtain ⟨hcool, hstall⟩ := Inputs.evaluate_none heval
  rw [hinputs] at hcool hstall
  obtain ⟨t, ht, hage⟩ := hafter.recent hdriven
  exact ⟨⟨reading, hread, hcool⟩, hstall, hfault, t, ht, (hafter.stamped t ht).1, hage⟩

/-- Every output driven at the end of a tick is permitted, and the duty stays within
the limits of the sampled lid and temperature. -/
theorem safety_envelope {m : Machine H} (hreach : Runs.Reachable Booted Timely m)
    (input : TickInput H) (helapsed : input.elapsed < 2 ^ 32 - 5000) :
    let after := m.advance input
    let board := (Board.readDeciCelsius input.board).2
    let speed := after.mcu.handler.motor.duty * 10700
    (0 < after.mcu.powerW ∨ 0 < after.mcu.handler.motor.duty → Permitted input after) ∧
      (0 < after.mcu.powerW →
        Board.isClosed board = true ∧ after.mcu.handler.pid.enabled = true) ∧
      (Board.isClosed board = false → speed ≤ 500) ∧
      (Board.isLocked board = false → speed ≤ 6400) ∧
      (∀ reading, (Board.readDeciCelsius input.board).1 = .ok reading → 60 < toCelsius reading →
        speed ≤ 6400) := by
  obtain ⟨hold, hlinked⟩ := linked_of_reachable hreach
  have hs := arrive_supervised hold input
  refine ⟨fun hout => ?_, fun hpower => ?_, fun hopen => ?_, fun hunlocked => ?_,
    fun reading hread hhot => ?_⟩
  · apply permitted_of_driven hold hlinked helapsed
    rw [advance_mcu] at hout ⊢
    rcases hout with hpower | hduty
    · exact (tick1ms_powerW _ hpower).1
    · exact tick1ms_duty _ hduty
  · rw [advance_mcu] at hpower ⊢
    obtain ⟨hdriven, henabled, hclosed⟩ := tick1ms_powerW _ hpower
    obtain ⟨hfault, _⟩ := tick1ms_driven hs hdriven
    obtain ⟨_, _, reading, hread, hinputs⟩ := tick1ms_unlatched hs hfault
    rw [hinputs] at hclosed
    exact ⟨hclosed, henabled⟩
  · have hlimit : ((500 : ℕ) : ℚ) = 500 := by norm_num
    rw [← hlimit]
    exact advance_capped hold input fun reading _ => Inputs.continuousCap_open hopen
  · have hlimit : ((6400 : ℕ) : ℚ) = 6400 := by norm_num
    rw [← hlimit]
    exact advance_capped hold input fun reading _ => Inputs.continuousCap_unlocked hunlocked
  · have hlimit : ((6400 : ℕ) : ℚ) = 6400 := by norm_num
    rw [← hlimit]
    refine advance_capped hold input fun other hother => ?_
    have hsame : other = reading := Except.ok.inj (hother.symm.trans hread)
    subst hsame
    exact Inputs.continuousCap_hot hhot

/-! A processor that starts its motor in the first tick. -/

def firstBoard : SimBoard SteadySensors where
  sensors := {}

def firstMachine : Machine (SimBoard SteadySensors) :=
  ⟨.boot ⟨⟨fun _ len => len, 0, [], []⟩, {}, 0, [], 0⟩ firstBoard (now 0), 0, [], none⟩

/-- A request for 500 RPM with the gentle ramp arrives. -/
def firstInput : TickInput (SimBoard SteadySensors) where
  elapsed := 1
  rx := Writer.writeFrame kTxCapacity .request 0 MsgId.motorSetTarget [0xF4, 0x01, kRampGentle]
  board := firstBoard

theorem safety_envelope_first : Permitted firstInput (firstMachine.advance firstInput) :=
  (safety_envelope (Runs.Reachable.init ⟨_, firstBoard, 0, rfl⟩) firstInput (by decide)).1
    (Or.inr (by decide +kernel))

end Culina.Envelope
