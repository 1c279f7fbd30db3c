import Culina.FaultLatch

/-!
Overtemperature. A tick that reads 165 °C or above ends with the heater off and a fault latched. The
interlocks enter faults into an empty latch only: the fault is overtemperature unless another one was
latched before the tick and no stop request came in it.
-/
namespace Culina.Overtemperature

open Wire Drives Ports Commands Safety SafetyMcu Supervision Machine SerialLink FaultLatch Lid Runs

section Stages

variable {K H : Type} {s : SafetyMcu K H}

theorem evaluate_overtemp {inputs : Inputs} (h : kOvertempCutoffC ≤ inputs.tempC) :
    inputs.evaluate = .overtemp := by
  unfold Inputs.evaluate
  rw [if_pos h]

/-- An overheated latch takes overtemperature if it is empty, and keeps its fault otherwise. -/
theorem judge_overtemp (now : Millis) (h : kOvertempCutoffC ≤ s.inputs.tempC) :
    (s.judge now).fault = if s.fault = .none then .overtemp else s.fault := by
  have hinter : s.interlockStage.fault = if s.fault = .none then .overtemp else s.fault := by
    unfold interlockStage
    rw [evaluate_overtemp h]
    by_cases hnone : s.fault = .none
    · rw [if_pos hnone, if_pos ⟨hnone, by decide⟩]
      rfl
    · rw [if_neg hnone, if_neg fun h => hnone h.1]
  have hlatched : s.interlockStage.fault ≠ .none := by
    rw [hinter]
    split_ifs with hnone
    · decide
    · exact hnone
  unfold judge linkStage
  rw [if_neg fun h => hlatched h.1, hinter]

variable [LinkPort K] [Board H]

/-- An overheated tick: what is latched at its end. -/
theorem tick1ms_overtemp {reading : DeciCelsius}
    (hread : (Board.readDeciCelsius s.handler.board).1 = .ok reading)
    (hhot : kOvertempCutoffC ≤ toCelsius reading) (now : Millis) :
    (s.tick1ms now).fault =
      if s.fault = .none ∨ s.fault = .overtemp ∨ ∃ x ∈ s.exchanges now, IsStop x.frame then .overtemp
      else s.fault := by
  rcases hboard : Board.readDeciCelsius s.handler.board with ⟨status | value, board⟩
  · rw [hboard] at hread
    cases hread
  rw [hboard] at hread
  cases hread
  have hsample := sampleStage_ok hboard
  have hfault : s.sampleStage.fault = s.fault := by rw [hsample]
  have hinputs : s.sampleStage.inputs.tempC = toCelsius reading := by
    rw [hsample]
    rfl
  have hloop := frameStage_latchFrom s.sampleStage now
  have hclear : s.sampleStage.canClearFault = true ↔ s.fault ≠ .overtemp := by
    have hcold : ¬ toCelsius reading < kOvertempCutoffC := not_lt.mpr hhot
    rw [hsample]
    cases s.fault <;> simp [canClearFault, sampled, hcold]
  rw [tick1ms_fault, judge_overtemp now (by rw [looped, hloop.inputs, hinputs]; exact hhot)]
  change (if (s.sampleStage.frameStage now).1.fault = .none then _ else _) = _
  by_cases hover : s.fault = .overtemp
  · have hkept := hloop.kept fun h => absurd hover (hclear.mp h)
    rw [if_pos (Or.inr (Or.inl hover)), looped, hkept, hfault, hover, if_neg (by decide)]
  · by_cases hstop : ∃ x ∈ s.exchanges now, IsStop x.frame
    · rw [hloop.cleared (hclear.mpr hover) hstop, if_pos rfl, if_pos (Or.inr (Or.inr hstop))]
    · have hkept := hloop.kept fun _ x hx h => hstop ⟨x, hx, h⟩
      rw [looped, hkept, hfault]
      by_cases hnone : s.fault = .none
      · rw [if_pos hnone, if_pos (Or.inl hnone)]
      · rw [if_neg hnone, if_neg]
        rintro (h | h | h)
        · exact hnone h
        · exact hover h
        · exact hstop h

end Stages

variable {H : Type} [Board H]

/-- A tick that reads 165 °C or above ends with the heater off and a fault latched, which is
overtemperature unless another fault was latched before and no stop request came. -/
theorem overtemperature {m : Machine H} (hreach : Reachable Booted Ticked m) (input : TickInput H)
    {reading : DeciCelsius} (hread : (Board.readDeciCelsius input.board).1 = .ok reading)
    (hhot : 165 ≤ toCelsius reading) :
    let after := m.advance input
    after.mcu.powerW = 0 ∧ after.mcu.handler.pid.enabled = false ∧ after.mcu.fault ≠ .none ∧
      after.mcu.fault =
        if m.mcu.fault = .none ∨ m.mcu.fault = .overtemp ∨
            ∃ x ∈ (m.arrive input).exchanges (now after.clock), IsStop x.frame then .overtemp
        else m.mcu.fault := by
  have hcutoff : kOvertempCutoffC ≤ toCelsius reading := hhot
  have hread' : (Board.readDeciCelsius (m.arrive input).handler.board).1 = .ok reading := hread
  have hfault := tick1ms_overtemp hread' hcutoff (now (m.clock + input.elapsed))
  rw [← advance_mcu] at hfault
  have hlatched : (m.advance input).mcu.fault ≠ .none := by
    rw [hfault]
    split_ifs with hcode
    · decide
    · exact fun h => hcode (Or.inl h)
  obtain ⟨-, hpid, hpower⟩ := latched_at_rest (supervised_of_reachable hreach) input hlatched
  exact ⟨hpower, hpid, hlatched, hfault⟩

/-! A stall before the bowl overheats. -/

def stalledBoard : SimBoard SteadySensors where
  sensors := { stalled := true }

def hotBoard : SimBoard SteadySensors where
  sensors := { reading := .ok 1650, stalled := true }

def stalledMachine : Machine (SimBoard SteadySensors) :=
  ⟨.boot ⟨⟨fun _ len => len, 0, [], []⟩, {}, 0, [], 0⟩ stalledBoard (now 0), 0, [], none⟩

def stalled : Machine (SimBoard SteadySensors) := stalledMachine.advance ⟨1, [], stalledBoard⟩

theorem stalled_reachable : Reachable Booted Ticked stalled :=
  (Reachable.init ⟨_, stalledBoard, 0, rfl⟩).step rfl

/-- The stall masks the overtemperature. -/
theorem overtemperature_masked : ¬ ∀ m : Machine (SimBoard SteadySensors),
    Reachable Booted Ticked m → ∀ input reading,
      (Board.readDeciCelsius input.board).1 = .ok reading → 165 ≤ toCelsius reading →
      (m.advance input).mcu.powerW = 0 ∧ (m.advance input).mcu.handler.pid.enabled = false ∧
        (m.advance input).mcu.fault = .overtemp := by
  intro h
  have hcode : (stalled.advance ⟨1, [], hotBoard⟩).mcu.fault = .motorStall := by decide +kernel
  have hover := (h stalled stalled_reachable ⟨1, [], hotBoard⟩ 1650 rfl (by norm_num [toCelsius])).2.2
  rw [hcode] at hover
  cases hover

theorem overtemperature_unstalled :
    (stalledMachine.advance ⟨1, [], hotBoard⟩).mcu.fault = .overtemp :=
  (overtemperature (Reachable.init ⟨_, stalledBoard, 0, rfl⟩) ⟨1, [], hotBoard⟩ rfl
    (by norm_num [toCelsius])).2.2.2

end Culina.Overtemperature
