import Culina.FaultLatch

/-!
Where faults are entered. A tick enters a fault in three places: for an unread sensor, for what
the interlocks find, and for a lost link. Each enters at most one.
-/
namespace Culina.FaultEntries

open Wire Drives Ports Commands Safety SafetyMcu Supervision FaultLatch

variable {K H : Type}

/-- What the interlocks make the tick enter. -/
def interlockEntry (s : SafetyMcu K H) : Option FaultCode :=
  if s.fault = .none ∧ s.inputs.evaluate ≠ .none then some s.inputs.evaluate else none

def linkEntry (s : SafetyMcu K H) (now : Millis) : Option FaultCode :=
  if s.fault = .none ∧ s.driven = true ∧ now - s.lastValidFrameMs ≥ kLinkTimeoutMs then some .linkLost
  else none

theorem interlockStage_entry (s : SafetyMcu K H) :
    s.interlockStage = (interlockEntry s).elim s s.enterFault := by
  unfold interlockStage interlockEntry
  split_ifs <;> rfl

theorem linkStage_entry (s : SafetyMcu K H) (now : Millis) :
    s.linkStage now = (linkEntry s now).elim s s.enterFault := by
  unfold linkStage linkEntry
  split_ifs <;> rfl

theorem interlockEntry_of_fault {s : SafetyMcu K H} (h : s.fault ≠ .none) : interlockEntry s = none :=
  if_neg fun hcheck => h hcheck.1

theorem linkEntry_of_fault {s : SafetyMcu K H} (h : s.fault ≠ .none) (now : Millis) : linkEntry s now = none :=
  if_neg fun hcheck => h hcheck.1

variable [Board H]

/-- The state behind the sensor read. -/
def refreshed (s : SafetyMcu K H) : SafetyMcu K H :=
  ({ s with tickCount := s.tickCount + 1 } : SafetyMcu K H).sampleInputs.2

def sensorEntry (s : SafetyMcu K H) : Option FaultCode :=
  if (refreshed s).tempSensorOk = false ∧ (refreshed s).fault ≠ .sensorFailure then
    some .sensorFailure
  else none

theorem sampleStage_entry (s : SafetyMcu K H) :
    s.sampleStage = (sensorEntry s).elim (refreshed s) (refreshed s).enterFault := by
  unfold sampleStage sensorEntry refreshed sampleInputs
  dsimp only
  rcases Board.readDeciCelsius s.handler.board with ⟨status | reading, board⟩
  · by_cases hfault : s.fault = .sensorFailure <;> simp [hfault]
  · simp

variable [LinkPort K]

/-- The codes with which a tick enters faults, in order. -/
def entries (s : SafetyMcu K H) (now : Millis) : List FaultCode :=
  (sensorEntry s).toList ++ (interlockEntry (looped s now)).toList ++
    (linkEntry (looped s now).interlockStage now).toList

/-- A sensor that cannot be read holds its fault through the frame loop. -/
theorem looped_of_sensorEntry {s : SafetyMcu K H} {code : FaultCode} (h : sensorEntry s = some code) (now : Millis) :
    code = .sensorFailure ∧ (looped s now).fault = .sensorFailure := by
  unfold sensorEntry at h
  split_ifs at h with hcheck
  cases h
  have hstage : s.sampleStage = (refreshed s).enterFault .sensorFailure := by
    rw [sampleStage_entry, sensorEntry, if_pos hcheck]
    rfl
  have hclear : s.sampleStage.canClearFault = false := by
    rw [hstage]
    exact hcheck.1
  have hkept := (frameStage_latchFrom s.sampleStage now).kept fun h => absurd (hclear.symm.trans h) (by decide)
  refine ⟨rfl, hkept.trans ?_⟩
  rw [hstage]
  rfl

/-- A tick enters at most one fault. -/
theorem entries_cases (s : SafetyMcu K H) (now : Millis) :
    entries s now = [] ∨ ∃ code, code ≠ .none ∧ entries s now = [code] := by
  unfold entries
  cases hsensor : sensorEntry s with
  | some code =>
    obtain ⟨rfl, hfault⟩ := looped_of_sensorEntry hsensor now
    have hlatched : (looped s now).fault ≠ .none := by
      rw [hfault]
      decide
    have hinter := interlockEntry_of_fault hlatched
    have hstage : (looped s now).interlockStage = looped s now := by
      rw [interlockStage_entry, hinter]
      rfl
    rw [hstage, hinter, linkEntry_of_fault hlatched]
    exact Or.inr ⟨.sensorFailure, by decide, rfl⟩
  | none =>
    cases hinter : interlockEntry (looped s now) with
    | some code =>
      have hcode : code ≠ .none := by
        unfold interlockEntry at hinter
        split_ifs at hinter with hcheck
        cases hinter
        exact hcheck.2
      have hstage : (looped s now).interlockStage = (looped s now).enterFault code := by
        rw [interlockStage_entry, hinter]
        rfl
      rw [hstage, linkEntry_of_fault hcode]
      exact Or.inr ⟨code, hcode, rfl⟩
    | none =>
      cases hlink : linkEntry (looped s now).interlockStage now with
      | none => exact Or.inl rfl
      | some code =>
        unfold linkEntry at hlink
        split_ifs at hlink
        cases hlink
        exact Or.inr ⟨.linkLost, by decide, rfl⟩

/-- A tick that enters no fault passes the checks behind the frame loop. -/
theorem judge_of_no_entry {s : SafetyMcu K H} {now : Millis} (h : entries s now = []) :
    (looped s now).judge now = looped s now := by
  unfold entries at h
  rw [List.append_eq_nil_iff, List.append_eq_nil_iff, Option.toList_eq_nil_iff,
    Option.toList_eq_nil_iff, Option.toList_eq_nil_iff] at h
  obtain ⟨⟨-, hinterlock⟩, hlink⟩ := h
  have hsame : (looped s now).interlockStage = looped s now := by
    rw [interlockStage_entry, hinterlock]
    rfl
  rw [hsame] at hlink
  rw [judge, hsame, linkStage_entry, hlink]
  rfl

end Culina.FaultEntries
