import Culina.Chunks
import Culina.Services
import Mathlib.GroupTheory.GroupAction.Ring

/-!
Chunked verification. A started verification takes its image chunk by chunk, whatever else is
called in between, and ends with the checksum of the whole image.
-/
namespace Culina.OtaVerification

open Wire Crc Services OtaUpdater Chunks

variable {ota : OtaUpdater} {image : List Byte} {expectedCrc : BitVec 16}

/-- The bytes the next step reads: from `verified` on, this many. -/
def nextChunk (ota : OtaUpdater) : ℕ := min kChunkBytes (ota.image.length - ota.verified)

theorem step_eq (ota : OtaUpdater) : ota.step =
    if ota.state = .verifying then
      { ota with
        runningCrc := crc16Ccitt ((ota.image.drop ota.verified).take (nextChunk ota)) ota.runningCrc
        verified := ota.verified + nextChunk ota
        state :=
          if ota.verified + nextChunk ota ≥ ota.image.length then
            (if crc16Ccitt ((ota.image.drop ota.verified).take (nextChunk ota)) ota.runningCrc =
              ota.expectedCrc then .ready else .failed)
          else .verifying }
    else ota := by
  have hchunk : (if ota.image.length - ota.verified > kChunkBytes then kChunkBytes
      else ota.image.length - ota.verified) = nextChunk ota := by
    unfold nextChunk
    split_ifs with h
    · exact (min_eq_left h.le).symm
    · exact (min_eq_right (not_lt.mp h)).symm
  unfold step
  dsimp only
  rw [hchunk]
  by_cases hstate : ota.state = .verifying
  · rw [if_neg (not_not_intro hstate), if_pos hstate, hstate]
  · rw [if_pos hstate, if_neg hstate]

/-- A step without a verification does nothing. -/
theorem step_idle (h : ota.busy = false) : ota.step = ota := by
  rw [step_eq, if_neg (by simpa [busy] using h)]

/-- A verification that runs cannot be restarted. -/
theorem begin_busy (h : ota.busy = true) (image : List Byte) (expectedCrc : BitVec 16) :
    (ota.begin image expectedCrc).2 = ota ∧ (ota.begin image expectedCrc).1 ≠ .ok := by
  have hstate : ota.state = .verifying := by simpa [busy] using h
  unfold OtaUpdater.begin
  rw [if_pos hstate]
  split_ifs
  · exact ⟨rfl, nofun⟩
  · exact ⟨rfl, nofun⟩

/-- A verification of `image` after `n` chunks. -/
def after (image : List Byte) (expectedCrc : BitVec 16) (n : ℕ) : OtaUpdater where
  state :=
    if n < image.length ⌈/⌉ kChunkBytes then .verifying
    else if crc16Ccitt image kCrcSeed = expectedCrc then .ready else .failed
  image := image
  verified := consumed kChunkBytes image.length n
  expectedCrc := expectedCrc
  runningCrc := crc16Ccitt (image.take (consumed kChunkBytes image.length n)) kCrcSeed

theorem kChunkBytes_pos : 0 < kChunkBytes := by decide

theorem after_busy (image : List Byte) (expectedCrc : BitVec 16) (n : ℕ) :
    (after image expectedCrc n).busy = decide (n < image.length ⌈/⌉ kChunkBytes) := by
  unfold after busy
  dsimp only
  split_ifs with hmore hcrc <;> simp [hmore]

theorem begin_after (hbegin : (ota.begin image expectedCrc).1 = .ok) :
    image ≠ [] ∧ (ota.begin image expectedCrc).2 = after image expectedCrc 0 := by
  unfold OtaUpdater.begin at hbegin ⊢
  by_cases hempty : image.length = 0
  · rw [if_pos hempty] at hbegin
    cases hbegin
  · by_cases hstate : ota.state = .verifying
    · rw [if_neg hempty, if_pos hstate] at hbegin
      cases hbegin
    · have hpos : 0 < image.length ⌈/⌉ kChunkBytes := by
        rw [← consumed_lt_iff kChunkBytes_pos, consumed_zero]
        omega
      refine ⟨fun h => hempty (by rw [h, List.length_nil]), ?_⟩
      rw [if_neg hempty, if_neg hstate, after, if_pos hpos, consumed_zero, List.take_zero]
      rfl

/-- Step lemma. -/
theorem step_after {n : ℕ} (h : n < image.length ⌈/⌉ kChunkBytes) :
    (after image expectedCrc n).step = after image expectedCrc (n + 1) := by
  have hverified : (after image expectedCrc n).verified + nextChunk (after image expectedCrc n) =
      consumed kChunkBytes image.length (n + 1) := consumed_succ kChunkBytes image.length n
  have hcrc : crc16Ccitt (((after image expectedCrc n).image.drop
        (after image expectedCrc n).verified).take (nextChunk (after image expectedCrc n)))
        (after image expectedCrc n).runningCrc =
      crc16Ccitt (image.take (consumed kChunkBytes image.length (n + 1))) kCrcSeed :=
    foldl_consumed_succ crcByte kCrcSeed image kChunkBytes n
  rw [step_eq, if_pos (by rw [after, if_pos h]), hverified, hcrc]
  unfold after
  dsimp only
  congr 1
  by_cases hmore : n + 1 < image.length ⌈/⌉ kChunkBytes
  · have hless := (consumed_lt_iff kChunkBytes_pos).mpr hmore
    rw [if_pos hmore, if_neg (not_le.mpr hless)]
  · have hall := (consumed_eq_iff kChunkBytes_pos).mpr (not_lt.mp hmore)
    rw [if_neg hmore, hall, if_pos le_rfl, List.take_length]

/-- The bytes a running verification reads lie in its image. -/
theorem after_inside (image : List Byte) (expectedCrc : BitVec 16) (n : ℕ) :
    (after image expectedCrc n).verified + nextChunk (after image expectedCrc n) ≤
      (after image expectedCrc n).image.length := by
  have hsucc : (after image expectedCrc n).verified + nextChunk (after image expectedCrc n) =
      consumed kChunkBytes image.length (n + 1) := consumed_succ kChunkBytes image.length n
  rw [hsucc]
  exact consumed_le _ _ _

theorem after_progressPercent (hsize : image.length * 100 < 2 ^ 64) (himage : image ≠ []) (n : ℕ) :
    (after image expectedCrc n).progressPercent =
      percent (consumed kChunkBytes image.length n) image.length := by
  have hpos : 0 < image.length := List.length_pos_iff.mpr himage
  have hconsumed := consumed_le kChunkBytes image.length n
  have hproduct : consumed kChunkBytes image.length n * 100 < 2 ^ 64 := by omega
  have hpercent := percent_le hconsumed
  unfold progressPercent after
  dsimp only
  rw [if_neg hpos.ne', Nat.mod_eq_of_lt hproduct]
  exact Nat.mod_eq_of_lt (by unfold percent at hpercent; omega)

/-! Calls in any order. -/

inductive Call where
  | step
  | restart (image : List Byte) (expectedCrc : BitVec 16)

def perform (ota : OtaUpdater) : Call → OtaUpdater
  | .step => ota.step
  | .restart image expectedCrc => (ota.begin image expectedCrc).2

/-- How many of the calls are steps. -/
def steps : List Call → ℕ
  | [] => 0
  | .step :: rest => steps rest + 1
  | .restart _ _ :: rest => steps rest

/-- Run lemma: up to its last step a verification depends on the number of steps only. -/
theorem run_after {calls : List Call} {n : ℕ}
    (h : n + steps calls < image.length ⌈/⌉ kChunkBytes) :
    calls.foldl perform (after image expectedCrc n) = after image expectedCrc (n + steps calls) := by
  induction calls generalizing n with
  | nil => rfl
  | cons call rest ih =>
    cases call with
    | step =>
      rw [steps] at h ⊢
      rw [List.foldl_cons, perform, step_after (by omega), ih (by omega), Nat.add_assoc,
        Nat.add_comm 1]
    | restart other crc =>
      rw [steps] at h ⊢
      have hbusy : (after image expectedCrc n).busy = true := by
        rw [after_busy]
        exact decide_eq_true (by omega)
      rw [List.foldl_cons, perform, (begin_busy hbusy other crc).1, ih h]

/-- A started verification is busy for as many steps as its image has chunks, whatever `begin` is
called with in between; each step reads inside the image and shows no less progress, and the last one
decides by the checksum of the whole image. -/
theorem chunked_verification (hidle : ota.busy = false)
    (hbegin : (ota.begin image expectedCrc).1 = .ok) (hsize : image.length * 100 < 2 ^ 64) :
    ota.step = ota ∧
      (∀ calls : List Call, steps calls < image.length ⌈/⌉ 4096 →
        let running := calls.foldl perform (ota.begin image expectedCrc).2
        running.busy = true ∧ running.image = image ∧
          running.verified + nextChunk running ≤ image.length ∧
          running.progressPercent < 100 ∧
          running.progressPercent ≤ running.step.progressPercent ∧
          ∀ other crc, (running.begin other crc).2 = running ∧ (running.begin other crc).1 ≠ .ok) ∧
      ∀ calls : List Call, steps calls + 1 = image.length ⌈/⌉ 4096 →
        let done := (calls.foldl perform (ota.begin image expectedCrc).2).step
        done.busy = false ∧
          done.state = (if crc16Ccitt image kCrcSeed = expectedCrc then .ready else .failed) ∧
          done.progressPercent = 100 ∧ done.step = done := by
  obtain ⟨himage, hstart⟩ := begin_after hbegin
  have hpos : 0 < image.length := List.length_pos_iff.mpr himage
  have hrun (calls : List Call) (h : steps calls < image.length ⌈/⌉ 4096) :
      calls.foldl perform (ota.begin image expectedCrc).2 =
        after image expectedCrc (steps calls) := by
    have hzero : 0 + steps calls < image.length ⌈/⌉ kChunkBytes := by rwa [Nat.zero_add]
    rw [hstart, run_after hzero, Nat.zero_add]
  refine ⟨step_idle hidle, fun calls h => ?_, fun calls h => ?_⟩
  · have hbusy : (after image expectedCrc (steps calls)).busy = true := by
      rw [after_busy]
      exact decide_eq_true h
    rw [hrun calls h]
    refine ⟨hbusy, rfl, after_inside _ _ _, ?_, ?_, begin_busy hbusy⟩
    · rw [after_progressPercent hsize himage, percent_lt_iff hpos]
      exact (consumed_lt_iff kChunkBytes_pos).mpr h
    · rw [step_after h, after_progressPercent hsize himage, after_progressPercent hsize himage,
        ← consumed_succ]
      exact percent_mono (Nat.le_add_right _ _)
  · have hlast : steps calls < image.length ⌈/⌉ 4096 := by omega
    rw [hrun calls hlast, step_after hlast]
    have hover : ¬ steps calls + 1 < image.length ⌈/⌉ kChunkBytes := not_lt.mpr h.ge
    have hdone : (after image expectedCrc (steps calls + 1)).busy = false := by
      rw [after_busy]
      exact decide_eq_false hover
    refine ⟨hdone, if_neg hover, ?_, step_idle hdone⟩
    rw [after_progressPercent hsize himage, (consumed_eq_iff kChunkBytes_pos).mpr (not_lt.mp hover)]
    exact percent_total hpos

/-! An image of one short chunk. -/

def digits : List Byte := "123456789".toList.map fun c => BitVec.ofNat 8 c.toNat

theorem chunked_verification_digits :
    ((({} : OtaUpdater).begin digits 0x29B1).2.step).state = .ready ∧
      ((({} : OtaUpdater).begin digits 0x29B1).2.step).progressPercent = 100 := by
  have hidle : ({} : OtaUpdater).busy = false := rfl
  have hsize : digits.length * 100 < 2 ^ 64 := by decide
  have hcrc : crc16Ccitt digits kCrcSeed = 0x29B1 := by decide +kernel
  have hchunks : steps [] + 1 = digits.length ⌈/⌉ 4096 := by decide
  obtain ⟨-, -, hlast⟩ := @chunked_verification {} digits 0x29B1 hidle rfl hsize
  obtain ⟨-, hstate, hprogress, -⟩ := hlast [] hchunks
  rw [if_pos hcrc] at hstate
  exact ⟨hstate, hprogress⟩

end Culina.OtaVerification
