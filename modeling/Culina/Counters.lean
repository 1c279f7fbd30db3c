import Mathlib.Data.BitVec

/-!
Finite counters. A counter of `w` bits shows a true count modulo its width; reading
it against a count known from before gives the true count back, as long as less than
one turn lies between them.
-/
namespace Culina.Counters

variable {w : ℕ}

/-- The first count from `base` on that a counter shows as `shown`. -/
def unwrap (base : ℕ) (shown : BitVec w) : ℕ := base + (shown - BitVec.ofNat w base).toNat

theorem ofNat_unwrap (base : ℕ) (shown : BitVec w) : BitVec.ofNat w (unwrap base shown) = shown := by
  rw [unwrap, BitVec.ofNat_add, BitVec.ofNat_toNat, BitVec.setWidth_eq, BitVec.add_comm,
    BitVec.sub_add_cancel]

theorem unwrap_self (count : ℕ) : unwrap count (BitVec.ofNat w count) = count := by
  rw [unwrap, BitVec.sub_self]
  simp

/-- A counter that shows its next value has counted one further. -/
theorem unwrap_succ (hw : 0 < w) (count : ℕ) :
    unwrap count (BitVec.ofNat w count + 1) = count + 1 := by
  have hone : (1 : ℕ) < 2 ^ w := Nat.one_lt_two_pow hw.ne'
  rw [unwrap, BitVec.add_comm, BitVec.add_sub_cancel]
  simp [Nat.mod_eq_of_lt hone]

/-- The difference of two readings is the true one while that fits the counter. -/
theorem ofNat_sub_ofNat {count earlier : ℕ} (hle : earlier ≤ count)
    (hfits : count - earlier < 2 ^ w) :
    (BitVec.ofNat w count - BitVec.ofNat w earlier).toNat = count - earlier := by
  have hsplit : BitVec.ofNat w count = BitVec.ofNat w (count - earlier) + BitVec.ofNat w earlier := by
    rw [← BitVec.ofNat_add, Nat.sub_add_cancel hle]
  rw [hsplit, BitVec.add_sub_cancel, BitVec.toNat_ofNat]
  exact Nat.mod_eq_of_lt hfits

/-- The signed difference of two readings is the true one while they are less than half a turn
apart. -/
theorem toInt_sub_ofNat {count earlier : ℕ} (hbehind : earlier ≤ count + 2 ^ w)
    (hahead : count < earlier + 2 ^ w) :
    (BitVec.ofNat (w + 1) count - BitVec.ofNat (w + 1) earlier).toInt = (count : ℤ) - earlier := by
  have hturn : (2 : ℕ) ^ (w + 1) = 2 * 2 ^ w := by rw [pow_succ, Nat.mul_comm]
  rw [BitVec.toInt_sub, BitVec.toInt_ofNat', BitVec.toInt_ofNat', Int.bmod_sub_bmod,
    Int.sub_bmod_bmod, hturn]
  generalize 2 ^ w = half at *
  apply Int.bmod_eq_of_le
  · omega
  · omega

/-- Two counts less than one turn apart that show the same are the same. -/
theorem eq_of_ofNat_eq {count earlier : ℕ} (hle : earlier ≤ count)
    (hfits : count - earlier < 2 ^ w) (h : BitVec.ofNat w count = BitVec.ofNat w earlier) :
    count = earlier := by
  have hdiff := ofNat_sub_ofNat hle hfits
  rw [h, BitVec.sub_self] at hdiff
  have hzero : count - earlier = 0 := by simpa using hdiff.symm
  omega

end Culina.Counters
