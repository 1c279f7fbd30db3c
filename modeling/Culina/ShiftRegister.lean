import Mathlib.Data.BitVec
import Mathlib.Logic.Function.Iterate
import Mathlib.Data.List.Basic

/-!
Checksums from a shift register with feedback, over any width, polynomial and size
of the chunks taken in. The register is linear, and a polynomial with a constant
term makes it invertible, so an error burst that fits into the register is never
absorbed, whatever comes before it and after it.
-/
namespace Culina.ShiftRegister

variable {w k : ℕ}

/-- One shift: the top bit leaves and, if it was set, brings in the polynomial. -/
def advance (poly crc : BitVec w) : BitVec w :=
  (crc <<< 1) ^^^ if crc.msb then poly else 0#w

theorem advance_xor (poly x y : BitVec w) :
    advance poly (x ^^^ y) = advance poly x ^^^ advance poly y := by
  unfold advance
  rw [BitVec.msb_xor, BitVec.shiftLeft_xor_distrib]
  cases x.msb with
  | false =>
    cases y.msb with
    | false => simp
    | true => simp [BitVec.xor_assoc]
  | true =>
    cases y.msb with
    | false =>
      simp only [Bool.xor_false, if_true, Bool.false_eq_true, if_false]
      rw [BitVec.xor_assoc, BitVec.xor_assoc, BitVec.xor_comm (y <<< 1),
        BitVec.xor_zero]
    | true =>
      -- the polynomial comes in twice
      have htwice : poly ^^^ (y <<< 1 ^^^ poly) = y <<< 1 := by
        rw [BitVec.xor_comm, BitVec.xor_assoc, BitVec.xor_self, BitVec.xor_zero]
      simp only [Bool.xor_self, Bool.false_eq_true, if_false, if_true]
      rw [BitVec.xor_assoc (x <<< 1) poly, htwice, BitVec.xor_zero]

theorem iterate_xor (poly x y : BitVec w) (n : ℕ) :
    (advance poly)^[n] (x ^^^ y) = (advance poly)^[n] x ^^^ (advance poly)^[n] y := by
  induction n generalizing x y with
  | zero => rfl
  | succ n ih =>
    rw [Function.iterate_succ_apply, advance_xor, ih, ← Function.iterate_succ_apply,
      ← Function.iterate_succ_apply]

/-- A register whose top bit is clear only shifts. -/
theorem advance_of_msb {poly x : BitVec w} (h : x.msb = false) : advance poly x = x <<< 1 := by
  simp [advance, h]

/-- A constant term records the bit that leaves, so only zero shifts to zero. -/
theorem advance_eq_zero {poly : BitVec w} (hpoly : poly.getLsbD 0 = true) {x : BitVec w}
    (h : advance poly x = 0#w) : x = 0#w := by
  have hlow : (advance poly x).getLsbD 0 = x.msb := by
    unfold advance
    cases x.msb with
    | false => simp
    | true => simp [hpoly]
  have hmsb : x.msb = false := by
    rw [← hlow, h]
    simp
  rw [advance_of_msb hmsb] at h
  apply BitVec.eq_of_getLsbD_eq
  intro i hi
  rw [BitVec.getLsbD_zero]
  by_cases htop : i + 1 = w
  · rw [BitVec.msb_eq_getLsbD_last] at hmsb
    rw [show i = w - 1 by omega, hmsb]
  · have hbit := congrArg (fun y => BitVec.getLsbD y (i + 1)) h
    have hlt : i + 1 < w := by omega
    simpa [BitVec.getLsbD_shiftLeft, hlt, hi] using hbit

theorem advance_injective {poly : BitVec w} (hpoly : poly.getLsbD 0 = true) :
    Function.Injective (advance poly) := by
  intro x y h
  have hzero : advance poly (x ^^^ y) = 0#w := by
    rw [advance_xor, h, BitVec.xor_self]
  have hsame := advance_eq_zero hpoly hzero
  have hcancel := congrArg (· ^^^ y) hsame
  simpa [BitVec.xor_assoc] using hcancel

/-- Shifts that meet no set top bit bring in nothing. -/
theorem iterate_of_clear {poly x : BitVec w} (n : ℕ) (h : ∀ i, w ≤ i + n → x.getLsbD i = false) :
    (advance poly)^[n] x = x <<< n := by
  induction n with
  | zero => simp
  | succ n ih =>
    have hmsb : (x <<< n).msb = false := by
      rw [BitVec.msb_eq_getLsbD_last, BitVec.getLsbD_shiftLeft]
      by_cases hin : n ≤ w - 1
      · rw [h (w - 1 - n) (by omega)]
        simp
      · simp [show w - 1 < n by omega]
    rw [Function.iterate_succ_apply', ih fun i hi => h i (by omega), advance_of_msb hmsb,
      BitVec.shiftLeft_add]

/-! Chunks. -/

/-- Take in a chunk at the top of the register and shift it out. -/
def absorb (poly crc : BitVec w) (chunk : BitVec k) : BitVec w :=
  (advance poly)^[k] (crc ^^^ (chunk.setWidth w <<< (w - k)))

/-- The register after the chunks. -/
def remainder (poly : BitVec w) (data : List (BitVec k)) (seed : BitVec w) : BitVec w :=
  data.foldl (absorb poly) seed

theorem remainder_append (poly : BitVec w) (front back : List (BitVec k)) (seed : BitVec w) :
    remainder poly (front ++ back) seed = remainder poly back (remainder poly front seed) :=
  List.foldl_append

theorem absorb_injective {poly : BitVec w} (hpoly : poly.getLsbD 0 = true) (chunk : BitVec k) :
    Function.Injective fun crc => absorb poly crc chunk := by
  intro x y h
  exact (BitVec.xor_left_inj _).mp ((advance_injective hpoly).iterate k h)

theorem remainder_injective {poly : BitVec w} (hpoly : poly.getLsbD 0 = true)
    (data : List (BitVec k)) : Function.Injective (remainder poly data) := by
  induction data with
  | nil => exact fun _ _ h => h
  | cons chunk rest ih => exact fun x y h => absorb_injective hpoly chunk (ih h)

/-- Two chunks that fit into the register are taken in as one. -/
theorem absorb_absorb (poly crc : BitVec w) (hfits : k + k ≤ w) (a b : BitVec k) :
    absorb poly (absorb poly crc a) b =
      (advance poly)^[k] ((advance poly)^[k]
        (crc ^^^ (a.setWidth w <<< (w - k) ^^^ b.setWidth w <<< (w - k - k)))) := by
  have hclear : ∀ i, w ≤ i + k → (b.setWidth w <<< (w - k - k)).getLsbD i = false := by
    intro i hi
    rw [BitVec.getLsbD_shiftLeft, BitVec.getLsbD_setWidth, BitVec.getLsbD_of_ge b _ (by omega)]
    simp
  have hshift : b.setWidth w <<< (w - k) = (advance poly)^[k] (b.setWidth w <<< (w - k - k)) := by
    rw [iterate_of_clear k hclear, ← BitVec.shiftLeft_add]
    congr 1
    omega
  rw [absorb, absorb, hshift, ← iterate_xor, BitVec.xor_assoc]

/-- The two chunks leave their bits in places of their own. -/
theorem placed_injective (hfits : k + k ≤ w) {a b a' b' : BitVec k}
    (h : a.setWidth w <<< (w - k) ^^^ b.setWidth w <<< (w - k - k) =
      a'.setWidth w <<< (w - k) ^^^ b'.setWidth w <<< (w - k - k)) : a = a' ∧ b = b' := by
  have hbit : ∀ i, (a.setWidth w <<< (w - k) ^^^ b.setWidth w <<< (w - k - k)).getLsbD i =
      (a'.setWidth w <<< (w - k) ^^^ b'.setWidth w <<< (w - k - k)).getLsbD i := by
    intro i
    rw [h]
  simp only [BitVec.getLsbD_xor, BitVec.getLsbD_shiftLeft, BitVec.getLsbD_setWidth] at hbit
  constructor
  · apply BitVec.eq_of_getLsbD_eq
    intro i hi
    have hplace := hbit (w - k + i)
    rw [BitVec.getLsbD_of_ge b _ (by omega), BitVec.getLsbD_of_ge b' _ (by omega)] at hplace
    simpa [show w - k + i < w by omega, show ¬ w - k + i < w - k by omega, show i < w by omega]
      using hplace
  · apply BitVec.eq_of_getLsbD_eq
    intro i hi
    have hplace := hbit (w - k - k + i)
    simpa [show w - k - k + i < w by omega, show w - k - k + i < w - k by omega,
      show ¬ w - k - k + i < w - k - k by omega, show i < w by omega] using hplace

theorem absorb_absorb_injective {poly : BitVec w} (hpoly : poly.getLsbD 0 = true)
    (hfits : k + k ≤ w) (crc : BitVec w) {a b a' b' : BitVec k}
    (h : absorb poly (absorb poly crc a) b = absorb poly (absorb poly crc a') b') :
    a = a' ∧ b = b' := by
  rw [absorb_absorb poly crc hfits, absorb_absorb poly crc hfits] at h
  have hinner := (advance_injective hpoly).iterate k ((advance_injective hpoly).iterate k h)
  exact placed_injective hfits ((BitVec.xor_right_inj crc).mp hinner)

/-! Bursts. -/

/-- The two lists are of one length and differ at most at `i` and the place behind it. -/
structure DifferWithin {α : Type*} (i : ℕ) (xs ys : List α) : Prop where
  length : xs.length = ys.length
  same : ∀ j, j ≠ i → j ≠ i + 1 → xs[j]? = ys[j]?

theorem DifferWithin.split {α : Type*} {i : ℕ} {xs ys : List α} (h : DifferWithin i xs ys) :
    ∃ front middle middle' back, xs = front ++ (middle ++ back) ∧ ys = front ++ (middle' ++ back) ∧
      middle.length = middle'.length ∧ middle.length ≤ 2 := by
  have hfront : ys.take i = xs.take i := by
    apply List.ext_getElem?
    intro j
    rw [List.getElem?_take, List.getElem?_take]
    split
    · exact (h.same j (by omega) (by omega)).symm
    · rfl
  have hback : (ys.drop i).drop 2 = (xs.drop i).drop 2 := by
    apply List.ext_getElem?
    intro j
    simp only [List.getElem?_drop]
    exact (h.same _ (by omega) (by omega)).symm
  refine ⟨xs.take i, (xs.drop i).take 2, (ys.drop i).take 2, (xs.drop i).drop 2, ?_, ?_, ?_, ?_⟩
  · rw [List.take_append_drop, List.take_append_drop]
  · rw [← hfront, ← hback, List.take_append_drop, List.take_append_drop]
  · simp only [List.length_take, List.length_drop, h.length]
  · exact List.length_take_le _ _

/-- A change within two adjacent chunks changes the remainder. -/
theorem remainder_ne {poly : BitVec w} (hpoly : poly.getLsbD 0 = true) (hfits : k + k ≤ w)
    {i : ℕ} {xs ys : List (BitVec k)} (hwithin : DifferWithin i xs ys) (hne : xs ≠ ys)
    (seed : BitVec w) : remainder poly xs seed ≠ remainder poly ys seed := by
  intro h
  obtain ⟨front, middle, middle', back, rfl, rfl, hlength, hshort⟩ := hwithin.split
  simp only [remainder_append] at h
  have hmiddle := remainder_injective hpoly back h
  apply hne
  rcases middle with _ | ⟨a, _ | ⟨b, _ | _⟩⟩
  · rw [List.length_nil, eq_comm, List.length_eq_zero_iff] at hlength
    rw [hlength]
  · obtain ⟨a', rfl⟩ := List.length_eq_one_iff.mp hlength.symm
    -- one chunk is two whose second did not change
    have hpadded := congrArg (fun crc => absorb poly crc (0 : BitVec k)) hmiddle
    rw [(absorb_absorb_injective hpoly hfits _ hpadded).1]
  · obtain ⟨a', b', rfl⟩ := List.length_eq_two.mp hlength.symm
    obtain ⟨rfl, rfl⟩ := absorb_absorb_injective hpoly hfits _ hmiddle
    rfl
  · simp at hshort

end Culina.ShiftRegister
