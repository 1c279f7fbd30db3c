import Mathlib.Algebra.Order.Floor.Div
import Mathlib.Data.List.Basic
import Mathlib.Tactic.Ring

/-!
Data taken in chunks of a fixed size, the last one shorter. After `n` chunks a fold has seen a
prefix of known length, and the number of chunks is the length divided by the size, rounded up.
-/
namespace Culina.Chunks

/-- What the first `n` chunks hold. -/
def consumed (size len n : ℕ) : ℕ := min (n * size) len

variable {size len n : ℕ}

theorem consumed_zero (size len : ℕ) : consumed size len 0 = 0 := by simp [consumed]

theorem consumed_le (size len n : ℕ) : consumed size len n ≤ len := min_le_right _ _

theorem consumed_succ (size len n : ℕ) :
    consumed size len n + min size (len - consumed size len n) = consumed size len (n + 1) := by
  unfold consumed
  rw [Nat.succ_mul]
  omega

theorem consumed_lt_iff (hsize : 0 < size) : consumed size len n < len ↔ n < len ⌈/⌉ size := by
  rw [← not_le, ← not_le, not_iff_not, ceilDiv_le_iff_le_smul hsize, smul_eq_mul, mul_comm size]
  unfold consumed
  omega

theorem consumed_eq_iff (hsize : 0 < size) : consumed size len n = len ↔ len ⌈/⌉ size ≤ n := by
  rw [← not_lt, ← consumed_lt_iff hsize]
  have hle := consumed_le size len n
  omega

variable {α β : Type*}

theorem take_consumed_succ (data : List α) (size n : ℕ) :
    data.take (consumed size data.length (n + 1)) =
      data.take (consumed size data.length n) ++
        (data.drop (consumed size data.length n)).take
          (min size (data.length - consumed size data.length n)) := by
  rw [← consumed_succ, List.take_add]

/-- Folding one more chunk continues the fold over the prefix. -/
theorem foldl_consumed_succ (f : β → α → β) (init : β) (data : List α) (size n : ℕ) :
    ((data.drop (consumed size data.length n)).take
        (min size (data.length - consumed size data.length n))).foldl f
          ((data.take (consumed size data.length n)).foldl f init) =
      (data.take (consumed size data.length (n + 1))).foldl f init := by
  rw [take_consumed_succ, List.foldl_append]

/-! Percentages. -/

/-- The part of `total` that is done, in whole percent. -/
def percent (done total : ℕ) : ℕ := done * 100 / total

theorem percent_mono {done more total : ℕ} (h : done ≤ more) : percent done total ≤ percent more total :=
  Nat.div_le_div_right (Nat.mul_le_mul_right 100 h)

theorem percent_total {total : ℕ} (h : 0 < total) : percent total total = 100 :=
  Nat.mul_div_cancel_left 100 h

theorem percent_lt_iff {done total : ℕ} (h : 0 < total) : percent done total < 100 ↔ done < total := by
  unfold percent
  rw [Nat.div_lt_iff_lt_mul h]
  omega

theorem percent_le {done total : ℕ} (h : done ≤ total) : percent done total ≤ 100 := by
  rcases Nat.eq_zero_or_pos total with rfl | hpos
  · rw [percent, Nat.div_zero]
    exact Nat.zero_le 100
  · rw [← percent_total hpos]
    exact percent_mono h

end Culina.Chunks
