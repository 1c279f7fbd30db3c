import Mathlib.Algebra.Order.BigOperators.Group.List
import Mathlib.Algebra.Order.Field.Basic
import Mathlib.Order.Bounds.Basic

/-!
The newest entries of a growing history: a queue of bounded length, the part of it a backward scan
visits before it first stops, and the mean and the peak of what was visited.
-/
namespace Culina.RecentHistory

variable {α β : Type*}

/-! Retention. -/

/-- The newest entries, at most `cap` of them. -/
def recent (cap : ℕ) (history : List α) : List α := history.drop (history.length - cap)

/-- The queue drops its oldest entry when it grows past its bound. -/
def push (cap : ℕ) (held : List α) (entry : α) : List α :=
  if (held ++ [entry]).length > cap then (held ++ [entry]).tail else held ++ [entry]

section Peak

variable [LinearOrder β] (f : α → β)

end Peak

section Mean

variable [Field β] [LinearOrder β] [IsStrictOrderedRing β] {f : α → β}

end Mean

end Culina.RecentHistory
