import Culina.Counters
import Culina.RecentHistory
import Culina.Services

/-!
Telemetry windows. The store shows times modulo 2^32 and scans backwards to the first sample that
is too old; over less than one turn of the counter it finds exactly the held samples of the window.
-/
namespace Culina.TelemetryWindows

open Wire Services TelemetryStore RecentHistory

/-- A sample with the true time its counter shows. -/
structure TimedSample where
  time : ℕ
  sample : Sample
  shown : sample.tMs = BitVec.ofNat 32 time

def TimedSample.tempC (x : TimedSample) : ℚ := toCelsius x.sample.deciCelsius

/-- The store after a history of samples. -/
def stored (history : List TimedSample) : TelemetryStore :=
  (history.map TimedSample.sample).foldl append {}

/-- The samples a store can hold. -/
def held (history : List TimedSample) : List TimedSample := recent kMaxSamples history

theorem append_eq (store : TelemetryStore) (sample : Sample) :
    store.append sample = ⟨push kMaxSamples store.samples sample⟩ := by
  unfold append push
  dsimp only
  split_ifs <;> rfl

theorem foldl_append (samples : List Sample) (store : TelemetryStore) :
    (samples.foldl append store).samples = samples.foldl (push kMaxSamples) store.samples := by
  induction samples generalizing store with
  | nil => rfl
  | cons sample rest ih => rw [List.foldl_cons, List.foldl_cons, ih, append_eq]

structure Ordered (history : List TimedSample) : Prop where
  sorted : history.Pairwise fun x y => x.time ≤ y.time
  span : ∀ x ∈ history, ∀ y ∈ history, y.time - x.time < 2 ^ 32

variable {history : List TimedSample} {newest : TimedSample}

theorem Ordered.le_newest (h : Ordered history) (hnewest : history.getLast? = some newest)
    {x : TimedSample} (hx : x ∈ history) : x.time ≤ newest.time := by
  obtain ⟨front, rfl⟩ := List.getLast?_eq_some_iff.mp hnewest
  rcases List.mem_append.mp hx with hfront | hlast
  · exact (List.pairwise_append.mp h.sorted).2.2 x hfront newest List.mem_cons_self
  · rw [List.mem_singleton.mp hlast]

/-- The wrapped age of a sample is its true age. -/
theorem Ordered.age (h : Ordered history) (hnewest : history.getLast? = some newest)
    {x : TimedSample} (hx : x ∈ history) :
    (newest.sample.tMs - x.sample.tMs).toNat = newest.time - x.time := by
  have hlast := List.mem_of_getLast? hnewest
  rw [newest.shown, x.shown]
  exact Counters.ofNat_sub_ofNat (h.le_newest hnewest hx) (h.span x hx newest hlast)

def timed (time : ℕ) (deciCelsius : DeciCelsius) : TimedSample :=
  ⟨time, { tMs := BitVec.ofNat 32 time, deciCelsius }, rfl⟩

def wrapping : List TimedSample :=
  [timed 4294967195 900, timed 4294967245 700, timed 4294967321 200]

end Culina.TelemetryWindows
