import Culina.Crc

/-!
The two services the cooking controller keeps running: the history of telemetry
samples with its trailing windows, and the chunked verification of a staged
firmware image.
-/
namespace Culina.Services

open Wire Crc

/-! Telemetry history. -/

structure Sample where
  tMs : Millis := 0
  deciCelsius : DeciCelsius := 0
  rpm : ℕ := 0
  grams : Grams := 0
  flags : Byte := 0
deriving DecidableEq, Repr

def kMaxSamples : ℕ := 360000

/-- The held samples, oldest first. -/
structure TelemetryStore where
  samples : List Sample := []

namespace TelemetryStore

def append (store : TelemetryStore) (sample : Sample) : TelemetryStore :=
  let samples := store.samples ++ [sample]
  if samples.length > kMaxSamples then ⟨samples.tail⟩ else ⟨samples⟩

def latest (store : TelemetryStore) : Sample := store.samples.getLast?.getD {}

def hasData (store : TelemetryStore) : Bool := !store.samples.isEmpty

/-- The samples both window loops visit, newest first, up to the first that is too old. -/
def window (store : TelemetryStore) (windowMs : Millis) : List Sample :=
  store.samples.reverse.takeWhile fun sample => ¬ (store.latest.tMs - sample.tMs > windowMs)

def averageTempC (store : TelemetryStore) (windowMs : Millis) : ℚ :=
  let visited := store.window windowMs
  if visited.length > 0 then
    (visited.map fun sample => toCelsius sample.deciCelsius).sum / visited.length
  else 0

def maxTempC (store : TelemetryStore) (windowMs : Millis) : ℚ :=
  if store.samples.isEmpty then 0
  else
    (store.window windowMs).foldl
      (fun maxC sample =>
        if toCelsius sample.deciCelsius > maxC then toCelsius sample.deciCelsius else maxC) (-1000)

end TelemetryStore

/-! Firmware verification. -/

inductive OtaState where
  | idle
  | verifying
  | ready
  | failed
deriving DecidableEq, Repr

def kChunkBytes : ℕ := 4096

structure OtaUpdater where
  state : OtaState := .idle
  image : List Byte := []
  verified : ℕ := 0
  expectedCrc : BitVec 16 := 0
  runningCrc : BitVec 16 := kCrcSeed
deriving Repr

namespace OtaUpdater

/-- A null image is the empty one. -/
def begin (ota : OtaUpdater) (image : List Byte) (expectedCrc : BitVec 16) : Status × OtaUpdater :=
  if image.length = 0 then (.invalidArgument, ota)
  else if ota.state = .verifying then (.notReady, ota)
  else (.ok, { state := .verifying, image, verified := 0, expectedCrc, runningCrc := kCrcSeed })

def busy (ota : OtaUpdater) : Bool := ota.state = .verifying

def step (ota : OtaUpdater) : OtaUpdater :=
  if ota.state ≠ .verifying then ota
  else
    let remaining := ota.image.length - ota.verified
    let chunk := if remaining > kChunkBytes then kChunkBytes else remaining
    let runningCrc := crc16Ccitt ((ota.image.drop ota.verified).take chunk) ota.runningCrc
    let verified := ota.verified + chunk
    let state := if verified ≥ ota.image.length then
        (if runningCrc = ota.expectedCrc then .ready else .failed) else ota.state
    { ota with runningCrc, verified, state }

/-- The product is a 64-bit `size_t`, the result 32 bits wide. -/
def progressPercent (ota : OtaUpdater) : ℕ :=
  if ota.image.length = 0 then 0
  else ota.verified * 100 % 2 ^ 64 / ota.image.length % 2 ^ 32

end OtaUpdater

end Culina.Services
