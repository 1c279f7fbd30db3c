import Culina.Ports

/-!
The simulated board: any sensors with the model of the lid, which refuses to open
while locked and to lock while open.
-/
namespace Culina.Lid

open Wire Ports

structure LidModel where
  closed : Bool := true
  locked : Bool := false
  latch : locked = true → closed = true := by decide

namespace LidModel

def userOpen (lid : LidModel) : LidModel :=
  if h : lid.locked = true then lid
  else { lid with closed := false, latch := fun hlocked => absurd hlocked h }

def userClose (lid : LidModel) : LidModel := { lid with closed := true, latch := fun _ => rfl }

def setLock (lid : LidModel) (locked : Bool) : LidModel :=
  if h : lid.closed = true then { lid with locked, latch := fun _ => h } else lid

theorem setLock_closed (lid : LidModel) (locked : Bool) : (lid.setLock locked).closed = lid.closed := by
  unfold setLock
  split <;> rfl

theorem setLock_locked {lid : LidModel} (h : lid.closed = true) (locked : Bool) :
    (lid.setLock locked).locked = locked := by
  simp [setLock, h]

/-- Closed and unlocked. -/
def initial : LidModel := {}

end LidModel

/-- The sensors `S` of a board with a modelled lid. -/
structure SimBoard (S : Type) where
  sensors : S
  lid : LidModel := .initial

instance (S : Type) [Board S] : Board (SimBoard S) where
  readDeciCelsius board :=
    ((Board.readDeciCelsius board.sensors).1,
      { board with sensors := (Board.readDeciCelsius board.sensors).2 })
  rpm board := Board.rpm board.sensors
  stalled board := Board.stalled board.sensors
  isClosed board := board.lid.closed
  isLocked board := board.lid.locked
  setLock board locked := { board with lid := board.lid.setLock locked }
  readRaw board :=
    ((Board.readRaw board.sensors).1,
      { board with sensors := (Board.readRaw board.sensors).2 })

theorem readDeciCelsius_lid {S : Type} [Board S] (board : SimBoard S) :
    (Board.readDeciCelsius board).2.lid = board.lid := rfl

theorem readRaw_lid {S : Type} [Board S] (board : SimBoard S) :
    (Board.readRaw board).2.lid = board.lid := rfl

instance (S : Type) [Board S] : LawfulBoard (SimBoard S) where
  readRaw_isLocked _ := rfl

/-- Sensors that keep their values. -/
structure SteadySensors where
  reading : Except Status DeciCelsius := .ok 200
  rpm : ℕ := 0
  stalled : Bool := false
  raw : Except Status ℤ := .ok 0

instance : Board SteadySensors where
  readDeciCelsius sensors := (sensors.reading, sensors)
  rpm := SteadySensors.rpm
  stalled := SteadySensors.stalled
  isClosed _ := true
  isLocked _ := false
  setLock sensors _ := sensors
  readRaw sensors := (sensors.raw, sensors)

end Culina.Lid
