import Mathlib.Data.BitVec
import Mathlib.Data.Rat.Floor

/-!
The C1-Link wire vocabulary shared by both processors: unit aliases, statuses,
frame types, message identifiers, fault codes and the little-endian field
encodings. Machine words are bit vectors; floats are exact rationals. A byte
pointer with its length is one list of bytes, so a null payload of length zero
is the empty list and a null payload of positive length has no counterpart.
-/
namespace Culina.Wire

abbrev Byte := BitVec 8

/-- Milliseconds since boot; the counter wraps after about 49.7 days. -/
abbrev Millis := BitVec 32

abbrev DeciCelsius := ℤ
abbrev Grams := ℤ

def toCelsius (deci : DeciCelsius) : ℚ := deci / 10

/-- A float-to-integer cast truncates toward zero. -/
def fromCelsius (celsius : ℚ) : DeciCelsius :=
  if 0 ≤ celsius then ⌊celsius * 10⌋ else ⌈celsius * 10⌉

theorem fromCelsius_toCelsius (deci : DeciCelsius) : fromCelsius (toCelsius deci) = deci := by
  have h : toCelsius deci * 10 = (deci : ℚ) := by
    unfold toCelsius
    ring
  unfold fromCelsius
  rw [h]
  split
  · exact Int.floor_intCast deci
  · exact Int.ceil_intCast deci

inductive Status where
  | ok
  | timeout
  | crcMismatch
  | overflow
  | invalidArgument
  | notReady
  | hardwareFault
  | protocolError
deriving DecidableEq, Repr

def kSync0 : Byte := 0xA5
def kSync1 : Byte := 0x5A
def kVersion : Byte := 0x10
abbrev kMaxPayload : ℕ := 250
abbrev kHeaderSize : ℕ := 8
abbrev kCrcSize : ℕ := 2
abbrev kMaxFrameSize : ℕ := kHeaderSize + kMaxPayload + kCrcSize

theorem kMaxPayload_pos : 0 < kMaxPayload := by decide

inductive FrameType where
  | request
  | response
  | telemetry
  | nack
deriving DecidableEq, Repr

namespace FrameType

def toByte : FrameType → Byte
  | request => 0x01
  | response => 0x02
  | telemetry => 0x03
  | nack => 0x04

/-- The cast from a byte; the parser applies it to 1, 2, 3 and 4 only. -/
def ofByte (byte : Byte) : FrameType :=
  if byte = 0x02 then response
  else if byte = 0x03 then telemetry
  else if byte = 0x04 then nack
  else request

theorem ofByte_toByte (type : FrameType) : ofByte type.toByte = type := by
  cases type <;> rfl

theorem toByte_ofByte (byte : Byte) (hlow : ¬ byte < 0x01) (hhigh : ¬ byte > 0x04) :
    (ofByte byte).toByte = byte := by
  have h : byte = 0x01 ∨ byte = 0x02 ∨ byte = 0x03 ∨ byte = 0x04 := by
    bv_omega
  rcases h with rfl | rfl | rfl | rfl <;> rfl

theorem toByte_range (type : FrameType) : ¬ type.toByte < 0x01 ∧ ¬ type.toByte > 0x04 := by
  cases type <;> decide

end FrameType

/-- Message identifiers are bytes: a frame can carry one that no name stands for. -/
abbrev MsgId := Byte

namespace MsgId

def ping : MsgId := 0x01
def getVersion : MsgId := 0x02
def motorSetTarget : MsgId := 0x10
def motorStop : MsgId := 0x11
def heaterSetTarget : MsgId := 0x20
def heaterOff : MsgId := 0x21
def scaleTare : MsgId := 0x30
def scaleRead : MsgId := 0x31
def lidLock : MsgId := 0x40
def lidUnlock : MsgId := 0x41
def telemetry : MsgId := 0x80
def fault : MsgId := 0x81

end MsgId

def kRampGentle : Byte := 0
def kRampNormal : Byte := 1
def kRampFast : Byte := 2
def kRampBurst : Byte := 3

def kFlagLidClosed : Byte := 0x01
def kFlagLidLocked : Byte := 0x02
def kFlagHeaterOn : Byte := 0x04
def kFlagMotorStalled : Byte := 0x08

inductive FaultCode where
  | none
  | overtemp
  | motorStall
  | sensorFailure
  | linkLost
deriving DecidableEq, Repr

def FaultCode.toByte : FaultCode → Byte
  | none => 0
  | overtemp => 1
  | motorStall => 2
  | sensorFailure => 3
  | linkLost => 4

/-- The payload array always has its full capacity; only the first `payloadLen`
bytes belong to the message. -/
structure Frame where
  type : FrameType := .request
  seq : Byte := 0
  msgId : MsgId := MsgId.ping
  payloadLen : ℕ := 0
  payload : Vector Byte kMaxPayload := Vector.replicate kMaxPayload 0
deriving DecidableEq, Repr

/-- The message bytes of a frame. -/
def Frame.bytes (f : Frame) : List Byte := f.payload.toList.take f.payloadLen

/-- Copying a payload into a fresh frame. -/
def Frame.ofBytes (type : FrameType) (seq : Byte) (msgId : MsgId) (payload : List Byte) : Frame where
  type := type
  seq := seq
  msgId := msgId
  payloadLen := payload.length
  payload := Vector.ofFn fun i => payload.getD i 0

theorem Frame.bytes_ofBytes (type : FrameType) (seq : Byte) (msgId : MsgId) (payload : List Byte)
    (h : payload.length ≤ kMaxPayload) : (Frame.ofBytes type seq msgId payload).bytes = payload := by
  apply List.ext_getElem
  · simp [Frame.bytes, Frame.ofBytes, h]
  · intro i hi hi'
    simp [Frame.bytes, Frame.ofBytes, hi']

/-! Little-endian fields. -/

def putU16 (v : BitVec 16) : List Byte := [v.setWidth 8, (v >>> 8).setWidth 8]

def getU16 (lo hi : Byte) : BitVec 16 := lo.setWidth 16 ||| (hi.setWidth 16 <<< 8)

def putI16 (v : ℤ) : List Byte := putU16 (BitVec.ofInt 16 v)

def getI16 (lo hi : Byte) : ℤ := (getU16 lo hi).toInt

def putU32 (v : BitVec 32) : List Byte :=
  [v.setWidth 8, (v >>> 8).setWidth 8, (v >>> 16).setWidth 8, (v >>> 24).setWidth 8]

def getU32 (b0 b1 b2 b3 : Byte) : BitVec 32 :=
  b0.setWidth 32 ||| (b1.setWidth 32 <<< 8) ||| (b2.setWidth 32 <<< 16) |||
    (b3.setWidth 32 <<< 24)

def putI32 (v : ℤ) : List Byte := putU32 (BitVec.ofInt 32 v)

def getI32 (b0 b1 b2 b3 : Byte) : ℤ := (getU32 b0 b1 b2 b3).toInt

theorem getU16_toNat (lo hi : Byte) : (getU16 lo hi).toNat = 2 ^ 8 * hi.toNat + lo.toNat := by
  have hlo := lo.isLt
  have hhi := hi.isLt
  rw [Nat.two_pow_add_eq_or_of_lt hlo, Nat.or_comm]
  simp only [getU16, BitVec.toNat_or, BitVec.toNat_setWidth, BitVec.toNat_shiftLeft,
    Nat.shiftLeft_eq]
  congr 1 <;> omega

theorem getU16_putU16 (v : BitVec 16) : getU16 (v.setWidth 8) ((v >>> 8).setWidth 8) = v := by
  apply BitVec.eq_of_toNat_eq
  have hv := v.isLt
  rw [getU16_toNat]
  simp only [BitVec.toNat_setWidth, BitVec.toNat_ushiftRight, Nat.shiftRight_eq_div_pow]
  omega

theorem putU16_getU16 (lo hi : Byte) : putU16 (getU16 lo hi) = [lo, hi] := by
  have hlo := lo.isLt
  have hhi := hi.isLt
  have hval := getU16_toNat lo hi
  unfold putU16
  congr 1
  · apply BitVec.eq_of_toNat_eq
    rw [BitVec.toNat_setWidth, hval]
    omega
  · congr 1
    apply BitVec.eq_of_toNat_eq
    rw [BitVec.toNat_setWidth, BitVec.toNat_ushiftRight, hval, Nat.shiftRight_eq_div_pow]
    omega

abbrev kTelemetryPayloadSize : ℕ := 13

structure TelemetryData where
  tick : BitVec 32 := 0
  deciCelsius : DeciCelsius := 0
  rpm : ℕ := 0
  grams : Grams := 0
  flags : Byte := 0
deriving DecidableEq, Repr

def encodeTelemetry (data : TelemetryData) : List Byte :=
  putU32 data.tick ++ putI16 data.deciCelsius ++ putU16 (BitVec.ofNat 16 data.rpm) ++
    putI32 data.grams ++ [data.flags]

theorem encodeTelemetry_length (data : TelemetryData) :
    (encodeTelemetry data).length = kTelemetryPayloadSize := rfl

end Culina.Wire
