import Culina.Crc

/-!
The frame layout of the C1-Link specification as a function of a frame: sync
bytes, the bytes the checksum covers and the checksum itself. The parser and the
writer are both compared with it.
-/
namespace Culina.Layout

open Wire Crc

/-- The protocol version is the high nibble; the low nibble carries flags. -/
def VersionOk (version : Byte) : Prop := version &&& 0xF0 = kVersion &&& 0xF0

instance (version : Byte) : Decidable (VersionOk version) := by
  unfold VersionOk
  infer_instance

/-- The six header bytes after the sync pair. -/
def fields (version : Byte) (f : Frame) (len : ℕ) : List Byte :=
  [version, f.type.toByte, f.seq, f.msgId] ++ putU16 (BitVec.ofNat 16 len)

/-- The bytes covered by the checksum. -/
def covered (version : Byte) (f : Frame) : List Byte := fields version f f.payloadLen ++ f.bytes

def checksum (version : Byte) (f : Frame) : BitVec 16 := crc16Ccitt (covered version f) kCrcSeed

def wireBytes (version : Byte) (f : Frame) : List Byte :=
  kSync0 :: kSync1 :: (covered version f ++ putU16 (checksum version f))

theorem fields_length (version : Byte) (f : Frame) (len : ℕ) :
    (fields version f len).length = 6 := rfl

theorem bytes_length (f : Frame) (h : f.payloadLen ≤ kMaxPayload) :
    f.bytes.length = f.payloadLen := by
  simp [Frame.bytes, h]

theorem wireBytes_length (version : Byte) (f : Frame) (h : f.payloadLen ≤ kMaxPayload) :
    (wireBytes version f).length = 10 + f.payloadLen := by
  simp only [wireBytes, covered, putU16, List.length_cons, List.length_append, List.length_nil,
    fields_length, bytes_length f h]
  omega

theorem kVersion_ok : VersionOk kVersion := rfl

end Culina.Layout
