import Culina.Wire

/-!
CRC16-CCITT with polynomial 0x1021, one bit and one byte at a time. The checksum
is a left fold over the bytes, so a seed carries it across any split of the data.
-/
namespace Culina.Crc

open Wire

/-- One round of the inner loop: shift out the top bit and subtract the polynomial. -/
def crcBit (crc : BitVec 16) : BitVec 16 :=
  if crc &&& 0x8000 ≠ 0 then (crc <<< 1) ^^^ 0x1021 else crc <<< 1

def crcByte (crc : BitVec 16) (byte : Byte) : BitVec 16 :=
  crcBit^[8] (crc ^^^ (byte.setWidth 16 <<< 8))

def kCrcSeed : BitVec 16 := 0xFFFF

def crc16Ccitt (data : List Byte) (seed : BitVec 16) : BitVec 16 := data.foldl crcByte seed

@[simp] theorem crc16Ccitt_nil (seed : BitVec 16) : crc16Ccitt [] seed = seed := rfl

theorem crc16Ccitt_append (front back : List Byte) (seed : BitVec 16) :
    crc16Ccitt (front ++ back) seed = crc16Ccitt back (crc16Ccitt front seed) :=
  List.foldl_append

example : crc16Ccitt ("123456789".toList.map fun c => BitVec.ofNat 8 c.toNat) kCrcSeed = 0x29B1 := by
  decide +kernel

end Culina.Crc
