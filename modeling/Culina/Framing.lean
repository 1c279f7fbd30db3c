import Culina.Crc

/-!
The incremental frame parser: one byte in, at most one checked frame out.
-/
namespace Culina.Framing

open Wire Crc

inductive State where
  | sync0
  | sync1
  | version
  | type
  | seq
  | msgId
  | lenLo
  | lenHi
  | payload
  | crcLo
  | crcHi
deriving DecidableEq, Repr

structure FrameParser where
  state : State := .sync0
  frame : Frame := {}
  expectedLen : BitVec 16 := 0
  received : ℕ := 0
  crcLo : Byte := 0
  runningCrc : BitVec 16 := kCrcSeed
deriving DecidableEq, Repr

namespace FrameParser

def inProgress (p : FrameParser) : Bool := p.state ≠ .sync0

def reset (p : FrameParser) : FrameParser :=
  { p with state := .sync0, expectedLen := 0, received := 0, runningCrc := kCrcSeed }

def resync (p : FrameParser) (byte : Byte) : FrameParser :=
  if byte = kSync0 then { p.reset with state := .sync1 } else p.reset

/-- Sync and CRC bytes are outside the CRC range. -/
def inCrcRange : State → Bool
  | .sync0 | .sync1 | .crcLo | .crcHi => false
  | _ => true

/-- The guarded payload write; a write past the array would be dropped. -/
def storePayload (p : FrameParser) (byte : Byte) : Frame :=
  if h : p.received < kMaxPayload then
    { p.frame with payload := p.frame.payload.set p.received byte h }
  else p.frame

/-- Writing at the cursor appends the byte to the stored payload. -/
theorem take_storePayload (p : FrameParser) (byte : Byte) (h : p.received < kMaxPayload) :
    (p.storePayload byte).payload.toList.take (p.received + 1) =
      p.frame.payload.toList.take p.received ++ [byte] := by
  have hlen : p.received < p.frame.payload.toList.length := by
    simpa only [Vector.length_toList] using h
  simp only [storePayload, h, dite_true, Vector.toList_set]
  rw [List.take_add_one, List.getElem?_set_self hlen, List.take_set_of_le (Nat.le_refl _)]
  rfl

theorem storePayload_eq (p : FrameParser) (byte : Byte) :
    p.storePayload byte = { p.frame with payload := (p.storePayload byte).payload } := by
  unfold storePayload
  split <;> rfl

/-- Feed one byte. `hasOut` is false when the caller passes a null frame pointer;
the parser then drops a valid frame. -/
def feed (parser : FrameParser) (byte : Byte) (hasOut : Bool) : FrameParser × Option Frame :=
  let p := if inCrcRange parser.state then
      { parser with runningCrc := crc16Ccitt [byte] parser.runningCrc }
    else parser
  match p.state with
  | .sync0 => (if byte = kSync0 then { p with state := .sync1 } else p, none)
  | .sync1 =>
      ({ p with state :=
          if byte = kSync1 then .version else if byte = kSync0 then .sync1 else .sync0 }, none)
  | .version =>
      if byte &&& 0xF0 ≠ kVersion &&& 0xF0 then (p.resync byte, none)
      else ({ p with state := .type }, none)
  | .type =>
      if byte < 0x01 ∨ byte > 0x04 then (p.resync byte, none)
      else ({ p with frame := { p.frame with type := FrameType.ofByte byte }, state := .seq }, none)
  | .seq => ({ p with frame := { p.frame with seq := byte }, state := .msgId }, none)
  | .msgId => ({ p with frame := { p.frame with msgId := byte }, state := .lenLo }, none)
  | .lenLo => ({ p with expectedLen := byte.setWidth 16, state := .lenHi }, none)
  | .lenHi =>
      let expectedLen := p.expectedLen ||| (byte.setWidth 16 <<< 8)
      if expectedLen.toNat > kMaxPayload then (p.resync byte, none)
      else ({ p with
        expectedLen := expectedLen
        received := 0
        state := if expectedLen = 0 then .crcLo else .payload }, none)
  | .payload =>
      ({ p with
        frame := p.storePayload byte
        received := p.received + 1
        state := if p.received + 1 = p.expectedLen.toNat then .crcLo else .payload }, none)
  | .crcLo => ({ p with crcLo := byte, state := .crcHi }, none)
  | .crcHi =>
      if p.runningCrc ≠ getU16 p.crcLo byte then (p.resync byte, none)
      else
        let p := { p with frame := { p.frame with payloadLen := p.expectedLen.toNat } }
        if hasOut then (p.reset, some p.frame) else (p.reset, none)

/-! One equation per state. -/

/-- A byte inside the CRC range updates the running checksum first. -/
def absorb (p : FrameParser) (byte : Byte) : FrameParser :=
  { p with runningCrc := crc16Ccitt [byte] p.runningCrc }

@[simp] theorem absorb_frame (p : FrameParser) (byte : Byte) : (p.absorb byte).frame = p.frame := rfl

@[simp] theorem absorb_expectedLen (p : FrameParser) (byte : Byte) :
    (p.absorb byte).expectedLen = p.expectedLen := rfl

variable {p : FrameParser} {hasOut : Bool} (byte : Byte)

theorem feed_sync0 (h : p.state = .sync0) :
    p.feed byte hasOut = (if byte = kSync0 then { p with state := .sync1 } else p, none) := by
  simp only [feed, h, inCrcRange, Bool.false_eq_true, if_false]

theorem feed_sync1 (h : p.state = .sync1) :
    p.feed byte hasOut = ({ p with state :=
      if byte = kSync1 then .version else if byte = kSync0 then .sync1 else .sync0 }, none) := by
  simp only [feed, h, inCrcRange, Bool.false_eq_true, if_false]

theorem feed_version (h : p.state = .version) :
    p.feed byte hasOut =
      if byte &&& 0xF0 ≠ kVersion &&& 0xF0 then ((p.absorb byte).resync byte, none)
      else ({ p.absorb byte with state := .type }, none) := by
  simp only [feed, h, inCrcRange, if_true, absorb]

theorem feed_type (h : p.state = .type) :
    p.feed byte hasOut =
      if byte < 0x01 ∨ byte > 0x04 then ((p.absorb byte).resync byte, none)
      else ({ p.absorb byte with
        frame := { p.frame with type := FrameType.ofByte byte }, state := .seq }, none) := by
  simp only [feed, h, inCrcRange, if_true, absorb]

theorem feed_seq (h : p.state = .seq) :
    p.feed byte hasOut =
      ({ p.absorb byte with frame := { p.frame with seq := byte }, state := .msgId }, none) := by
  simp only [feed, h, inCrcRange, if_true, absorb]

theorem feed_msgId (h : p.state = .msgId) :
    p.feed byte hasOut =
      ({ p.absorb byte with frame := { p.frame with msgId := byte }, state := .lenLo }, none) := by
  simp only [feed, h, inCrcRange, if_true, absorb]

theorem feed_lenLo (h : p.state = .lenLo) :
    p.feed byte hasOut =
      ({ p.absorb byte with expectedLen := byte.setWidth 16, state := .lenHi }, none) := by
  simp only [feed, h, inCrcRange, if_true, absorb]

theorem feed_lenHi (h : p.state = .lenHi) :
    p.feed byte hasOut =
      if (p.expectedLen ||| (byte.setWidth 16 <<< 8)).toNat > kMaxPayload then
        ((p.absorb byte).resync byte, none)
      else ({ p.absorb byte with
        expectedLen := p.expectedLen ||| (byte.setWidth 16 <<< 8)
        received := 0
        state := if p.expectedLen ||| (byte.setWidth 16 <<< 8) = 0 then .crcLo else .payload },
        none) := by
  simp only [feed, h, inCrcRange, if_true, absorb]

theorem feed_payload (h : p.state = .payload) :
    p.feed byte hasOut =
      ({ p.absorb byte with
        frame := p.storePayload byte
        received := p.received + 1
        state := if p.received + 1 = p.expectedLen.toNat then .crcLo else .payload }, none) := by
  simp only [feed, h, inCrcRange, if_true, absorb, storePayload]

theorem feed_crcLo (h : p.state = .crcLo) :
    p.feed byte hasOut = ({ p with crcLo := byte, state := .crcHi }, none) := by
  simp only [feed, h, inCrcRange, Bool.false_eq_true, if_false]

theorem feed_crcHi (h : p.state = .crcHi) :
    p.feed byte hasOut =
      if p.runningCrc ≠ getU16 p.crcLo byte then (p.resync byte, none)
      else (FrameParser.reset { p with frame := { p.frame with payloadLen := p.expectedLen.toNat } },
        if hasOut then some { p.frame with payloadLen := p.expectedLen.toNat } else none) := by
  simp only [feed, h, inCrcRange, Bool.false_eq_true, if_false]
  split
  · rfl
  · cases hasOut <;> rfl

/-- A frame is delivered only by the last CRC byte, when it completes the checksum. -/
theorem feed_eq_some {f : Frame} (h : (p.feed byte hasOut).2 = some f) :
    p.state = .crcHi ∧ p.runningCrc = getU16 p.crcLo byte ∧
      f = { p.frame with payloadLen := p.expectedLen.toNat } := by
  cases hs : p.state with
  | crcHi =>
    rw [feed_crcHi byte hs] at h
    split at h
    · cases h
    · rename_i hcrc
      cases hasOut
      · cases h
      · exact ⟨rfl, not_not.mp hcrc, (Option.some.inj h).symm⟩
  | version =>
    rw [feed_version byte hs] at h
    split at h <;> cases h
  | type =>
    rw [feed_type byte hs] at h
    split at h <;> cases h
  | lenHi =>
    rw [feed_lenHi byte hs] at h
    split at h <;> cases h
  | sync0 =>
    rw [feed_sync0 byte hs] at h
    cases h
  | sync1 =>
    rw [feed_sync1 byte hs] at h
    cases h
  | seq =>
    rw [feed_seq byte hs] at h
    cases h
  | msgId =>
    rw [feed_msgId byte hs] at h
    cases h
  | lenLo =>
    rw [feed_lenLo byte hs] at h
    cases h
  | payload =>
    rw [feed_payload byte hs] at h
    cases h
  | crcLo =>
    rw [feed_crcLo byte hs] at h
    cases h

/-- Feed a byte string, collecting what each byte delivers. -/
def feedAll (p : FrameParser) : List Byte → FrameParser × List (Option Frame)
  | [] => (p, [])
  | byte :: rest =>
      let current := p.feed byte true
      let later := feedAll current.1 rest
      (later.1, current.2 :: later.2)

theorem feedAll_append (p : FrameParser) (front back : List Byte) :
    p.feedAll (front ++ back) =
      (((p.feedAll front).1.feedAll back).1,
        (p.feedAll front).2 ++ ((p.feedAll front).1.feedAll back).2) := by
  induction front generalizing p with
  | nil => rfl
  | cons byte rest ih => simp [feedAll, ih]

theorem resync_state (p : FrameParser) (byte : Byte) :
    (p.resync byte).state = if byte = kSync0 then .sync1 else .sync0 := by
  unfold resync
  split <;> rfl

theorem resync_runningCrc (p : FrameParser) (byte : Byte) :
    (p.resync byte).runningCrc = kCrcSeed := by
  unfold resync
  split <;> rfl

end FrameParser

end Culina.Framing
