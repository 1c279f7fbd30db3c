import Culina.Writer
import Culina.ShiftRegister

/-!
Error detection. The checksum is a shift register whose polynomial has a constant
term, so no change within two adjacent bytes goes unnoticed; and where the layout of a
frame survives the change, the parser compares just these checksums.
-/
namespace Culina.BurstDetection

open Wire Crc Layout Framing FrameParser Writer
open ShiftRegister hiding absorb

/-! The checksum as a shift register. -/

/-- The mask picks the top bit. -/
theorem mask_ne_zero (crc : BitVec 16) : crc &&& 0x8000 ≠ 0 ↔ crc.msb = true := by
  have hmask : crc &&& 0x8000 = if crc.getLsbD 15 then BitVec.twoPow 16 15 else 0 :=
    BitVec.and_twoPow crc 15
  rw [hmask, BitVec.msb_eq_getLsbD_last]
  cases crc.getLsbD 15 with
  | false => simp
  | true => decide

theorem crcBit_eq (crc : BitVec 16) : crcBit crc = advance 0x1021 crc := by
  unfold crcBit advance
  by_cases htop : crc.msb = true
  · rw [if_pos ((mask_ne_zero crc).mpr htop), if_pos htop]
  · rw [if_neg fun h => htop ((mask_ne_zero crc).mp h), if_neg htop, BitVec.xor_zero]

theorem crcByte_eq (crc : BitVec 16) (byte : Byte) :
    crcByte crc byte = ShiftRegister.absorb 0x1021 crc byte := by
  have hbit : crcBit = advance 0x1021 := funext crcBit_eq
  rw [crcByte, ShiftRegister.absorb, hbit]

theorem crc16Ccitt_eq (data : List Byte) (seed : BitVec 16) :
    crc16Ccitt data seed = remainder 0x1021 data seed := by
  have hbyte : crcByte = ShiftRegister.absorb 0x1021 := funext fun crc => funext (crcByte_eq crc)
  rw [crc16Ccitt, remainder, hbyte]

theorem crc16Ccitt_ne {i : ℕ} {xs ys : List Byte} (hwithin : DifferWithin i xs ys) (hne : xs ≠ ys)
    (seed : BitVec 16) : crc16Ccitt xs seed ≠ crc16Ccitt ys seed := by
  rw [crc16Ccitt_eq, crc16Ccitt_eq]
  exact remainder_ne (by decide) (by decide) hwithin hne seed

/-! Frames with a wrong checksum. -/

/-- A frame behind which any two bytes stand for the checksum. -/
def laidOut (f : Frame) (lo hi : Byte) : List Byte :=
  kSync0 :: kSync1 :: (covered kVersion f ++ [lo, hi])

/-- A frame behind which the checksum does not match delivers nothing. -/
theorem mischecked_fed (f : Frame) (lo hi : Byte) (hlen : f.payloadLen ≤ kMaxPayload)
    (hcrc : getU16 lo hi ≠ checksum kVersion f) :
    ∀ delivered ∈ (feedAll {} (laidOut f lo hi)).2, delivered = none := by
  obtain ⟨r, hbody, hs, hrunning, -⟩ := body_fed kVersion f {} hlen
  have hsplit : laidOut f lo hi =
      (kSync0 :: kSync1 :: fields kVersion f f.payloadLen) ++ (f.bytes ++ [lo, hi]) := by
    simp only [laidOut, covered, List.cons_append, List.append_assoc]
  have hlast : (r.feedAll [lo, hi]).2 = [none, none] := by
    have hmismatch : r.runningCrc ≠ getU16 lo hi := by
      rw [hrunning]
      exact hcrc.symm
    simp only [feedAll, feed_crcLo _ hs]
    rw [feed_crcHi _ rfl, if_pos hmismatch]
  rw [hsplit, feedAll_append, header_fed kVersion f f.payloadLen {} idle_initial kVersion_ok hlen,
    feedAll_append, hbody, hlast]
  intro delivered hmem
  simp only [List.mem_append, List.mem_replicate, List.mem_cons, List.not_mem_nil, or_false] at hmem
  rcases hmem with ⟨-, hnone⟩ | ⟨-, hnone⟩ | hnone | hnone
  · exact hnone
  · exact hnone
  · exact hnone
  · exact hnone

/-! Altered frames. -/

/-- The parts of a frame whose corruption leaves its layout alone. -/
inductive Field where
  | tag
  | payload
  | crc
deriving DecidableEq, Repr

/-- The places of the field in a frame with `len` payload bytes; the tag is the sequence number
with the message identifier. -/
def Field.Covers (len : ℕ) : Field → ℕ → Prop
  | .tag, place => 4 ≤ place ∧ place < 6
  | .payload, place => 8 ≤ place ∧ place < 8 + len
  | .crc, place => 8 + len ≤ place ∧ place < 10 + len

/-- Bytes that differ from the written message, and only within two adjacent places of the field. -/
structure Altered (m : Message) (field : Field) (i : ℕ) (bytes : List Byte) : Prop where
  within : DifferWithin i m.written bytes
  covers : ∀ place, m.written[place]? ≠ bytes[place]? → field.Covers m.payload.length place
  ne : bytes ≠ m.written

theorem written_laidOut (m : Message) :
    ∃ lo hi, putU16 (checksum kVersion m.frame) = [lo, hi] ∧ m.written = laidOut m.frame lo hi := by
  refine ⟨_, _, rfl, ?_⟩
  exact writeFrame_eq m.outCap m.type m.seq m.msgId m.payload m.payload_le m.fits

theorem covered_ofBytes (type : FrameType) (seq : Byte) (msgId : MsgId) (payload : List Byte)
    (hlen : payload.length ≤ kMaxPayload) :
    covered kVersion (Frame.ofBytes type seq msgId payload) =
      kVersion :: type.toByte :: seq :: msgId ::
        (putU16 (BitVec.ofNat 16 payload.length) ++ payload) := by
  rw [covered, Frame.bytes_ofBytes type seq msgId payload hlen]
  rfl

theorem exists_header (bytes : List Byte) (h : 8 ≤ bytes.length) :
    ∃ b0 b1 b2 b3 b4 b5 b6 b7 rest,
      bytes = b0 :: b1 :: b2 :: b3 :: b4 :: b5 :: b6 :: b7 :: rest := by
  rcases bytes with _ | ⟨b0, _ | ⟨b1, _ | ⟨b2, _ | ⟨b3, _ | ⟨b4, _ | ⟨b5, _ | ⟨b6, _ | ⟨b7, rest⟩⟩⟩⟩⟩⟩⟩⟩
  all_goals first | exact ⟨b0, b1, b2, b3, b4, b5, b6, b7, rest, rfl⟩ | (simp at h)

theorem covered_length (type : FrameType) (seq : Byte) (msgId : MsgId) (payload : List Byte)
    (hlen : payload.length ≤ kMaxPayload) :
    (covered kVersion (Frame.ofBytes type seq msgId payload)).length = 6 + payload.length := by
  rw [covered_ofBytes type seq msgId payload hlen]
  simp only [putU16, List.length_cons, List.length_append, List.length_nil]
  omega

/-- Lists of one length in front of others agree where the whole agrees. -/
theorem append_left_of_places {xs ys front back : List Byte} (hlen : xs.length = ys.length)
    (h : ∀ place, place < xs.length → (xs ++ front)[place]? = (ys ++ back)[place]?) : xs = ys := by
  apply List.ext_getElem?
  intro place
  by_cases hlt : place < xs.length
  · have hplace := h place hlt
    rwa [List.getElem?_append_left hlt, List.getElem?_append_left (hlen ▸ hlt)] at hplace
  · rw [List.getElem?_eq_none (by omega), List.getElem?_eq_none (by omega)]

theorem append_right_of_places {xs ys front back : List Byte} (hlen : xs.length = ys.length)
    (h : ∀ place, xs.length ≤ place → (xs ++ front)[place]? = (ys ++ back)[place]?) :
    front = back := by
  apply List.ext_getElem?
  intro place
  have hplace := h (xs.length + place) (by omega)
  rwa [List.getElem?_append_right (by omega), List.getElem?_append_right (by omega), ← hlen,
    Nat.add_sub_cancel_left] at hplace

section

variable {f g : Frame} {lo hi lo' hi' : Byte}

/-- Other checksum bytes behind the same fields do not match. -/
theorem mismatch_of_covered (hcheck : putU16 (checksum kVersion f) = [lo, hi])
    (hcovered : covered kVersion f = covered kVersion g) (hne : [lo', hi'] ≠ [lo, hi]) :
    getU16 lo' hi' ≠ checksum kVersion g := by
  intro hmatches
  have hsum : checksum kVersion g = checksum kVersion f := by rw [checksum, checksum, hcovered]
  apply hne
  rw [← putU16_getU16, hmatches, hsum, hcheck]

/-- The same checksum bytes behind a burst in the fields do not match. -/
theorem mismatch_of_differ (hcheck : putU16 (checksum kVersion f) = [lo, hi]) {i : ℕ}
    (hdiffer : DifferWithin i (covered kVersion f) (covered kVersion g))
    (hne : covered kVersion f ≠ covered kVersion g) : getU16 lo hi ≠ checksum kVersion g := by
  intro hmatches
  have hsum : checksum kVersion g = checksum kVersion f := by
    rw [← hmatches]
    have hread := getU16_putU16 (checksum kVersion f)
    simp only [putU16, List.cons.injEq, and_true] at hcheck
    rwa [hcheck.1, hcheck.2] at hread
  exact crc16Ccitt_ne hdiffer hne kCrcSeed hsum.symm

end

namespace Altered

variable {m : Message} {field : Field} {i : ℕ} {bytes : List Byte}

/-- Outside its field nothing changes. -/
theorem kept (h : Altered m field i bytes) {place : ℕ} (hplace : ¬ field.Covers m.payload.length place) :
    m.written[place]? = bytes[place]? := by
  by_contra hdiffers
  exact hplace (h.covers place hdiffers)

/-- Sync bytes, version, type and length stand, so the layout does. -/
theorem layout (h : Altered m field i bytes) :
    ∃ seq msgId payload lo hi, payload.length = m.payload.length ∧
      bytes = laidOut (Frame.ofBytes m.type seq msgId payload) lo hi := by
  have hframe : ∀ place, place < 4 ∨ (6 ≤ place ∧ place < 8) → ¬ field.Covers m.payload.length place := by
    intro place hplace
    cases field <;> simp only [Field.Covers] <;> omega
  have hlength := h.within.length
  have h0 := h.kept (hframe 0 (by omega))
  have h1 := h.kept (hframe 1 (by omega))
  have h2 := h.kept (hframe 2 (by omega))
  have h3 := h.kept (hframe 3 (by omega))
  have h6 := h.kept (hframe 6 (by omega))
  have h7 := h.kept (hframe 7 (by omega))
  obtain ⟨lo, hi, -, hwritten⟩ := written_laidOut m
  obtain ⟨lenLo, lenHi, hlen⟩ : ∃ lenLo lenHi,
      putU16 (BitVec.ofNat 16 m.payload.length) = [lenLo, lenHi] := ⟨_, _, rfl⟩
  rw [hwritten, laidOut, Message.frame, covered_ofBytes _ _ _ _ m.payload_le, hlen]
    at hlength h0 h1 h2 h3 h6 h7
  obtain ⟨b0, b1, b2, b3, seq, msgId, b6, b7, rest, rfl⟩ := exists_header bytes (by
    rw [← hlength]
    simp only [List.length_cons, List.length_append]
    omega)
  simp only [List.cons_append, List.nil_append, List.getElem?_cons_zero, List.getElem?_cons_succ,
    Option.some.injEq] at h0 h1 h2 h3 h6 h7
  subst h0 h1 h2 h3 h6 h7
  have hrest : rest.length = m.payload.length + 2 := by
    simp only [List.length_cons, List.length_append, List.length_nil] at hlength
    omega
  obtain ⟨lo', hi', htail⟩ := List.length_eq_two.mp (show (rest.drop m.payload.length).length = 2 by
    rw [List.length_drop]
    omega)
  have hpayload : (rest.take m.payload.length).length = m.payload.length := by
    rw [List.length_take]
    omega
  refine ⟨seq, msgId, rest.take m.payload.length, lo', hi', hpayload, ?_⟩
  rw [laidOut, covered_ofBytes _ _ _ _ (hpayload.trans_le m.payload_le), hpayload, hlen, ← htail]
  simp only [List.cons_append, List.nil_append, List.take_append_drop]

/-- The checksum bytes of an altered frame do not match. -/
theorem mischecked (h : Altered m field i bytes) :
    ∃ f lo hi, f.payloadLen ≤ kMaxPayload ∧ bytes = laidOut f lo hi ∧
      getU16 lo hi ≠ checksum kVersion f := by
  obtain ⟨seq, msgId, payload, lo', hi', hlen, hbytes⟩ := h.layout
  obtain ⟨lo, hi, hcheck, hwritten⟩ := written_laidOut m
  have hmax : payload.length ≤ kMaxPayload := hlen.trans_le m.payload_le
  refine ⟨Frame.ofBytes m.type seq msgId payload, lo', hi', hmax, hbytes, ?_⟩
  have hsize := covered_length m.type m.seq m.msgId m.payload m.payload_le
  have hsize' := covered_length m.type seq msgId payload hmax
  rw [hlen] at hsize'
  have hne : laidOut m.frame lo hi ≠ laidOut (Frame.ofBytes m.type seq msgId payload) lo' hi' := by
    rw [← hwritten, ← hbytes]
    exact h.ne.symm
  have hkept : ∀ place, ¬ field.Covers m.payload.length (place + 2) →
      (covered kVersion m.frame ++ [lo, hi])[place]? =
        (covered kVersion (Frame.ofBytes m.type seq msgId payload) ++ [lo', hi'])[place]? := by
    intro place hplace
    have hsame := h.kept hplace
    rw [hwritten, hbytes] at hsame
    exact hsame
  have hwithin : ∀ place, place ≠ i - 2 → place ≠ i - 2 + 1 →
      (covered kVersion m.frame ++ [lo, hi])[place]? =
        (covered kVersion (Frame.ofBytes m.type seq msgId payload) ++ [lo', hi'])[place]? := by
    intro place hplace hplace'
    have hsame := h.within.same (place + 2) (by omega) (by omega)
    rw [hwritten, hbytes] at hsame
    exact hsame
  change (covered kVersion m.frame).length = _ at hsize
  unfold laidOut at hne
  generalize m.frame = f at hne hkept hwithin hcheck hsize
  generalize Frame.ofBytes m.type seq msgId payload = g at hne hkept hwithin hsize'
  have hsame : (covered kVersion f).length = (covered kVersion g).length := hsize.trans hsize'.symm
  by_cases hfield : field = .crc
  · have hcovered : covered kVersion f = covered kVersion g := by
      refine append_left_of_places hsame fun place hlt => hkept place ?_
      rw [hfield, Field.Covers]
      omega
    refine mismatch_of_covered hcheck hcovered fun hbytes' => hne ?_
    rw [hcovered, hbytes']
  · have hbytes' : [lo, hi] = [lo', hi'] := by
      refine append_right_of_places hsame fun place hle => hkept place ?_
      cases field with
      | tag =>
        rw [Field.Covers]
        omega
      | payload =>
        rw [Field.Covers]
        omega
      | crc => exact absurd rfl hfield
    have hdiffer : DifferWithin (i - 2) (covered kVersion f) (covered kVersion g) := by
      refine ⟨hsame, fun place hplace hplace' => ?_⟩
      by_cases hlt : place < (covered kVersion f).length
      · have hkept' := hwithin place hplace hplace'
        rwa [List.getElem?_append_left hlt, List.getElem?_append_left (hsame ▸ hlt)] at hkept'
      · rw [List.getElem?_eq_none (by omega), List.getElem?_eq_none (by omega)]
    rw [hbytes'] at hcheck
    refine mismatch_of_differ hcheck hdiffer fun heq => hne ?_
    rw [heq, hbytes']

end Altered

/-- Another byte at one place of a field. -/
theorem altered_set {m : Message} {field : Field} {i : ℕ} {byte : Byte}
    (hcovers : field.Covers m.payload.length i) (hne : m.written.set i byte ≠ m.written) :
    Altered m field i (m.written.set i byte) := by
  refine ⟨⟨List.length_set.symm, ?_⟩, ?_, hne⟩
  · intro place hplace _
    exact (List.getElem?_set_ne hplace.symm).symm
  · intro place hdiffers
    by_cases hplace : place = i
    · rwa [hplace]
    · exact absurd (List.getElem?_set_ne fun h => hplace h.symm).symm hdiffers

/-- A change within two adjacent bytes always changes the checksum; within two adjacent bytes of one
field of a written frame it keeps a fresh parser from delivering anything. -/
theorem burst_detected :
    (∀ (seed : BitVec 16) (i : ℕ) (xs ys : List Byte), DifferWithin i xs ys → xs ≠ ys →
      crc16Ccitt xs seed ≠ crc16Ccitt ys seed) ∧
    ∀ (m : Message) (field : Field) (i : ℕ) (bytes : List Byte), Altered m field i bytes →
      ∀ delivered ∈ (feedAll {} bytes).2, delivered = none := by
  refine ⟨fun seed i xs ys hwithin hne => crc16Ccitt_ne hwithin hne seed, ?_⟩
  intro m field i bytes haltered
  obtain ⟨f, lo, hi, hlen, rfl, hcrc⟩ := haltered.mischecked
  exact mischecked_fed f lo hi hlen hcrc

theorem burst_detected_ping :
    crc16Ccitt [0x10, 0x01] kCrcSeed ≠ crc16Ccitt [0x11, 0x02] kCrcSeed ∧
      ∀ delivered ∈ (feedAll {} (ping.written.set 5 MsgId.motorStop)).2, delivered = none := by
  refine ⟨burst_detected.1 kCrcSeed 0 _ _ ⟨rfl, ?_⟩ (by decide), ?_⟩
  · intro place hplace hplace'
    rw [List.getElem?_eq_none, List.getElem?_eq_none]
    · simp only [List.length_cons, List.length_nil]
      omega
    · simp only [List.length_cons, List.length_nil]
      omega
  · exact burst_detected.2 ping .tag 5 _ (altered_set ⟨by decide, by decide⟩ (by decide +kernel))

end Culina.BurstDetection
