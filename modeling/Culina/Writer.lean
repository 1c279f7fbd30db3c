import Culina.Layout
import Culina.Framing

/-!
The frame writer, and the round trip of whole streams: any list of written frames
with sync-free noise around them is parsed back frame for frame, whatever bytes
the payloads imitate.
-/
namespace Culina.Writer

open Wire Crc Layout Framing FrameParser

/-- The bytes written to the caller's buffer of capacity `outCap`; none when the
payload is oversized or the buffer too small. -/
def writeFrame (outCap : ℕ) (type : FrameType) (seq : Byte) (msgId : MsgId)
    (payload : List Byte) : List Byte :=
  let total := kHeaderSize + payload.length + kCrcSize
  if payload.length > kMaxPayload ∨ outCap < total then []
  else
    let out := [kSync0, kSync1, kVersion, type.toByte, seq, msgId] ++
      putU16 (BitVec.ofNat 16 payload.length) ++ payload
    -- Protocol CRC starts at version and ends after payload.
    let crc := crc16Ccitt ((out.drop 2).take (kHeaderSize - 2 + payload.length)) kCrcSeed
    out ++ putU16 crc

/-- The writer produces the specified layout of its arguments. -/
theorem writeFrame_eq (outCap : ℕ) (type : FrameType) (seq : Byte) (msgId : MsgId)
    (payload : List Byte) (hlen : payload.length ≤ kMaxPayload)
    (hcap : kHeaderSize + payload.length + kCrcSize ≤ outCap) :
    writeFrame outCap type seq msgId payload =
      wireBytes kVersion (Frame.ofBytes type seq msgId payload) := by
  have hfits : ¬ (payload.length > kMaxPayload ∨ outCap < kHeaderSize + payload.length + kCrcSize) := by
    omega
  have hcovered : covered kVersion (Frame.ofBytes type seq msgId payload) =
      [kVersion, type.toByte, seq, msgId] ++ putU16 (BitVec.ofNat 16 payload.length) ++ payload := by
    rw [covered, Frame.bytes_ofBytes type seq msgId payload hlen]
    rfl
  have hlength : (covered kVersion (Frame.ofBytes type seq msgId payload)).length =
      kHeaderSize - 2 + payload.length := by
    rw [hcovered, List.length_append]
    rfl
  have htake : ∀ a b : Byte, (([a, b] ++ covered kVersion (Frame.ofBytes type seq msgId payload)).drop
      2).take (kHeaderSize - 2 + payload.length) =
        covered kVersion (Frame.ofBytes type seq msgId payload) :=
    fun a b => List.take_of_length_le (Nat.le_of_eq hlength)
  have hout : [kSync0, kSync1, kVersion, type.toByte, seq, msgId] ++
      putU16 (BitVec.ofNat 16 payload.length) ++ payload =
        [kSync0, kSync1] ++ covered kVersion (Frame.ofBytes type seq msgId payload) := by
    rw [hcovered]
    rfl
  simp only [writeFrame, hfits, if_false, hout, htake]
  rfl

/-! Feeding one written frame to an idle parser. -/

def Idle (p : FrameParser) : Prop := p.state = .sync0 ∧ p.runningCrc = kCrcSeed

theorem idle_initial : Idle {} := ⟨rfl, rfl⟩

theorem idle_reset (p : FrameParser) : Idle p.reset := ⟨rfl, rfl⟩

theorem noise_fed (p : FrameParser) (hs : p.state = .sync0) (noise : List Byte)
    (hnoise : kSync0 ∉ noise) : p.feedAll noise = (p, List.replicate noise.length none) := by
  induction noise with
  | nil => rfl
  | cons byte rest ih =>
    have hb : byte ≠ kSync0 := fun h => hnoise (by simp [h])
    have hrest : kSync0 ∉ rest := fun h => hnoise (by simp [h])
    simp only [feedAll, feed_sync0 byte hs, hb, if_false, ih hrest, List.length_cons,
      List.replicate_succ]

theorem ofNat_len {len : ℕ} (h : len ≤ kMaxPayload) : (BitVec.ofNat 16 len).toNat = len := by
  rw [BitVec.toNat_ofNat]
  exact Nat.mod_eq_of_lt (by unfold kMaxPayload at h; omega)

/-- The parser after an accepted header announcing `len` payload bytes. -/
def afterHeader (version : Byte) (f : Frame) (len : ℕ) (p : FrameParser) : FrameParser where
  state := if len = 0 then .crcLo else .payload
  frame := { p.frame with type := f.type, seq := f.seq, msgId := f.msgId }
  expectedLen := BitVec.ofNat 16 len
  received := 0
  crcLo := p.crcLo
  runningCrc := crc16Ccitt (fields version f len) kCrcSeed

theorem header_fed (version : Byte) (f : Frame) (len : ℕ) (p : FrameParser) (hp : Idle p)
    (hv : VersionOk version) (hlen : len ≤ kMaxPayload) :
    p.feedAll (kSync0 :: kSync1 :: fields version f len) =
      (afterHeader version f len p, List.replicate 8 none) := by
  obtain ⟨hs, hcrc⟩ := hp
  obtain ⟨hlow, hhigh⟩ := f.type.toByte_range
  have htype : ¬ (f.type.toByte < 0x01 ∨ f.type.toByte > 0x04) := fun h => h.elim hlow hhigh
  have hword := getU16_putU16 (BitVec.ofNat 16 len)
  unfold getU16 at hword
  have hval := ofNat_len hlen
  have hfits : ¬ (BitVec.ofNat 16 len).toNat > kMaxPayload := by omega
  have hzero : BitVec.ofNat 16 len = 0 ↔ len = 0 := by
    rw [← hval, BitVec.toNat_eq]
    simp
  have hversion : ¬ (version &&& 0xF0 ≠ kVersion &&& 0xF0) := not_not.mpr hv
  simp only [fields, putU16, List.cons_append, List.nil_append, feedAll, feed, inCrcRange, hs,
    Bool.false_eq_true, if_false, if_true, hversion, htype, hword, hfits, hzero,
    FrameType.ofByte_toByte, afterHeader, crc16Ccitt, List.foldl_cons, List.foldl_nil, hcrc]
  rfl

/-- The payload loop stores the bytes in order and ends in the CRC state. -/
theorem payload_fed (data : List Byte) (p : FrameParser) (hs : p.state = .payload)
    (hne : data ≠ []) (hlen : p.received + data.length = p.expectedLen.toNat)
    (hmax : p.expectedLen.toNat ≤ kMaxPayload) :
    ∃ stored : Vector Byte kMaxPayload,
      p.feedAll data = ({ p with
        state := .crcLo
        frame := { p.frame with payload := stored }
        received := p.expectedLen.toNat
        runningCrc := crc16Ccitt data p.runningCrc }, List.replicate data.length none) ∧
      stored.toList.take p.expectedLen.toNat = p.frame.payload.toList.take p.received ++ data := by
  induction data generalizing p with
  | nil => exact absurd rfl hne
  | cons byte rest ih =>
    simp only [List.length_cons] at hlen
    have hroom : p.received < kMaxPayload := by omega
    have htake := take_storePayload p byte hroom
    have hstored := storePayload_eq p byte
    by_cases hrest : rest = []
    · subst rest
      have hlast : p.received + 1 = p.expectedLen.toNat := by simpa using hlen
      refine ⟨(p.storePayload byte).payload, ?_, by rw [← hlast, htake]⟩
      simp only [feedAll, feed_payload byte hs, hlast, if_true]
      rw [hstored]
      rfl
    · have hmore : p.received + 1 ≠ p.expectedLen.toNat := by
        have := List.length_pos_iff.mpr hrest
        omega
      obtain ⟨stored, hfed, hbytes⟩ := ih { p.absorb byte with
        frame := p.storePayload byte
        received := p.received + 1
        state := .payload } rfl hrest (by simp only [absorb_expectedLen]; omega) hmax
      refine ⟨stored, ?_, ?_⟩
      · simp only [feedAll, feed_payload byte hs, hmore, if_false, hfed]
        rw [hstored]
        rfl
      · rw [absorb_expectedLen] at hbytes
        rw [hbytes, htake, List.append_assoc]
        rfl

/-- The checksum bytes deliver the assembled frame. -/
theorem crc_fed (p : FrameParser) (hs : p.state = .crcLo) :
    p.feedAll (putU16 p.runningCrc) =
      (FrameParser.reset { p with
        crcLo := p.runningCrc.setWidth 8
        frame := { p.frame with payloadLen := p.expectedLen.toNat } },
        [none, some { p.frame with payloadLen := p.expectedLen.toNat }]) := by
  have hcrc := getU16_putU16 p.runningCrc
  simp only [putU16, feedAll, feed_crcLo _ hs]
  rw [feed_crcHi _ rfl]
  simp only [hcrc, ne_eq, not_true, if_false, if_true]
  rfl

/-- What a frame says, leaving out stale bytes past the payload. -/
def content (f : Frame) : FrameType × Byte × MsgId × ℕ × List Byte :=
  (f.type, f.seq, f.msgId, f.payloadLen, f.bytes)

/-- After header and payload the parser holds the frame and waits for its checksum. -/
theorem body_fed (version : Byte) (f : Frame) (p : FrameParser)
    (hlen : f.payloadLen ≤ kMaxPayload) :
    ∃ r, (afterHeader version f f.payloadLen p).feedAll f.bytes =
        (r, List.replicate f.payloadLen none) ∧
      r.state = .crcLo ∧ r.runningCrc = checksum version f ∧
      content { r.frame with payloadLen := r.expectedLen.toNat } = content f := by
  have hbytes := bytes_length f hlen
  have hval := ofNat_len hlen
  by_cases hzero : f.payloadLen = 0
  · have hnil : f.bytes = [] := List.length_eq_zero_iff.mp (hbytes.trans hzero)
    refine ⟨afterHeader version f f.payloadLen p, ?_, by simp [afterHeader, hzero], ?_, ?_⟩
    · rw [hnil, hzero]
      rfl
    · rw [checksum, covered, hnil, List.append_nil]
      rfl
    · simp [content, Frame.bytes, afterHeader, hzero]
  · have hne : f.bytes ≠ [] := by
      intro h
      rw [h, List.length_nil] at hbytes
      exact hzero hbytes.symm
    obtain ⟨stored, hfed, hstored⟩ := payload_fed f.bytes (afterHeader version f f.payloadLen p)
      (by simp [afterHeader, hzero]) hne (by simp [afterHeader, hval, hbytes])
      (by simpa [afterHeader, hval] using hlen)
    rw [hbytes] at hfed
    refine ⟨_, hfed, rfl, ?_, ?_⟩
    · change crc16Ccitt f.bytes (crc16Ccitt (fields version f f.payloadLen) kCrcSeed) = _
      rw [← crc16Ccitt_append]
      rfl
    · have htake : stored.toList.take f.payloadLen = f.bytes := by
        simpa [afterHeader, hval] using hstored
      simp only [content, Frame.bytes, afterHeader, hval] at htake ⊢
      rw [htake]

/-- An idle parser delivers a written frame on its last byte and is idle again. -/
theorem frame_fed (version : Byte) (f : Frame) (p : FrameParser) (hp : Idle p)
    (hv : VersionOk version) (hlen : f.payloadLen ≤ kMaxPayload) :
    ∃ g, content g = content f ∧ Idle (p.feedAll (wireBytes version f)).1 ∧
      (p.feedAll (wireBytes version f)).2 =
        List.replicate (9 + f.payloadLen) none ++ [some g] := by
  obtain ⟨r, hbody, hs, hcrc, hcontent⟩ := body_fed version f p hlen
  have hsplit : wireBytes version f = (kSync0 :: kSync1 :: fields version f f.payloadLen) ++
      (f.bytes ++ putU16 r.runningCrc) := by
    simp only [wireBytes, covered, hcrc, List.cons_append, List.append_assoc]
  have hcount : List.replicate (9 + f.payloadLen) (none : Option Frame) =
      List.replicate 8 none ++ (List.replicate f.payloadLen none ++ [none]) := by
    rw [← List.replicate_succ', ← List.replicate_add]
    congr 1
    omega
  refine ⟨_, hcontent, ?_⟩
  rw [hsplit, feedAll_append, header_fed version f f.payloadLen p hp hv hlen, feedAll_append,
    hbody, crc_fed r hs, hcount]
  refine ⟨idle_reset _, ?_⟩
  simp only [List.append_assoc, List.cons_append, List.nil_append]

/-! Streams of messages in noise. -/

/-- A message the writer accepts, with the buffer it is written to. -/
structure Message where
  type : FrameType
  seq : Byte
  msgId : MsgId
  payload : List Byte
  outCap : ℕ
  payload_le : payload.length ≤ kMaxPayload
  fits : kHeaderSize + payload.length + kCrcSize ≤ outCap

namespace Message

def frame (m : Message) : Frame := Frame.ofBytes m.type m.seq m.msgId m.payload

def written (m : Message) : List Byte := writeFrame m.outCap m.type m.seq m.msgId m.payload

theorem content_frame (m : Message) :
    content m.frame = (m.type, m.seq, m.msgId, m.payload.length, m.payload) := by
  have h := Frame.bytes_ofBytes m.type m.seq m.msgId m.payload m.payload_le
  simp only [content, frame, h]
  rfl

end Message

/-- A ping. -/
def ping : Message where
  type := .request
  seq := 7
  msgId := MsgId.ping
  payload := []
  outCap := kMaxFrameSize
  payload_le := by decide
  fits := by decide

/-- Bytes among which no frame can start. -/
abbrev Noise := { bytes : List Byte // kSync0 ∉ bytes }

def stream : List (Noise × Message) → Noise → List Byte
  | [], last => last.val
  | (noise, m) :: rest, last => noise.val ++ (m.written ++ stream rest last)

/-- What each byte of a stream should deliver. -/
def deliveries : List (Noise × Message) → Noise →
    List (Option (FrameType × Byte × MsgId × ℕ × List Byte))
  | [], last => List.replicate last.val.length none
  | (noise, m) :: rest, last =>
      List.replicate noise.val.length none ++
        (List.replicate (m.written.length - 1) none ++
          some (m.type, m.seq, m.msgId, m.payload.length, m.payload) :: deliveries rest last)

theorem stream_fed (items : List (Noise × Message)) (last : Noise) (p : FrameParser)
    (hp : Idle p) :
    Idle (p.feedAll (stream items last)).1 ∧
      (p.feedAll (stream items last)).2.map (Option.map content) = deliveries items last := by
  induction items generalizing p with
  | nil =>
    rw [stream, noise_fed p hp.1 last.val last.property]
    exact ⟨hp, by simp [deliveries]⟩
  | cons item rest ih =>
    obtain ⟨noise, m⟩ := item
    have hwritten : m.written = wireBytes kVersion m.frame :=
      writeFrame_eq m.outCap m.type m.seq m.msgId m.payload m.payload_le m.fits
    have hlen : m.frame.payloadLen ≤ kMaxPayload := m.payload_le
    obtain ⟨g, hcontent, hidle, hout⟩ := frame_fed kVersion m.frame p hp kVersion_ok hlen
    rw [← hwritten] at hidle hout
    obtain ⟨hend, hrest⟩ := ih (p.feedAll m.written).1 hidle
    have hcount : m.written.length - 1 = 9 + m.frame.payloadLen := by
      rw [hwritten, wireBytes_length kVersion m.frame hlen]
      omega
    rw [stream, feedAll_append, noise_fed p hp.1 noise.val noise.property, feedAll_append]
    refine ⟨hend, ?_⟩
    simp only [List.map_append, hrest, hout, deliveries, hcount, List.map_replicate,
      List.map_cons, Option.map_none, Option.map_some, hcontent,
      Message.content_frame, List.append_assoc, List.cons_append, List.nil_append]

/-- Feeding noise and written frames to a fresh parser delivers exactly the written
messages, each at its last byte, and leaves the parser idle. -/
theorem stream_round_trip (items : List (Noise × Message)) (last : Noise) :
    (FrameParser.feedAll {} (stream items last)).2.map (Option.map content) =
      deliveries items last ∧
    (FrameParser.feedAll {} (stream items last)).1.inProgress = false := by
  obtain ⟨hidle, hout⟩ := stream_fed items last {} idle_initial
  refine ⟨hout, ?_⟩
  rw [inProgress, hidle.1]
  rfl

end Culina.Writer
