import Culina.Layout
import Culina.Framing

/-!
Soundness of the frame parser over arbitrary byte streams. Every parser state is
read as a candidate, the bytes of the frame being assembled; one fed byte either
extends the candidate or abandons it, and the candidate is always the newest part
of the stream. A delivered frame is therefore exactly the layout of the most
recent bytes.
-/
namespace Culina.ParserSoundness

open Wire Crc Layout Framing FrameParser

/-- The checksummed bytes of the candidate in each parser state. -/
def body (version : Byte) (p : FrameParser) : List Byte :=
  let f := p.frame
  match p.state with
  | .sync0 | .sync1 | .version => []
  | .type => [version]
  | .seq => [version, f.type.toByte]
  | .msgId => [version, f.type.toByte, f.seq]
  | .lenLo => [version, f.type.toByte, f.seq, f.msgId]
  | .lenHi => [version, f.type.toByte, f.seq, f.msgId, p.expectedLen.setWidth 8]
  | .payload => fields version f p.expectedLen.toNat ++ f.payload.toList.take p.received
  | .crcLo | .crcHi => fields version f p.expectedLen.toNat ++
      f.payload.toList.take p.expectedLen.toNat

/-- All bytes of the candidate, sync pair included. -/
def candidate (version : Byte) (p : FrameParser) : List Byte :=
  match p.state with
  | .sync0 => []
  | .sync1 => [kSync0]
  | .crcHi => kSync0 :: kSync1 :: (body version p ++ [p.crcLo])
  | _ => kSync0 :: kSync1 :: body version p

/-- What the private fields of a parser say about its candidate. -/
structure Tracks (version : Byte) (p : FrameParser) : Prop where
  versionOk : VersionOk version
  crc : p.runningCrc = crc16Ccitt (body version p) kCrcSeed
  lowByte : p.state = .lenHi → (p.expectedLen.setWidth 8).setWidth 16 = p.expectedLen
  writing : p.state = .payload →
    p.received < p.expectedLen.toNat ∧ p.expectedLen.toNat ≤ kMaxPayload
  sized : p.state = .crcLo ∨ p.state = .crcHi → p.expectedLen.toNat ≤ kMaxPayload

theorem tracks_idle (version : Byte) (p : FrameParser) (hv : VersionOk version)
    (hs : p.state = .sync0 ∨ p.state = .sync1) (hcrc : p.runningCrc = kCrcSeed) :
    Tracks version p := by
  rcases hs with hs | hs <;>
    exact ⟨hv, by simp [body, hs, hcrc], by simp [hs], by simp [hs], by simp [hs]⟩

theorem tracks_initial : Tracks kVersion {} :=
  tracks_idle kVersion {} kVersion_ok (Or.inl rfl) rfl

theorem reset_tracks (p : FrameParser) : Tracks kVersion p.reset :=
  tracks_idle kVersion p.reset kVersion_ok (Or.inl rfl) rfl

theorem candidate_reset (version : Byte) (p : FrameParser) : candidate version p.reset = [] := rfl

theorem resync_tracks (p : FrameParser) (byte : Byte) : Tracks kVersion (p.resync byte) := by
  apply tracks_idle kVersion _ kVersion_ok _ (resync_runningCrc p byte)
  rw [resync_state]
  split
  · exact Or.inr rfl
  · exact Or.inl rfl

theorem candidate_resync (version : Byte) (p : FrameParser) (byte : Byte) :
    candidate version (p.resync byte) = if byte = kSync0 then [byte] else [] := by
  have hstate := resync_state p byte
  by_cases hb : byte = kSync0
  · simp only [hb, if_true] at hstate ⊢
    simp only [candidate, hstate]
  · simp only [hb, if_false] at hstate ⊢
    simp only [candidate, hstate]

/-- How a byte moves the candidate: it is extended, replaced by a new sync byte,
or dropped. -/
def Moves (old new : List Byte) (byte : Byte) : Prop :=
  new = old ++ [byte] ∨ (new = [byte] ∧ byte = kSync0) ∨ new = []

theorem moves_resync (version : Byte) (p : FrameParser) (old : List Byte) (byte : Byte) :
    Moves old (candidate version (p.resync byte)) byte := by
  rw [candidate_resync]
  split
  · rename_i hb
    exact Or.inr (Or.inl ⟨rfl, hb⟩)
  · exact Or.inr (Or.inr rfl)

theorem Moves.suffix {old new : List Byte} {byte : Byte} (h : Moves old new byte) :
    new <:+ old ++ [byte] := by
  rcases h with h | ⟨h, _⟩ | h
  · rw [h]
  · rw [h]
    exact List.suffix_append old [byte]
  · rw [h]
    exact List.nil_suffix

theorem fields_storePayload (version : Byte) (p : FrameParser) (byte : Byte) (len : ℕ) :
    fields version (p.storePayload byte) len = fields version p.frame len := by
  unfold storePayload
  split <;> rfl

/-- Absorbing a byte extends the checksummed body by it. -/
theorem absorb_crc {version : Byte} {p : FrameParser} (byte : Byte) (h : Tracks version p) :
    (p.absorb byte).runningCrc = crc16Ccitt (body version p ++ [byte]) kCrcSeed := by
  rw [crc16Ccitt_append, ← h.crc]
  rfl

/-- A state without side conditions tracks its body as soon as the checksum does. -/
theorem tracks_of_crc {version : Byte} {p : FrameParser} (hv : VersionOk version)
    (hcrc : p.runningCrc = crc16Ccitt (body version p) kCrcSeed)
    (hs : p.state ≠ .lenHi ∧ p.state ≠ .payload ∧ p.state ≠ .crcLo ∧ p.state ≠ .crcHi) :
    Tracks version p := by
  obtain ⟨hlen, hpayload, hlo, hhi⟩ := hs
  exact ⟨hv, hcrc, fun h => absurd h hlen, fun h => absurd h hpayload,
    fun h => h.elim (fun h => absurd h hlo) (fun h => absurd h hhi)⟩

/-- The high length byte completes the header. -/
theorem lenHi_fields (version : Byte) {p : FrameParser} (byte : Byte)
    (hlow : (p.expectedLen.setWidth 8).setWidth 16 = p.expectedLen) :
    fields version p.frame (p.expectedLen ||| (byte.setWidth 16 <<< 8)).toNat =
      [version, p.frame.type.toByte, p.frame.seq, p.frame.msgId, p.expectedLen.setWidth 8] ++
        [byte] := by
  have hget : p.expectedLen ||| (byte.setWidth 16 <<< 8) =
      getU16 (p.expectedLen.setWidth 8) byte := by
    rw [getU16, hlow]
  rw [fields, BitVec.ofNat_toNat, BitVec.setWidth_eq, hget, putU16_getU16]
  rfl

/-- Step lemma: each byte keeps the reading of the parser state and moves the
candidate. -/
theorem feed_tracks {version : Byte} {p : FrameParser} (byte : Byte) (hasOut : Bool)
    (h : Tracks version p) :
    ∃ version', Tracks version' (p.feed byte hasOut).1 ∧
      Moves (candidate version p) (candidate version' (p.feed byte hasOut).1) byte := by
  have hv := h.versionOk
  have habsorb := absorb_crc byte h
  cases hs : p.state with
  | sync0 =>
    have hseed : p.runningCrc = kCrcSeed := by simpa [body, hs] using h.crc
    rw [feed_sync0 byte hs]
    split
    · rename_i hb
      exact ⟨version, tracks_idle version _ hv (Or.inr rfl) hseed, Or.inl (by simp [candidate, hs, hb])⟩
    · exact ⟨version, h, Or.inr (Or.inr (by simp [candidate, hs]))⟩
  | sync1 =>
    have hseed : p.runningCrc = kCrcSeed := by simpa [body, hs] using h.crc
    rw [feed_sync1 byte hs]
    by_cases hb : byte = kSync1
    · simp only [hb, if_true]
      exact ⟨version, tracks_of_crc hv hseed (by simp), Or.inl (by simp [candidate, body, hs])⟩
    · by_cases hb' : byte = kSync0
      · rw [hb']
        exact ⟨version, tracks_idle version _ hv (Or.inr rfl) hseed, Or.inr (Or.inl ⟨rfl, rfl⟩)⟩
      · simp only [hb, hb', if_false]
        exact ⟨version, tracks_idle version _ hv (Or.inl rfl) hseed, Or.inr (Or.inr rfl)⟩
  | version =>
    rw [feed_version byte hs]
    split
    · exact ⟨kVersion, resync_tracks _ byte, moves_resync _ _ _ byte⟩
    · rename_i hb
      refine ⟨byte, tracks_of_crc (not_not.mp hb) ?_ (by simp), Or.inl (by simp [candidate, body, hs])⟩
      simpa [body, hs] using habsorb
  | type =>
    rw [feed_type byte hs]
    split
    · exact ⟨kVersion, resync_tracks _ byte, moves_resync _ _ _ byte⟩
    · rename_i hb
      have htype := FrameType.toByte_ofByte byte (fun hlt => hb (Or.inl hlt))
        (fun hgt => hb (Or.inr hgt))
      refine ⟨version, tracks_of_crc hv ?_ (by simp), Or.inl (by simp [candidate, body, hs, htype])⟩
      simpa [body, hs, htype] using habsorb
  | seq =>
    rw [feed_seq byte hs]
    refine ⟨version, tracks_of_crc hv ?_ (by simp), Or.inl (by simp [candidate, body, hs])⟩
    simpa [body, hs] using habsorb
  | msgId =>
    rw [feed_msgId byte hs]
    refine ⟨version, tracks_of_crc hv ?_ (by simp), Or.inl (by simp [candidate, body, hs])⟩
    simpa [body, hs] using habsorb
  | lenLo =>
    rw [feed_lenLo byte hs]
    refine ⟨version, ⟨hv, ?_, ?_, by simp, by simp⟩, Or.inl (by simp [candidate, body, hs])⟩
    · simpa [body, hs] using habsorb
    · intro _
      simp
  | lenHi =>
    rw [feed_lenHi byte hs]
    split
    · exact ⟨kVersion, resync_tracks _ byte, moves_resync _ _ _ byte⟩
    · rename_i hlen
      have hfields := lenHi_fields version byte (h.lowByte hs)
      have hold : body version p ++ [byte] = fields version p.frame
          (p.expectedLen ||| (byte.setWidth 16 <<< 8)).toNat := by
        rw [hfields]
        simp only [body, hs]
      by_cases hzero : p.expectedLen ||| (byte.setWidth 16 <<< 8) = 0
      · simp only [hzero, if_true] at hold ⊢
        rw [hold] at habsorb
        refine ⟨version, ⟨hv, ?_, by simp, by simp, by simp⟩, Or.inl ?_⟩
        · simpa [body] using habsorb
        · simpa [candidate, body, hs] using hold.symm
      · simp only [hzero, if_false]
        rw [hold] at habsorb
        refine ⟨version, ⟨hv, ?_, by simp, fun _ => ⟨?_, by simpa using hlen⟩, by simp⟩, Or.inl ?_⟩
        · simpa [body] using habsorb
        · rw [Nat.pos_iff_ne_zero]
          exact fun h0 => hzero (BitVec.eq_of_toNat_eq (by simpa using h0))
        · simpa [candidate, body, hs] using hold.symm
  | payload =>
    obtain ⟨hroom, hmax⟩ := h.writing hs
    have htake := take_storePayload p byte (by omega)
    have hnew : fields version (p.storePayload byte) p.expectedLen.toNat ++
        (p.storePayload byte).payload.toList.take (p.received + 1) = body version p ++ [byte] := by
      rw [fields_storePayload, htake]
      simp only [body, hs, List.append_assoc]
    rw [← hnew] at habsorb
    rw [feed_payload byte hs]
    by_cases hlast : p.received + 1 = p.expectedLen.toNat
    · rw [hlast] at hnew habsorb
      simp only [hlast, if_true]
      refine ⟨version, ⟨hv, habsorb, by simp, by simp, fun _ => hmax⟩, Or.inl ?_⟩
      simpa [candidate, body, hs] using hnew
    · simp only [hlast, if_false]
      refine ⟨version, ⟨hv, habsorb, by simp, fun _ => ⟨?_, hmax⟩, by simp⟩, Or.inl ?_⟩
      · change p.received + 1 < p.expectedLen.toNat
        omega
      · simpa [candidate, body, hs] using hnew
  | crcLo =>
    rw [feed_crcLo byte hs]
    refine ⟨version, ⟨hv, ?_, by simp, by simp, fun _ => h.sized (Or.inl hs)⟩,
      Or.inl (by simp [candidate, body, hs])⟩
    simpa [body, hs] using h.crc
  | crcHi =>
    rw [feed_crcHi byte hs]
    split
    · exact ⟨kVersion, resync_tracks _ byte, moves_resync _ _ _ byte⟩
    · exact ⟨kVersion, reset_tracks _, Or.inr (Or.inr (candidate_reset _ _))⟩

/-- A delivered frame is the layout of the candidate and its last byte. -/
theorem feed_delivers {version : Byte} {p : FrameParser} {byte : Byte} {hasOut : Bool} {f : Frame}
    (h : Tracks version p) (hf : (p.feed byte hasOut).2 = some f) :
    f.payloadLen ≤ kMaxPayload ∧ candidate version p ++ [byte] = wireBytes version f := by
  obtain ⟨hs, hcrc, rfl⟩ := feed_eq_some byte hf
  have hbody : body version p =
      covered version { p.frame with payloadLen := p.expectedLen.toNat } := by
    simp only [body, hs]
    rfl
  have hsum : putU16 (checksum version { p.frame with payloadLen := p.expectedLen.toNat }) =
      [p.crcLo, byte] := by
    rw [checksum, ← hbody, ← h.crc, hcrc, putU16_getU16]
  refine ⟨h.sized (Or.inr hs), ?_⟩
  rw [wireBytes, hsum, ← hbody]
  simp only [candidate, hs, List.cons_append, List.append_assoc, List.nil_append]

/-! Whole streams: bytes are fed and `reset` is called in any order. -/

inductive ParserEvent where
  | feed (byte : Byte) (hasOut : Bool)
  | reset

/-- A parser with the bytes fed since the last reset and the last delivered frame. -/
structure Tap where
  parser : FrameParser := {}
  window : List Byte := []

def Tap.step (t : Tap) : ParserEvent → Tap
  | .feed byte hasOut =>
      let r := t.parser.feed byte hasOut
      ⟨r.1, if r.2.isSome then [] else t.window ++ [byte]⟩
  | .reset => ⟨t.parser.reset, []⟩

def tap (events : List ParserEvent) : Tap := events.foldl Tap.step {}

/-- The frame an event delivers after the given events. -/
def delivers (events : List ParserEvent) : ParserEvent → Option Frame
  | .feed byte hasOut => ((tap events).parser.feed byte hasOut).2
  | .reset => none

def fedBytes (events : List ParserEvent) : List Byte :=
  events.flatMap fun
    | .feed byte _ => [byte]
    | .reset => []

theorem fedBytes_append (front back : List ParserEvent) :
    fedBytes (front ++ back) = fedBytes front ++ fedBytes back :=
  List.flatMap_append

theorem tap_concat (events : List ParserEvent) (e : ParserEvent) :
    tap (events ++ [e]) = (tap events).step e := by
  simp only [tap, List.foldl_append, List.foldl_cons, List.foldl_nil]

def Tap.Sound (t : Tap) : Prop :=
  ∃ version, Tracks version t.parser ∧ candidate version t.parser <:+ t.window

theorem Tap.step_sound (t : Tap) (e : ParserEvent) (h : t.Sound) : (t.step e).Sound := by
  obtain ⟨version, htracks, hsuffix⟩ := h
  cases e with
  | reset => exact ⟨kVersion, reset_tracks _, List.nil_suffix⟩
  | feed byte hasOut =>
    obtain ⟨version', htracks', hmoves⟩ := feed_tracks byte hasOut htracks
    refine ⟨version', htracks', ?_⟩
    cases hout : (t.parser.feed byte hasOut).2 with
    | none =>
      simp only [Tap.step, hout, Option.isSome_none, Bool.false_eq_true, if_false]
      exact hmoves.suffix.trans (List.suffix_append_self_iff.mpr hsuffix)
    | some f =>
      obtain ⟨hs, hcrc, _⟩ := feed_eq_some byte hout
      have hidle : (t.parser.feed byte hasOut).1.state = .sync0 := by
        rw [feed_crcHi byte hs, if_neg (not_not.mpr hcrc)]
        rfl
      have hnil : candidate version' (t.parser.feed byte hasOut).1 = [] := by
        simp only [candidate, hidle]
      simp only [Tap.step, hout, Option.isSome_some, if_true]
      rw [hnil]

/-- Run lemma: the candidate is always the newest part of the window. -/
theorem tap_sound (events : List ParserEvent) : (tap events).Sound := by
  induction events using List.reverseRecOn with
  | nil => exact ⟨kVersion, tracks_initial, List.nil_suffix⟩
  | append_singleton events e ih =>
    rw [tap_concat]
    exact (tap events).step_sound e ih

/-- After a reset or a delivery the window holds later bytes only. -/
theorem window_after (events later : List ParserEvent) (e : ParserEvent)
    (he : e = .reset ∨ (delivers events e).isSome) :
    (tap (events ++ e :: later)).window <:+ fedBytes later := by
  induction later using List.reverseRecOn with
  | nil =>
    have hempty : (tap (events ++ [e])).window = [] := by
      rw [tap_concat]
      cases e with
      | reset => rfl
      | feed byte hasOut =>
        have hsome : ((tap events).parser.feed byte hasOut).2.isSome := by
          simpa [delivers] using he
        simp only [Tap.step, hsome, if_true]
    rw [hempty]
    exact List.nil_suffix
  | append_singleton later e' ih =>
    rw [← List.cons_append, ← List.append_assoc, tap_concat, fedBytes_append]
    cases e' with
    | reset => exact List.nil_suffix
    | feed byte hasOut =>
      simp only [Tap.step]
      split
      · exact List.nil_suffix
      · exact List.suffix_append_self_iff.mpr ih

/-- Every delivered frame is the layout of the most recent bytes of the window, the
window of a delivery starts after the previous one, and no payload write leaves
the array. -/
theorem parser_sound (events : List ParserEvent) :
    ((tap events).parser.state = .payload → (tap events).parser.received < kMaxPayload) ∧
    (∀ byte hasOut f, delivers events (.feed byte hasOut) = some f →
      f.payloadLen ≤ kMaxPayload ∧
        ∃ version, VersionOk version ∧ wireBytes version f <:+ (tap events).window ++ [byte]) ∧
    ∀ earlier later e byte hasOut f, events = earlier ++ e :: later →
      e = .reset ∨ (delivers earlier e).isSome → delivers events (.feed byte hasOut) = some f →
      ∃ version, VersionOk version ∧ wireBytes version f <:+ fedBytes later ++ [byte] := by
  obtain ⟨version, htracks, hsuffix⟩ := tap_sound events
  have hdeliver : ∀ byte hasOut f, delivers events (.feed byte hasOut) = some f →
      f.payloadLen ≤ kMaxPayload ∧ wireBytes version f <:+ (tap events).window ++ [byte] := by
    intro byte hasOut f hf
    obtain ⟨hlen, hlayout⟩ := feed_delivers htracks hf
    refine ⟨hlen, ?_⟩
    rw [← hlayout]
    exact List.suffix_append_self_iff.mpr hsuffix
  refine ⟨?_, ?_, ?_⟩
  · intro hs
    obtain ⟨hroom, hmax⟩ := htracks.writing hs
    omega
  · intro byte hasOut f hf
    obtain ⟨hlen, hbytes⟩ := hdeliver byte hasOut f hf
    exact ⟨hlen, version, htracks.versionOk, hbytes⟩
  · intro earlier later e byte hasOut f hevents he hf
    obtain ⟨_, hbytes⟩ := hdeliver byte hasOut f hf
    have hwindow := window_after earlier later e he
    rw [← hevents] at hwindow
    exact ⟨version, htracks.versionOk,
      hbytes.trans (List.suffix_append_self_iff.mpr hwindow)⟩

/-- The captured startup PING, up to its last byte. -/
def pingEvents : List ParserEvent :=
  ([0xA5, 0x5A, 0x10, 0x01, 0x01, 0x01, 0x00, 0x00, 0x41] : List Byte).map (.feed · true)

theorem parser_sound_ping :
    ∃ f, delivers pingEvents (.feed 0xFF true) = some f ∧ f.payloadLen ≤ kMaxPayload ∧
      ∃ version, VersionOk version ∧
        wireBytes version f <:+ (tap pingEvents).window ++ [0xFF] := by
  obtain ⟨f, hf⟩ := Option.isSome_iff_exists.mp
    (show (delivers pingEvents (.feed 0xFF true)).isSome by decide +kernel)
  exact ⟨f, hf, (parser_sound pingEvents).2.1 0xFF true f hf⟩

end Culina.ParserSoundness
