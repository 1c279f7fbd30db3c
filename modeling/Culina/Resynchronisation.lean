import Culina.ParserSoundness
import Culina.Writer

/-!
Resynchronisation. The parser remembers one byte of an abandoned candidate, so a frame
that follows a truncated one gets through exactly when its first sync byte starts a
candidate of its own: when the byte due at that place is checked on the spot, and not
taken as a field.
-/
namespace Culina.Resynchronisation

open Wire Crc Layout Framing FrameParser ParserSoundness Writer

/-- The number of bytes of the candidate. -/
def size (p : FrameParser) : ℕ := (candidate kVersion p).length

theorem size_eq (version : Byte) (p : FrameParser) : (candidate version p).length = size p := by
  unfold size candidate body
  cases p.state <;> simp [fields]

theorem state_of_size_one {p : FrameParser} (h : size p = 1) : p.state = .sync1 := by
  unfold size candidate at h
  cases hs : p.state <;> simp [hs] at h ⊢

/-- One byte makes the candidate longer by one, or at most one byte long. -/
theorem size_feed {version : Byte} {p : FrameParser} (h : Tracks version p) (byte : Byte) :
    size (p.feed byte true).1 = size p + 1 ∨ size (p.feed byte true).1 ≤ 1 := by
  obtain ⟨version', -, hmoves⟩ := feed_tracks byte true h
  rcases hmoves with hlonger | ⟨hfresh, -⟩ | hdropped
  · left
    rw [← size_eq version' (p.feed byte true).1, hlonger, List.length_append, size_eq]
    rfl
  · right
    rw [← size_eq version' (p.feed byte true).1, hfresh]
    exact le_rfl
  · right
    rw [← size_eq version' (p.feed byte true).1, hdropped]
    exact Nat.zero_le _

/-- A parser in every state it can reach reads as some candidate. -/
def Tracked (p : FrameParser) : Prop := ∃ version, Tracks version p

theorem tracked_initial : Tracked {} := ⟨kVersion, tracks_initial⟩

theorem Tracked.feed {p : FrameParser} (h : Tracked p) (byte : Byte) : Tracked (p.feed byte true).1 := by
  obtain ⟨version, htracks⟩ := h
  obtain ⟨version', htracks', -⟩ := feed_tracks byte true htracks
  exact ⟨version', htracks'⟩

theorem Tracked.feedAll {p : FrameParser} (h : Tracked p) (bytes : List Byte) :
    Tracked (p.feedAll bytes).1 := by
  induction bytes generalizing p with
  | nil => exact h
  | cons byte rest ih => exact ih (h.feed byte)

/-- Over many bytes the candidate grows with them, or is no longer than the bytes after the first. -/
theorem size_feedAll {p : FrameParser} (h : Tracked p) (bytes : List Byte) :
    size (p.feedAll bytes).1 = size p + bytes.length ∨ size (p.feedAll bytes).1 ≤ bytes.length := by
  induction bytes generalizing p with
  | nil => exact Or.inl rfl
  | cons byte rest ih =>
    obtain ⟨version, htracks⟩ := h
    have hstep := size_feed htracks byte
    have hrest := ih (p := (p.feed byte true).1) ((Tracked.feed ⟨version, htracks⟩) byte)
    change size (((p.feed byte true).1).feedAll rest).1 = _ ∨
      size (((p.feed byte true).1).feedAll rest).1 ≤ _
    rw [List.length_cons]
    omega

/-! A whole frame. -/

/-- The last of the bytes delivers the frame. -/
def Delivers (p : FrameParser) (bytes : List Byte) (f : Frame) : Prop :=
  ∃ g, content g = content f ∧ (p.feedAll bytes).2.getLast? = some (some g)

/-- A frame is delivered only by a candidate as long as its layout. -/
theorem size_of_delivers {p : FrameParser} (h : Tracked p) {f : Frame} {front : List Byte} {last : Byte}
    (hdelivers : Delivers p (front ++ [last]) f) :
    size (p.feedAll front).1 = 9 + f.payloadLen := by
  obtain ⟨g, hcontent, hlast⟩ := hdelivers
  have hfed : ((p.feedAll front).1.feed last true).2 = some g := by
    rw [feedAll_append, List.getLast?_append] at hlast
    simpa [feedAll] using hlast
  obtain ⟨version, htracks⟩ := h.feedAll front
  obtain ⟨hlen, hlayout⟩ := feed_delivers htracks hfed
  have hlength := congrArg List.length hlayout
  rw [List.length_append, size_eq, wireBytes_length version g hlen, List.length_singleton] at hlength
  have hsame : g.payloadLen = f.payloadLen := by
    simp only [content, Prod.mk.injEq] at hcontent
    exact hcontent.2.2.2.1
  omega

theorem wireBytes_cons (f : Frame) :
    ∃ rest last, wireBytes kVersion f = (kSync0 :: rest) ++ [last] ∧
      (f.payloadLen ≤ kMaxPayload → rest.length = 8 + f.payloadLen) := by
  have hne : kSync1 :: (covered kVersion f ++ putU16 (checksum kVersion f)) ≠ [] := by simp
  refine ⟨(kSync1 :: (covered kVersion f ++ putU16 (checksum kVersion f))).dropLast,
    (kSync1 :: (covered kVersion f ++ putU16 (checksum kVersion f))).getLast hne, ?_, ?_⟩
  · rw [List.cons_append, List.dropLast_append_getLast hne]
    rfl
  · intro hlen
    have hlength := wireBytes_length kVersion f hlen
    rw [wireBytes, List.length_cons] at hlength
    rw [List.length_dropLast]
    omega

/-- A frame gets through exactly when its first sync byte starts a candidate. -/
theorem delivers_iff {p : FrameParser} (h : Tracked p) {f : Frame} (hlen : f.payloadLen ≤ kMaxPayload) :
    Delivers p (wireBytes kVersion f) f ↔ (p.feed kSync0 true).1.state = .sync1 := by
  obtain ⟨rest, last, hbytes, hrest⟩ := wireBytes_cons f
  have hrest := hrest hlen
  constructor
  · intro hdelivers
    rw [hbytes] at hdelivers
    have hsize := size_of_delivers h hdelivers
    have hgrown := size_feedAll (h.feed kSync0) rest
    have hsame : (p.feedAll (kSync0 :: rest)).1 = ((p.feed kSync0 true).1.feedAll rest).1 := rfl
    rw [hsame] at hsize
    exact state_of_size_one (by omega)
  · intro hstate
    obtain ⟨version, htracks⟩ := h.feed kSync0
    have hcrc : (p.feed kSync0 true).1.runningCrc = kCrcSeed := by
      simpa [body, hstate] using htracks.crc
    -- an idle parser gets to the same state
    let idle : FrameParser := { (p.feed kSync0 true).1 with state := .sync0 }
    have hidle : Idle idle := ⟨rfl, hcrc⟩
    have hstart : idle.feed kSync0 true = ((p.feed kSync0 true).1, none) := by
      rw [feed_sync0 kSync0 rfl, if_pos rfl]
      refine congrArg (·, none) ?_
      rw [← hstate]
    obtain ⟨g, hcontent, -, hout⟩ := frame_fed kVersion f idle hidle kVersion_ok hlen
    refine ⟨g, hcontent, ?_⟩
    have hlast := congrArg List.getLast? hout
    rw [List.getLast?_concat, hbytes] at hlast
    rw [hbytes]
    simp only [List.cons_append, feedAll, hstart] at hlast ⊢
    have hsome : ((p.feed kSync0 true).1.feedAll (rest ++ [last])).2 ≠ [] := by
      rw [feedAll_append]
      simp [feedAll]
    rw [List.getLast?_cons_of_ne_nil hsome] at hlast ⊢
    exact hlast

/-- The byte due is checked at once, so a sync byte in its place is seen for what it is. -/
def Receptive (p : FrameParser) : Prop :=
  p.state = .sync0 ∨ p.state = .sync1 ∨ p.state = .version ∨ p.state = .type ∨ p.state = .lenHi ∨
    (p.state = .crcHi ∧ p.runningCrc ≠ getU16 p.crcLo kSync0)

theorem oversized_sync0 (expectedLen : BitVec 16) :
    (expectedLen ||| (kSync0.setWidth 16 <<< 8)).toNat > kMaxPayload := by
  rw [BitVec.toNat_or]
  have hle : (kSync0.setWidth 16 <<< 8 : BitVec 16).toNat ≤
      expectedLen.toNat ||| (kSync0.setWidth 16 <<< 8 : BitVec 16).toNat := Nat.right_le_or
  have hbig : (kSync0.setWidth 16 <<< 8 : BitVec 16).toNat = 42240 := by decide
  simp only [kMaxPayload]
  omega

theorem restarts_iff (p : FrameParser) : (p.feed kSync0 true).1.state = .sync1 ↔ Receptive p := by
  unfold Receptive
  cases hs : p.state with
  | sync0 => simp [feed_sync0 kSync0 hs]
  | sync1 =>
    have hother : ¬ kSync0 = kSync1 := by decide
    simp [feed_sync1 kSync0 hs, hother]
  | version =>
    have hversion : kSync0 &&& 0xF0 ≠ kVersion &&& 0xF0 := by decide
    rw [feed_version kSync0 hs, if_pos hversion]
    simp [resync_state]
  | type =>
    have htype : kSync0 < 0x01 ∨ kSync0 > 0x04 := by decide
    rw [feed_type kSync0 hs, if_pos htype]
    simp [resync_state]
  | seq => simp [feed_seq kSync0 hs]
  | msgId => simp [feed_msgId kSync0 hs]
  | lenLo => simp [feed_lenLo kSync0 hs]
  | lenHi =>
    rw [feed_lenHi kSync0 hs, if_pos (oversized_sync0 p.expectedLen)]
    simp [resync_state]
  | payload =>
    rw [feed_payload kSync0 hs]
    by_cases hlast : p.received + 1 = p.expectedLen.toNat
    · simp [hlast]
    · simp [hlast]
  | crcLo => simp [feed_crcLo kSync0 hs]
  | crcHi =>
    rw [feed_crcHi kSync0 hs]
    by_cases hmismatch : p.runningCrc ≠ getU16 p.crcLo kSync0
    · rw [if_pos hmismatch]
      simp [resync_state, hmismatch]
    · rw [if_neg hmismatch]
      simp [FrameParser.reset, hmismatch]

/-! Candidates abandoned inside the frame that follows them. -/

/-- The parser once it has seen the bytes. -/
def heard (bytes : List Byte) : FrameParser := (feedAll {} bytes).1

theorem heard_tracked (bytes : List Byte) : Tracked (heard bytes) := tracked_initial.feedAll bytes

/-- The byte fails the version, the type or the length check. -/
def Rejects (p : FrameParser) (byte : Byte) : Prop :=
  (p.state = .version ∧ byte &&& 0xF0 ≠ kVersion &&& 0xF0) ∨
    (p.state = .type ∧ (byte < 0x01 ∨ byte > 0x04)) ∨
    (p.state = .lenHi ∧ (p.expectedLen ||| (byte.setWidth 16 <<< 8)).toNat > kMaxPayload)

/-- The candidate that began in the noise takes in the front of the message and then fails a check of
the header. -/
def Abandoned (noise : List Byte) (m : Message) : Prop :=
  0 < size (heard noise) ∧ ∃ front byte back, m.written = front ++ byte :: back ∧
    size (heard (noise ++ front)) = size (heard noise) + front.length ∧
    Rejects (heard (noise ++ front)) byte

theorem heard_append (noise bytes : List Byte) :
    heard (noise ++ bytes) = ((heard noise).feedAll bytes).1 := by
  rw [heard, feedAll_append]
  rfl

theorem written_eq (m : Message) : m.written = wireBytes kVersion m.frame :=
  writeFrame_eq m.outCap m.type m.seq m.msgId m.payload m.payload_le m.fits

/-- A candidate that a sync byte replaces does not live on. -/
theorem size_restarted {p : FrameParser} (h : Tracked p) (hsize : 0 < size p)
    (hrestarts : (p.feed kSync0 true).1.state = .sync1) (rest : List Byte) :
    size (p.feedAll (kSync0 :: rest)).1 ≠ size p + (kSync0 :: rest).length := by
  have hone : size (p.feed kSync0 true).1 = 1 := by simp [size, candidate, hrestarts]
  have hgrown := size_feedAll (h.feed kSync0) rest
  change size ((p.feed kSync0 true).1.feedAll rest).1 ≠ _
  rw [List.length_cons]
  omega

/-- The next frame survives exactly when its first byte is the one that is checked. -/
theorem resync_keeps_iff (noise : List Byte) (m : Message) (habandoned : Abandoned noise m) :
    Delivers (heard noise) m.written m.frame ↔
      (heard noise).state = .version ∨ (heard noise).state = .type ∨ (heard noise).state = .lenHi := by
  have htracked := heard_tracked noise
  rw [written_eq, delivers_iff htracked m.payload_le]
  constructor
  · intro hrestarts
    obtain ⟨hsize, front, byte, back, hwritten, hgrown, hrejects⟩ := habandoned
    rw [heard_append] at hgrown hrejects
    cases front with
    | nil =>
      rcases hrejects with ⟨hstate, -⟩ | ⟨hstate, -⟩ | ⟨hstate, -⟩
      · exact Or.inl hstate
      · exact Or.inr (Or.inl hstate)
      · exact Or.inr (Or.inr hstate)
    | cons first front =>
      rw [written_eq, wireBytes, List.cons_append, List.cons.injEq] at hwritten
      rw [← hwritten.1] at hgrown
      exact absurd hgrown (size_restarted htracked hsize hrestarts front)
  · intro hstate
    rw [restarts_iff]
    rcases hstate with hstate | hstate | hstate
    · exact Or.inr (Or.inr (Or.inl hstate))
    · exact Or.inr (Or.inr (Or.inr (Or.inl hstate)))
    · exact Or.inr (Or.inr (Or.inr (Or.inr (Or.inl hstate))))

/-- A stray sync pair. -/
theorem resync_keeps_iff_pair :
    Delivers (heard [kSync0, kSync1]) ping.written ping.frame ↔
      (heard [kSync0, kSync1]).state = .version ∨ (heard [kSync0, kSync1]).state = .type ∨
        (heard [kSync0, kSync1]).state = .lenHi :=
  resync_keeps_iff [kSync0, kSync1] ping ⟨by decide +kernel, [], kSync0, ping.written.drop 1,
    by decide +kernel, rfl, Or.inl ⟨by decide +kernel, by decide⟩⟩

/-- A header cut behind its type takes the sync pair of the next frame for its tag. -/
theorem resync_loses :
    Abandoned [kSync0, kSync1, kVersion, 0x01] ping ∧
      ¬ Delivers (heard [kSync0, kSync1, kVersion, 0x01]) ping.written ping.frame := by
  refine ⟨⟨by decide +kernel, ping.written.take 3, 0x01, ping.written.drop 4, by decide +kernel,
    by decide +kernel, Or.inr (Or.inr ⟨by decide +kernel, by decide +kernel⟩)⟩, ?_⟩
  rw [written_eq, delivers_iff (heard_tracked _) ping.payload_le]
  decide +kernel

end Culina.Resynchronisation
