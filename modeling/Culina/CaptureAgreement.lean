import Culina.CaptureDump
import Culina.ParserSoundness
import Culina.Writer

/-!
The capture tool against the frame parser. When the tool finds nothing malformed, the bytes are
frames with noise in front of each, and the parser waits for a sync pair wherever the tool looks for
one. It delivers what the tool prints, at the same place, as long as it accepts the versions and
types that the tool does not look at.
-/
namespace Culina.CaptureAgreement

open Wire Crc Layout Framing FrameParser ParserSoundness Writer CaptureDump
open CStrings (Char8 codes)

/-! What the two decoders show of a frame. -/

def shown (f : Frame) : Byte × Byte × Byte × List Byte := (f.type.toByte, f.seq, f.msgId, f.bytes)

/-- The frames delivered, each with the index behind the byte that delivered it. -/
def delivered (start : ℕ) (outs : List (Option Frame)) : List (ℕ × Byte × Byte × Byte × List Byte) :=
  (outs.zipIdx (start + 1)).filterMap fun (out, stop) => out.map fun f => (stop, shown f)

theorem delivered_append (start : ℕ) (front back : List (Option Frame)) :
    delivered start (front ++ back) = delivered start front ++ delivered (start + front.length) back := by
  rw [delivered, List.zipIdx_append, List.filterMap_append]
  congr 2
  rw [Nat.add_right_comm]

theorem delivered_cons (start : ℕ) (out : Option Frame) (outs : List (Option Frame)) :
    delivered start (out :: outs) = delivered start [out] ++ delivered (start + 1) outs :=
  delivered_append start [out] outs

theorem delivered_none (start count : ℕ) : delivered start (List.replicate count none) = [] := by
  induction count generalizing start with
  | zero => rfl
  | succ count ih => exact ih (start + 1)

theorem delivered_last (start count : ℕ) (f : Frame) :
    delivered start (List.replicate count none ++ [some f]) = [(start + count + 1, shown f)] := by
  rw [delivered_append, delivered_none, List.length_replicate]
  rfl

theorem delivered_shown (start : ℕ) (outs : List (Option Frame)) :
    (delivered start outs).map Prod.snd = outs.reduceOption.map shown := by
  induction outs generalizing start with
  | nil => rfl
  | cons out outs ih =>
    rw [delivered_cons, List.map_append, ih]
    cases out with
    | none => rfl
    | some f => rfl

theorem feedAll_length (p : FrameParser) (bytes : List Byte) :
    (p.feedAll bytes).2.length = bytes.length := by
  induction bytes generalizing p with
  | nil => rfl
  | cons byte rest ih => exact congrArg (· + 1) (ih _)

theorem shown_of_content {f g : Frame} (h : content g = content f) : shown g = shown f := by
  simp only [content, Prod.mk.injEq] at h
  obtain ⟨htype, hseq, hmsg, -, hbytes⟩ := h
  rw [shown, htype, hseq, hmsg, hbytes]
  rfl

/-! A parser that waits for a sync pair. -/

/-- The parser holds no candidate, or only the first sync byte of one that does not go on. -/
def Waiting (p : FrameParser) (rest : List Byte) : Prop :=
  Idle p ∨ (p.state = .sync1 ∧ p.runningCrc = kCrcSeed ∧ rest.head? ≠ some kSync1)

theorem waiting_of_state {p : FrameParser} {byte : Byte} {rest : List Byte}
    (hstate : p.state = if byte = kSync0 then .sync1 else .sync0) (hcrc : p.runningCrc = kCrcSeed)
    (hpair : ¬ (byte = kSync0 ∧ rest.head? = some kSync1)) : Waiting p rest := by
  by_cases hbyte : byte = kSync0
  · rw [if_pos hbyte] at hstate
    exact Or.inr ⟨hstate, hcrc, fun hhead => hpair ⟨hbyte, hhead⟩⟩
  · rw [if_neg hbyte] at hstate
    exact Or.inl ⟨hstate, hcrc⟩

/-- A byte that starts no sync pair is skipped. -/
theorem Waiting.skip {p : FrameParser} {byte : Byte} {rest : List Byte}
    (h : Waiting p (byte :: rest)) (hpair : ¬ (byte = kSync0 ∧ rest.head? = some kSync1)) :
    (p.feed byte true).2 = none ∧ Waiting (p.feed byte true).1 rest := by
  rcases h with ⟨hs, hcrc⟩ | ⟨hs, hcrc, hnext⟩
  · rw [feed_sync0 byte hs]
    refine ⟨rfl, waiting_of_state ?_ ?_ hpair⟩
    · split
      · rfl
      · exact hs
    · split
      · exact hcrc
      · exact hcrc
  · have hsecond : byte ≠ kSync1 := fun hbyte => hnext (by rw [hbyte]; rfl)
    rw [feed_sync1 byte hs, if_neg hsecond]
    exact ⟨rfl, waiting_of_state rfl hcrc hpair⟩

/-- A whole frame is delivered as by an idle parser. -/
theorem Waiting.frame {p : FrameParser} {rest : List Byte} (h : Waiting p rest) (version : Byte)
    (f : Frame) (hv : VersionOk version) (hlen : f.payloadLen ≤ kMaxPayload) :
    Idle (p.feedAll (wireBytes version f)).1 ∧ ∃ g, content g = content f ∧
      (p.feedAll (wireBytes version f)).2 = List.replicate (9 + f.payloadLen) none ++ [some g] := by
  rcases h with hidle | ⟨hs, hcrc, -⟩
  · obtain ⟨g, hcontent, hend, hout⟩ := frame_fed version f p hidle hv hlen
    exact ⟨hend, g, hcontent, hout⟩
  · -- the first sync byte replaces the one that is held
    have hsame : p.feed kSync0 true = FrameParser.feed { p with state := .sync0 } kSync0 true := by
      have hother : ¬ kSync0 = kSync1 := by decide
      rw [feed_sync1 kSync0 hs, feed_sync0 kSync0 rfl, if_pos rfl, if_neg hother, if_pos rfl]
    have hfeed : p.feedAll (wireBytes version f) =
        FrameParser.feedAll { p with state := .sync0 } (wireBytes version f) := by
      rw [wireBytes]
      simp only [feedAll, hsame]
    obtain ⟨g, hcontent, hend, hout⟩ :=
      frame_fed version f { p with state := .sync0 } ⟨rfl, hcrc⟩ hv hlen
    rw [hfeed]
    exact ⟨hend, g, hcontent, hout⟩

/-! What the tool prints without looking at it. -/

/-- The version byte has the major version of the protocol and the type is printed by its name. -/
def Supported (bytes : List Byte) (line : Printed) : Prop :=
  VersionOk (bytes.getD (line.offset + 2) 0) ∧ typeName line.type ≠ "???"

instance (bytes : List Byte) (line : Printed) : Decidable (Supported bytes line) :=
  inferInstanceAs (Decidable (_ ∧ _))

theorem typeName_named (type : Byte) : typeName type ≠ "???" ↔ ¬ (type < 0x01 ∨ type > 0x04) := by
  have hrange : ¬ (type < 0x01 ∨ type > 0x04) ↔
      type = 0x01 ∨ type = 0x02 ∨ type = 0x03 ∨ type = 0x04 := by
    bv_omega
  rw [hrange]
  constructor
  · intro h
    by_contra hother
    simp only [not_or] at hother
    obtain ⟨h1, h2, h3, h4⟩ := hother
    rw [typeName, if_neg h1, if_neg h2, if_neg h3, if_neg h4] at h
    exact h rfl
  · rintro (rfl | rfl | rfl | rfl) <;> decide

/-- The frame that a printed line describes. -/
def frameOf (line : Printed) : Frame :=
  Frame.ofBytes (FrameType.ofByte line.type) line.seq line.msg line.payload

section Described

variable {line : Printed} (htype : typeName line.type ≠ "???") (hlen : line.payload.length ≤ kMaxPayload)

include htype in
theorem frameOf_type : (frameOf line).type.toByte = line.type := by
  obtain ⟨hlow, hhigh⟩ := not_or.mp ((typeName_named line.type).mp htype)
  exact FrameType.toByte_ofByte line.type hlow hhigh

include hlen in
theorem frameOf_bytes : (frameOf line).bytes = line.payload := Frame.bytes_ofBytes _ _ _ _ hlen

include htype hlen

theorem covered_frameOf (version : Byte) : covered version (frameOf line) = line.covered version := by
  rw [covered, fields, frameOf_type htype, frameOf_bytes hlen]
  rfl

theorem shown_frameOf : shown (frameOf line) = line.shown := by
  rw [shown, frameOf_type htype, frameOf_bytes hlen]
  rfl

/-- With a right checksum the line was read from the layout of its frame. -/
theorem image_eq_wireBytes {version : Byte}
    (hcomputed : line.computed = crc16Ccitt (line.covered version) kCrcSeed)
    (hcrc : line.wireCrc = line.computed) : line.image version = wireBytes version (frameOf line) := by
  rw [Printed.image, wireBytes, checksum, covered_frameOf htype hlen, hcrc, hcomputed]

end Described

/-! The parser beside the tool. -/

/-- The parser is fed what the tool has passed. -/
structure Agrees (bytes : List Byte) (scan : Scan) : Prop where
  inside : scan.i ≤ bytes.length
  same : delivered 0 (FrameParser.feedAll {} (bytes.take scan.i)).2 =
    scan.printed.map fun line => (line.stop, line.shown)
  waiting : Waiting (FrameParser.feedAll {} (bytes.take scan.i)).1 (bytes.drop scan.i)

theorem agrees_initial (bytes : List Byte) : Agrees bytes {} :=
  ⟨Nat.zero_le _, rfl, Or.inl idle_initial⟩

/-- Feeding goes on with the bytes at the index. -/
theorem Agrees.feed {bytes segment back : List Byte} {scan : Scan} (h : Agrees bytes scan)
    (hdrop : bytes.drop scan.i = segment ++ back) :
    let p := (FrameParser.feedAll {} (bytes.take scan.i)).1
    let fed := FrameParser.feedAll {} (bytes.take (scan.i + segment.length))
    scan.i + segment.length ≤ bytes.length ∧ bytes.drop (scan.i + segment.length) = back ∧
      fed.1 = (p.feedAll segment).1 ∧ delivered 0 fed.2 =
        (scan.printed.map fun line => (line.stop, line.shown)) ++
          delivered scan.i (p.feedAll segment).2 := by
  intro p fed
  have htake : bytes.take (scan.i + segment.length) = bytes.take scan.i ++ segment := by
    rw [List.take_add, hdrop, List.take_left]
  have hfed : fed = ((p.feedAll segment).1,
      (FrameParser.feedAll {} (bytes.take scan.i)).2 ++ (p.feedAll segment).2) := by
    change FrameParser.feedAll {} (bytes.take (scan.i + segment.length)) = _
    rw [htake, feedAll_append]
  have hlength : bytes.length - scan.i = segment.length + back.length := by
    rw [← List.length_drop, hdrop, List.length_append]
  have hinside := h.inside
  refine ⟨by omega, ?_, by rw [hfed], ?_⟩
  · rw [← List.drop_drop, hdrop, List.drop_left]
  · rw [hfed, delivered_append, h.same, feedAll_length, List.length_take_of_le hinside, Nat.zero_add]

/-- Neither of them takes a byte that starts no sync pair. -/
theorem Agrees.skip {bytes rest : List Byte} {byte : Byte} {scan : Scan} (h : Agrees bytes scan)
    (hdrop : bytes.drop scan.i = byte :: rest) (hpair : ¬ (byte = kSync0 ∧ rest.head? = some kSync1)) :
    Agrees bytes { scan with i := scan.i + 1 } := by
  have hsegment : bytes.drop scan.i = [byte] ++ rest := hdrop
  obtain ⟨hinside, hback, hfed, hdelivered⟩ := h.feed hsegment
  have hwaits := h.waiting
  rw [hdrop] at hwaits
  obtain ⟨hnone, hwaiting⟩ := hwaits.skip hpair
  refine ⟨hinside, hdelivered.trans ?_, ?_⟩
  · rw [feedAll, hnone]
    exact List.append_nil _
  · change Waiting (FrameParser.feedAll {} (bytes.take (scan.i + [byte].length))).1
      (bytes.drop (scan.i + [byte].length))
    rw [hfed, hback]
    exact hwaiting

/-- Both of them take a supported frame with a right checksum. -/
theorem Agrees.print {bytes back : List Byte} {version : Byte} {line : Printed} {scan scan' : Scan}
    (h : Agrees bytes scan) (hdrop : bytes.drop scan.i = line.image version ++ back)
    (hoffset : line.offset = scan.i) (hlen : line.payload.length ≤ kMaxPayload)
    (hcomputed : line.computed = crc16Ccitt (line.covered version) kCrcSeed)
    (hcrc : line.wireCrc = line.computed) (hsupported : Supported bytes line)
    (hi : scan'.i = line.stop) (hprinted : scan'.printed = scan.printed ++ [line]) :
    Agrees bytes scan' := by
  obtain ⟨hversion, htype⟩ := hsupported
  have hbyte : bytes.getD (line.offset + 2) 0 = version := by
    rw [List.getD_eq_getElem?_getD, hoffset, ← List.getElem?_drop, hdrop]
    rfl
  rw [hbyte] at hversion
  have hstop : scan.i + (line.image version).length = line.stop := by
    rw [line.image_length, ← hoffset]
    rfl
  have hlast : scan.i + (9 + (frameOf line).payloadLen) + 1 = line.stop := by
    change scan.i + (9 + line.payload.length) + 1 = line.offset + (8 + line.payload.length + 2)
    omega
  obtain ⟨hinside, -, hfed, hdelivered⟩ := h.feed hdrop
  obtain ⟨hidle, g, hcontent, hout⟩ := h.waiting.frame version (frameOf line) hversion hlen
  rw [hstop] at hinside hfed hdelivered
  rw [image_eq_wireBytes htype hlen hcomputed hcrc] at hfed hdelivered
  rw [← hfed] at hidle
  rw [hout, delivered_last, hlast, shown_of_content hcontent, shown_frameOf htype hlen] at hdelivered
  refine ⟨?_, ?_, ?_⟩
  · rw [hi]
    exact hinside
  · rw [hi, hprinted, List.map_append]
    exact hdelivered
  · rw [hi]
    exact Or.inl hidle

/-- Step lemma: a turn that finds nothing malformed and prints a supported frame keeps them in step. -/
theorem Agrees.step {bytes : List Byte} {scan : Scan} (hin : scan.i + kHeaderSize ≤ bytes.length)
    (h : Agrees bytes scan) (hgood : (scan.step bytes).malformed = false)
    (hsupported : ∀ line ∈ (scan.step bytes).printed, Supported bytes line) :
    Agrees bytes (scan.step bytes) := by
  rcases scan.step_cases bytes hin with ⟨byte, rest, hdrop, hpair, hstep⟩ | hstep |
    ⟨version, line, back, hdrop, hoffset, hlen, hcomputed, hstep⟩
  · rw [hstep]
    exact h.skip hdrop hpair
  · rw [hstep] at hgood
    cases hgood
  · rw [hstep] at hgood hsupported ⊢
    have hcrc : line.wireCrc = line.computed := by
      by_contra hbad
      rw [if_pos hbad] at hgood
      cases hgood
    have hline := hsupported line (List.mem_append_right _ (List.mem_singleton_self line))
    exact h.print hdrop hoffset hlen hcomputed hcrc hline rfl rfl

/-- Run lemma: when nothing is malformed and all frames are supported, they end in step. -/
theorem agrees_loop (bytes : List Byte) (hgood : (Scan.loop bytes {}).malformed = false)
    (hsupported : ∀ line ∈ (Scan.loop bytes {}).printed, Supported bytes line) :
    Agrees bytes (Scan.loop bytes {}) := by
  refine Scan.loop_invariant (P := fun scan => scan.malformed = false →
    (∀ line ∈ scan.printed, Supported bytes line) → Agrees bytes scan) ?_ {} ?_ hgood hsupported
  · intro scan hin ih hstep hlines
    obtain ⟨hmalformed, hprinted⟩ := scan.step_keeps bytes hin
    exact (ih (hmalformed hstep) fun line hline => hlines line (hprinted hline)).step hin hstep hlines
  · exact fun _ _ => agrees_initial bytes

/-! What is delivered is supported. -/

theorem mem_delivered {start stop : ℕ} {said : Byte × Byte × Byte × List Byte} {p : FrameParser}
    {bytes : List Byte} (h : (stop, said) ∈ delivered start (p.feedAll bytes).2) :
    ∃ front byte back f, bytes = front ++ byte :: back ∧ stop = start + front.length + 1 ∧
      ((p.feedAll front).1.feed byte true).2 = some f ∧ said = shown f := by
  induction bytes generalizing start p with
  | nil => exact absurd h List.not_mem_nil
  | cons byte rest ih =>
    rw [feedAll, delivered_cons, List.mem_append] at h
    rcases h with h | h
    · cases hf : (p.feed byte true).2 with
      | none =>
        rw [hf] at h
        exact absurd h List.not_mem_nil
      | some f =>
        rw [hf] at h
        obtain ⟨hstop, hsaid⟩ := Prod.mk.inj (List.mem_singleton.mp h)
        exact ⟨[], byte, rest, f, rfl, hstop, hf, hsaid⟩
    · obtain ⟨front, last, back, f, hrest, hstop, hf, hsaid⟩ := ih h
      refine ⟨byte :: front, last, back, f, by rw [hrest]; rfl, ?_, hf, hsaid⟩
      rw [hstop, List.length_cons]
      omega

/-- The candidate is the newest part of what was fed. -/
theorem candidate_fed (bytes : List Byte) :
    ∃ version, Tracks version (FrameParser.feedAll {} bytes).1 ∧
      candidate version (FrameParser.feedAll {} bytes).1 <:+ bytes := by
  induction bytes using List.reverseRecOn with
  | nil => exact ⟨kVersion, tracks_initial, List.nil_suffix⟩
  | append_singleton front byte ih =>
    obtain ⟨version, htracks, hsuffix⟩ := ih
    obtain ⟨version', htracks', hmoves⟩ := feed_tracks byte true htracks
    rw [feedAll_append]
    exact ⟨version', htracks', hmoves.suffix.trans (List.suffix_append_self_iff.mpr hsuffix)⟩

/-- A line that is delivered at its place is supported there. -/
theorem supported_of_delivered {bytes : List Byte} {line : Printed}
    (h : (line.stop, line.shown) ∈ delivered 0 (FrameParser.feedAll {} bytes).2) :
    Supported bytes line := by
  obtain ⟨front, byte, back, f, hbytes, hstop, hf, hshown⟩ := mem_delivered h
  obtain ⟨version, htracks, fed, hfed⟩ := candidate_fed front
  obtain ⟨hlen, hwire⟩ := feed_delivers htracks hf
  simp only [Printed.shown, shown, Prod.mk.injEq] at hshown
  obtain ⟨htype, -, -, hpayload⟩ := hshown
  have hlength : line.payload.length = f.payloadLen := by
    rw [hpayload, bytes_length f hlen]
  -- the delivered frame starts at the offset of the line
  have hat : bytes = fed ++ (wireBytes version f ++ back) := by
    calc bytes = front ++ byte :: back := hbytes
      _ = fed ++ candidate version (FrameParser.feedAll {} front).1 ++ byte :: back := by rw [hfed]
      _ = fed ++ (wireBytes version f ++ back) := by
        rw [← hwire]
        simp only [List.append_assoc, List.cons_append, List.nil_append]
  have hoffset : line.offset = fed.length := by
    have hsize := congrArg List.length hwire
    have hfront := congrArg List.length hfed
    rw [List.length_append, List.length_singleton, wireBytes_length version f hlen] at hsize
    rw [List.length_append] at hfront
    rw [Printed.stop, hlength] at hstop
    unfold kHeaderSize kCrcSize at hstop
    omega
  constructor
  · have hversion : bytes.getD (line.offset + 2) 0 = version := by
      rw [hat, hoffset, List.getD_eq_getElem?_getD, List.getElem?_append_right (Nat.le_add_right _ _),
        Nat.add_sub_cancel_left]
      rfl
    rw [hversion]
    exact htracks.versionOk
  · rw [typeName_named, htype]
    exact fun hrange => hrange.elim f.type.toByte_range.1 f.type.toByte_range.2

/-! The agreement at status 0. -/

/-- A run with status 0 prints what the parser delivers, at the same places, exactly when all the
printed frames are supported. -/
theorem capture_agreement (program path : String) (files : String → Option (List Char8))
    (h : (main [program, path] files).status = 0) :
    let bytes := readCapture (files path)
    let printed := (decode bytes).printed
    let outs := (FrameParser.feedAll {} bytes).2
    (main [program, path] files).stdout =
        String.join (printed.map Printed.text) ++ toString printed.length ++ " frame(s)\n" ∧
      ((∀ line ∈ printed, Supported bytes line) →
        outs.reduceOption.map shown = printed.map Printed.shown) ∧
      ((∀ line ∈ printed, Supported bytes line) ↔
        delivered 0 outs = printed.map fun line => (line.stop, line.shown)) := by
  intro bytes printed outs
  obtain ⟨hstdout, hloop, hgood, hread⟩ := status_zero h
  have hplaces (hsupported : ∀ line ∈ printed, Supported bytes line) :
      delivered 0 outs = printed.map fun line => (line.stop, line.shown) := by
    have hagrees : Agrees bytes (decode bytes) := by
      have hprinted : printed = (Scan.loop bytes {}).printed := congrArg Scan.printed hloop
      rw [hprinted] at hsupported
      rw [hloop] at hgood ⊢
      exact agrees_loop bytes hgood hsupported
    have hsame := hagrees.same
    rwa [List.take_of_length_le hread] at hsame
  refine ⟨hstdout, fun hsupported => ?_, hplaces, fun hsame line hline => ?_⟩
  · rw [← delivered_shown 0, hplaces hsupported, List.map_map]
    rfl
  · apply supported_of_delivered
    change (line.stop, line.shown) ∈ delivered 0 outs
    rw [hsame]
    exact List.mem_map_of_mem hline

/-- A ping behind noise that ends with a first sync byte. -/
def noisyPing : List Char8 := codes "ff a5 a5 5a 10 01 07 01 00 00 d8 d8 # ping".toList

theorem capture_agreement_ping :
    (FrameParser.feedAll {} (readCapture (some noisyPing))).2.reduceOption.map shown =
      [(0x01, 7, MsgId.ping, [])] := by
  have hstatus : (main ["c1link_dump", "ping.hex"] fun _ => some noisyPing).status = 0 := by
    decide +kernel
  obtain ⟨-, hshown, -⟩ := capture_agreement "c1link_dump" "ping.hex" (fun _ => some noisyPing) hstatus
  rw [hshown (by decide +kernel)]
  decide +kernel

/-- A frame of type 5 and a frame of major version 2, both with the right checksum. -/
def unknownType : List Char8 := codes "a5 5a 10 05 01 01 00 00 47 76".toList

def foreignVersion : List Char8 := codes "a5 5a 20 01 01 01 00 00 cd d0".toList

/-- The tool prints either frame and exits with status 0; the parser delivers neither. -/
theorem capture_disagreement :
    ((main ["c1link_dump", "type.hex"] fun _ => some unknownType).status = 0 ∧
      (decode (readCapture (some unknownType))).printed.length = 1 ∧
      (FrameParser.feedAll {} (readCapture (some unknownType))).2.reduceOption = []) ∧
    (main ["c1link_dump", "version.hex"] fun _ => some foreignVersion).status = 0 ∧
      (decode (readCapture (some foreignVersion))).printed.length = 1 ∧
      (FrameParser.feedAll {} (readCapture (some foreignVersion))).2.reduceOption = [] := by
  decide +kernel

end Culina.CaptureAgreement
