import Culina.CStrings
import Culina.Layout

/-!
The capture tool. It reads a capture as pairs of hexadecimal digits and decodes the bytes with a
search of its own for sync pairs: a frame is printed when its length fits, whatever its version,
its type and its checksum.
-/
namespace Culina.CaptureDump

open Wire Crc CStrings

/-! The capture file. -/

structure CaptureReader where
  bytes : List Byte := []
  nibble : Option ℕ := none
  inComment : Bool := false

/-- The value of a character as a digit; only 0 to 15 are taken for one. -/
def digitValue (c : Char8) : ℤ :=
  match digit c with
  | some d => d
  | none => ((lower c).toNat : ℤ) - 97 + 10

def CaptureReader.next (reader : CaptureReader) (c : Char8) : CaptureReader :=
  let inComment := if c = code '#' then true else reader.inComment
  let inComment := if c = code '\n' then false else inComment
  let reader := { reader with inComment }
  if inComment = true ∨ isSpace c = true then reader
  else if digitValue c < 0 ∨ digitValue c > 15 then reader
  else
    match reader.nibble with
    | none => { reader with nibble := some (digitValue c).toNat }
    | some nibble =>
        { reader with
          bytes := reader.bytes ++ [BitVec.ofNat 8 (nibble <<< 4 ||| (digitValue c).toNat)]
          nibble := none }

/-- A file that cannot be opened has no bytes. -/
def readCapture (file : Option (List Char8)) : List Byte :=
  match file with
  | none => []
  | some text => (text.foldl CaptureReader.next {}).bytes

/-! The decoder. -/

def typeName (type : Byte) : String :=
  if type = 0x01 then "REQ"
  else if type = 0x02 then "RSP"
  else if type = 0x03 then "TLM"
  else if type = 0x04 then "NAK"
  else "???"

/-- A frame as it is printed. -/
structure Printed where
  offset : ℕ
  type : Byte
  seq : Byte
  msg : Byte
  payload : List Byte
  wireCrc : BitVec 16
  computed : BitVec 16
deriving DecidableEq

/-- The frame with `len` bytes of payload that `rest` starts with. -/
def Printed.read (offset : ℕ) (rest : List Byte) (len : ℕ) : Printed where
  offset := offset
  type := rest.getD 3 0
  seq := rest.getD 4 0
  msg := rest.getD 5 0
  payload := (rest.drop kHeaderSize).take len
  wireCrc := getU16 (rest.getD (kHeaderSize + len) 0) (rest.getD (kHeaderSize + len + 1) 0)
  computed := crc16Ccitt ((rest.drop 2).take (kHeaderSize - 2 + len)) kCrcSeed

inductive Complaint where
  | malformed (offset : ℕ)
  | truncated (offset : ℕ)
deriving DecidableEq

structure Scan where
  i : ℕ := 0
  printed : List Printed := []
  complaints : List Complaint := []
  frames : ℕ := 0
  malformed : Bool := false

namespace Scan

/-- One turn of the loop; `rest` is what stands from the index on. -/
def step (bytes : List Byte) (scan : Scan) : Scan :=
  let rest := bytes.drop scan.i
  if rest.getD 0 0 ≠ kSync0 ∨ rest.getD 1 0 ≠ kSync1 then { scan with i := scan.i + 1 }
  else
    let len := (getU16 (rest.getD 6 0) (rest.getD 7 0)).toNat
    let frameSize := kHeaderSize + len + kCrcSize
    if len > kMaxPayload ∨ frameSize > rest.length then
      { scan with
        complaints := scan.complaints ++ [.malformed scan.i]
        malformed := true
        i := scan.i + 1 }
    else
      let line := Printed.read scan.i rest len
      { scan with
        printed := scan.printed ++ [line]
        malformed := if line.wireCrc ≠ line.computed then true else scan.malformed
        i := scan.i + frameSize
        frames := scan.frames + 1 }

theorem step_advances (bytes : List Byte) (scan : Scan) : scan.i < (scan.step bytes).i := by
  unfold step
  dsimp only
  split
  · exact Nat.lt_succ_self _
  · split
    · exact Nat.lt_succ_self _
    · exact Nat.lt_add_of_pos_right (Nat.succ_pos _)

def loop (bytes : List Byte) (scan : Scan) : Scan :=
  if scan.i + kHeaderSize ≤ bytes.length then loop bytes (scan.step bytes) else scan
termination_by bytes.length - scan.i
decreasing_by
  have := scan.step_advances bytes
  unfold kHeaderSize at *
  omega

/-- What is left behind the last frame. -/
def finish (bytes : List Byte) (scan : Scan) : Scan :=
  if scan.i < bytes.length then
    { scan with complaints := scan.complaints ++ [.truncated scan.i], malformed := true }
  else scan

end Scan

def decode (bytes : List Byte) : Scan := (Scan.loop bytes {}).finish bytes

/-! What one turn does and what every turn keeps. -/

/-- The bytes that the checksum of a printed frame is computed from. -/
def Printed.covered (version : Byte) (line : Printed) : List Byte :=
  [version, line.type, line.seq, line.msg] ++ putU16 (BitVec.ofNat 16 line.payload.length) ++
    line.payload

/-- The bytes a printed frame is read from; its version byte is not printed. -/
def Printed.image (version : Byte) (line : Printed) : List Byte :=
  kSync0 :: kSync1 :: (line.covered version ++ putU16 line.wireCrc)

/-- The index behind the last byte of a printed frame. -/
def Printed.stop (line : Printed) : ℕ :=
  line.offset + (kHeaderSize + line.payload.length + kCrcSize)

/-- What is printed of a frame besides its place. -/
def Printed.shown (line : Printed) : Byte × Byte × Byte × List Byte :=
  (line.type, line.seq, line.msg, line.payload)

theorem Printed.image_length (version : Byte) (line : Printed) :
    (line.image version).length = kHeaderSize + line.payload.length + kCrcSize := by
  simp only [image, covered, putU16, List.length_cons, List.length_append, List.length_nil,
    kHeaderSize, kCrcSize]
  omega

theorem header_split {rest : List Byte} (h : kHeaderSize ≤ rest.length) :
    ∃ sync0 sync1 version type seq msg lo hi tail,
      rest = sync0 :: sync1 :: version :: type :: seq :: msg :: lo :: hi :: tail := by
  rcases rest with _ | ⟨sync0, _ | ⟨sync1, _ | ⟨version, _ | ⟨type, _ | ⟨seq, _ | ⟨msg, _ | ⟨lo, _ |
    ⟨hi, tail⟩⟩⟩⟩⟩⟩⟩⟩
  case cons.cons.cons.cons.cons.cons.cons.cons =>
    exact ⟨sync0, sync1, version, type, seq, msg, lo, hi, tail, rfl⟩
  all_goals
    simp only [List.length_cons, List.length_nil, kHeaderSize] at h
    exact absurd h (by omega)

/-- A frame whose length fits is printed from the bytes that `rest` starts with. -/
theorem Printed.read_image (offset : ℕ) (version type seq msg : Byte) {lo hi : Byte}
    {tail : List Byte} (h : (getU16 lo hi).toNat + kCrcSize ≤ tail.length) :
    let rest := kSync0 :: kSync1 :: version :: type :: seq :: msg :: lo :: hi :: tail
    let line := Printed.read offset rest (getU16 lo hi).toNat
    line.payload.length = (getU16 lo hi).toNat ∧ (∃ back, rest = line.image version ++ back) ∧
      line.computed = crc16Ccitt (line.covered version) kCrcSeed := by
  generalize hlen : (getU16 lo hi).toNat = len at h
  intro rest line
  have hhi : len + 1 < tail.length := h
  have hlo : len < tail.length := Nat.lt_of_succ_lt hhi
  have hpayload : line.payload = tail.take len := rfl
  have hlength : line.payload.length = len := by
    rw [hpayload, List.length_take_of_le (Nat.le_of_lt hlo)]
  have hfield : putU16 (BitVec.ofNat 16 line.payload.length) = [lo, hi] := by
    rw [hlength, ← hlen, BitVec.ofNat_toNat, BitVec.setWidth_eq, putU16_getU16]
  have hcovered : line.covered version = [version, type, seq, msg, lo, hi] ++ tail.take len := by
    rw [covered, hfield, hpayload]
    rfl
  have hcrc : line.wireCrc = getU16 tail[len] tail[len + 1] := by
    have hfirst : rest.getD (kHeaderSize + len) 0 = tail[len] := by
      rw [List.getD_eq_getElem?_getD, kHeaderSize, Nat.add_comm]
      exact congrArg (Option.getD · 0) (List.getElem?_eq_getElem hlo)
    have hsecond : rest.getD (kHeaderSize + len + 1) 0 = tail[len + 1] := by
      rw [List.getD_eq_getElem?_getD, kHeaderSize, Nat.add_assoc, Nat.add_comm]
      exact congrArg (Option.getD · 0) (List.getElem?_eq_getElem hhi)
    change getU16 (rest.getD (kHeaderSize + len) 0) (rest.getD (kHeaderSize + len + 1) 0) = _
    rw [hfirst, hsecond]
  refine ⟨hlength, ⟨tail.drop (len + 2), ?_⟩, ?_⟩
  · have htail : tail = tail.take len ++ tail[len] :: tail[len + 1] :: tail.drop (len + 2) := by
      rw [← List.drop_eq_getElem_cons hhi, ← List.drop_eq_getElem_cons hlo, List.take_append_drop]
    rw [image, hcovered, hcrc, putU16_getU16]
    simp only [List.cons_append, List.nil_append, List.append_assoc]
    exact congrArg
      (fun back => kSync0 :: kSync1 :: version :: type :: seq :: msg :: lo :: hi :: back) htail
  · rw [hcovered]
    change crc16Ccitt ((version :: type :: seq :: msg :: lo :: hi :: tail).take (6 + len)) kCrcSeed = _
    rw [Nat.add_comm]
    rfl

namespace Scan

/-- A turn skips a byte that starts no sync pair, complains of a length that does not fit, or prints
a frame whose bytes stand at the index. -/
theorem step_cases (bytes : List Byte) (scan : Scan) (hin : scan.i + kHeaderSize ≤ bytes.length) :
    (∃ byte rest, bytes.drop scan.i = byte :: rest ∧
      ¬ (byte = kSync0 ∧ rest.head? = some kSync1) ∧ scan.step bytes = { scan with i := scan.i + 1 }) ∨
    (scan.step bytes = { scan with
      complaints := scan.complaints ++ [.malformed scan.i]
      malformed := true
      i := scan.i + 1 }) ∨
    ∃ version line back, bytes.drop scan.i = line.image version ++ back ∧ line.offset = scan.i ∧
      line.payload.length ≤ kMaxPayload ∧ line.computed = crc16Ccitt (line.covered version) kCrcSeed ∧
      scan.step bytes = { scan with
        printed := scan.printed ++ [line]
        malformed := if line.wireCrc ≠ line.computed then true else scan.malformed
        i := line.stop
        frames := scan.frames + 1 } := by
  have hlength : kHeaderSize ≤ (bytes.drop scan.i).length := by
    rw [List.length_drop]
    omega
  obtain ⟨sync0, sync1, version, type, seq, msg, lo, hi, tail, hrest⟩ := header_split hlength
  unfold step
  rw [hrest]
  simp only [List.getD_cons_zero, List.getD_cons_succ]
  by_cases hpair : sync0 ≠ kSync0 ∨ sync1 ≠ kSync1
  · rw [if_pos hpair]
    refine Or.inl ⟨sync0, _, rfl, ?_, rfl⟩
    rintro ⟨hfirst, hsecond⟩
    exact hpair.elim (fun h => h hfirst) (fun h => h (Option.some.inj hsecond))
  · rw [if_neg hpair]
    obtain ⟨rfl, rfl⟩ : sync0 = kSync0 ∧ sync1 = kSync1 := by
      simpa only [not_or, ne_eq, not_not] using hpair
    split
    · exact Or.inr (Or.inl rfl)
    · rename_i hfits
      obtain ⟨hmax, hroom⟩ := not_or.mp hfits
      have htail : (getU16 lo hi).toNat + kCrcSize ≤ tail.length := by
        simp only [List.length_cons, kHeaderSize, kCrcSize] at hroom
        simp only [kCrcSize]
        omega
      obtain ⟨hlen, ⟨back, himage⟩, hcomputed⟩ :=
        Printed.read_image scan.i version type seq msg htail
      refine Or.inr (Or.inr ⟨version, _, back, himage, rfl, ?_, hcomputed, ?_⟩)
      · rw [hlen]
        exact Nat.le_of_not_lt hmax
      · rw [Printed.stop, hlen]
        rfl

/-- Printed frames stay printed, and what is malformed stays so. -/
theorem step_keeps (bytes : List Byte) (scan : Scan) (hin : scan.i + kHeaderSize ≤ bytes.length) :
    ((scan.step bytes).malformed = false → scan.malformed = false) ∧
      scan.printed ⊆ (scan.step bytes).printed := by
  rcases scan.step_cases bytes hin with ⟨byte, rest, -, -, hstep⟩ | hstep |
    ⟨version, line, back, -, -, -, -, hstep⟩
  · rw [hstep]
    exact ⟨id, fun line hline => hline⟩
  · rw [hstep]
    exact ⟨fun h => Bool.noConfusion h, fun line hline => hline⟩
  · rw [hstep]
    refine ⟨fun h => ?_, List.subset_append_left _ _⟩
    dsimp only at h
    split at h
    · cases h
    · exact h

theorem finish_good {bytes : List Byte} {scan : Scan} (h : (scan.finish bytes).malformed = false) :
    scan.finish bytes = scan ∧ bytes.length ≤ scan.i := by
  unfold finish at *
  split at h
  · cases h
  · rename_i hread
    exact ⟨if_neg hread, Nat.le_of_not_lt hread⟩

/-- What every turn keeps holds of the loop's result. -/
theorem loop_invariant {bytes : List Byte} {P : Scan → Prop}
    (hstep : ∀ scan : Scan, scan.i + kHeaderSize ≤ bytes.length → P scan → P (scan.step bytes))
    (scan : Scan) (h : P scan) : P (loop bytes scan) := by
  fun_induction loop bytes scan with
  | case1 scan hin ih => exact ih (hstep scan hin h)
  | case2 scan hout => exact h

/-- The frames are counted as they are printed. -/
theorem loop_frames (bytes : List Byte) : (loop bytes {}).frames = (loop bytes {}).printed.length := by
  refine loop_invariant (P := fun scan => scan.frames = scan.printed.length) ?_ {} rfl
  intro scan hin ih
  rcases scan.step_cases bytes hin with ⟨byte, rest, -, -, hstep⟩ | hstep |
    ⟨version, line, back, -, -, -, -, hstep⟩
  · rw [hstep]
    exact ih
  · rw [hstep]
    exact ih
  · rw [hstep]
    dsimp only
    rw [ih, List.length_append, List.length_singleton]

end Scan

/-! The program. -/

def padded (fill : Char) (width : ℕ) (digits : List Char) : String :=
  String.ofList (List.replicate (width - digits.length) fill ++ digits)

def hex (width value : ℕ) : String := padded '0' width (Nat.toDigits 16 value)

def Printed.text (line : Printed) : String :=
  padded '0' 4 (Nat.toDigits 10 line.offset) ++ "  " ++ typeName line.type ++ " seq=" ++
    padded ' ' 3 (Nat.toDigits 10 line.seq.toNat) ++ " msg=0x" ++ hex 2 line.msg.toNat ++ " len=" ++
    toString line.payload.length ++ "  payload=" ++
    String.join (line.payload.map fun byte => hex 2 byte.toNat) ++ "  crc=" ++
    hex 4 line.wireCrc.toNat ++ (if line.wireCrc = line.computed then " ok\n" else " BAD\n")

def Complaint.text : Complaint → String
  | malformed offset => "malformed frame at offset " ++ toString offset ++ "\n"
  | truncated offset => "truncated data at offset " ++ toString offset ++ "\n"

structure Output where
  stdout : String := ""
  stderr : String := ""
  status : ℕ

/-- `argv` has the name of the program in front; a file may not be there to open. -/
def main (argv : List String) (files : String → Option (List Char8)) : Output :=
  match argv with
  | [_, path] =>
      let bytes := readCapture (files path)
      if bytes = [] then { stderr := "no bytes in " ++ path ++ "\n", status := 1 }
      else
        let scan := decode bytes
        { stdout := String.join (scan.printed.map Printed.text) ++ toString scan.frames ++ " frame(s)\n"
          stderr := String.join (scan.complaints.map Complaint.text)
          status := if scan.frames > 0 ∧ scan.malformed = false then 0 else 1 }
  | _ => { stderr := "usage: " ++ argv.headD "" ++ " <capture.hex>\n", status := 2 }

/-- At status 0 the loop has read all the bytes, has found nothing malformed and has printed the
frames it counted. -/
theorem status_zero {program path : String} {files : String → Option (List Char8)}
    (h : (main [program, path] files).status = 0) :
    let bytes := readCapture (files path)
    (main [program, path] files).stdout = String.join ((decode bytes).printed.map Printed.text) ++
        toString (decode bytes).printed.length ++ " frame(s)\n" ∧
      decode bytes = Scan.loop bytes {} ∧ (decode bytes).malformed = false ∧
        bytes.length ≤ (decode bytes).i := by
  intro bytes
  have hsome : bytes ≠ [] := by
    intro hnone
    simp only [main] at h
    rw [if_pos hnone] at h
    cases h
  have hgood : (decode bytes).malformed = false := by
    by_contra hbad
    simp only [main] at h
    rw [if_neg hsome, if_neg fun hok => hbad hok.2] at h
    cases h
  obtain ⟨hsame, hread⟩ := Scan.finish_good hgood
  refine ⟨?_, hsame, hgood, ?_⟩
  · simp only [main]
    rw [if_neg hsome]
    dsimp only
    rw [decode, hsame, Scan.loop_frames]
  · rw [decode, hsame]
    exact hread

/-! Every byte sequence has a capture. -/

/-- The digits in the order of their values. -/
def hexDigits : List Char8 :=
  codes ['0', '1', '2', '3', '4', '5', '6', '7', '8', '9', 'a', 'b', 'c', 'd', 'e', 'f']

def writeByte (byte : Byte) : List Char8 :=
  [hexDigits.getD (byte.toNat / 16) 0, hexDigits.getD (byte.toNat % 16) 0]

theorem hexDigits_spec : ∀ d : Fin 16, hexDigits.getD d 0 ≠ code '#' ∧
    hexDigits.getD d 0 ≠ code '\n' ∧ isSpace (hexDigits.getD d 0) = false ∧
      digitValue (hexDigits.getD d 0) = (d : ℕ) := by
  decide

theorem next_digit (bytes : List Byte) (nibble : Option ℕ) (d : Fin 16) :
    CaptureReader.next ⟨bytes, nibble, false⟩ (hexDigits.getD d 0) =
      match nibble with
      | none => ⟨bytes, some d, false⟩
      | some high => ⟨bytes ++ [BitVec.ofNat 8 (high <<< 4 ||| (d : ℕ))], none, false⟩ := by
  obtain ⟨hcomment, hnewline, hspace, hvalue⟩ := hexDigits_spec d
  have hrange : ¬ (((d : ℕ) : ℤ) < 0 ∨ ((d : ℕ) : ℤ) > 15) := by omega
  simp only [CaptureReader.next, hcomment, hnewline, hspace, hvalue, hrange, if_false,
    Bool.false_eq_true, or_self, Int.toNat_natCast]

theorem next_byte (bytes : List Byte) (byte : Byte) :
    (writeByte byte).foldl CaptureReader.next ⟨bytes, none, false⟩ = ⟨bytes ++ [byte], none, false⟩ := by
  have hbyte := byte.isLt
  have hhigh := next_digit bytes none ⟨byte.toNat / 16, by omega⟩
  have hlow := next_digit bytes (some (byte.toNat / 16)) ⟨byte.toNat % 16, by omega⟩
  dsimp only at hhigh hlow
  have hjoin : (byte.toNat / 16) <<< 4 ||| byte.toNat % 16 = byte.toNat := by
    rw [← Nat.shiftLeft_add_eq_or_of_lt (by omega : byte.toNat % 16 < 2 ^ 4), Nat.shiftLeft_eq]
    omega
  rw [writeByte, List.foldl_cons, List.foldl_cons, List.foldl_nil, hhigh, hlow, hjoin,
    BitVec.ofNat_toNat, BitVec.setWidth_eq]

/-- Any bytes can be written down as a capture. -/
theorem readCapture_written (bytes : List Byte) : readCapture (some (bytes.flatMap writeByte)) = bytes := by
  have hread (front : List Byte) : (bytes.flatMap writeByte).foldl CaptureReader.next
      ⟨front, none, false⟩ = ⟨front ++ bytes, none, false⟩ := by
    induction bytes generalizing front with
    | nil => rw [List.flatMap_nil, List.append_nil]; rfl
    | cons byte later ih =>
      rw [List.flatMap_cons, List.foldl_append, next_byte, ih, List.append_assoc]
      rfl
  change ((bytes.flatMap writeByte).foldl CaptureReader.next ⟨[], none, false⟩).bytes = bytes
  rw [hread]
  rfl

end Culina.CaptureDump
