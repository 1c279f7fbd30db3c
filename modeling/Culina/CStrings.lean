import Mathlib.Data.BitVec
import Mathlib.Data.Int.Log
import Mathlib.Data.List.TakeWhile
import Mathlib.Data.Rat.Floor

/-!
Strings of C: bytes up to a terminator, the lines that `fgets` hands out, and the number
readers `strtol` and `strtof` in the C locale. A reader returns the value with the rest of
the text, or nothing when it finds no number. Exponents and integers are not bounded: what
the real readers would report as out of range is a number here.
-/
namespace Culina.CStrings

abbrev Char8 := BitVec 8

instance : LawfulBEq Char8 := inferInstance

def code (c : Char) : Char8 := BitVec.ofNat 8 c.toNat

def codes (cs : List Char) : List Char8 := cs.map code

/-- The characters of a buffer in front of its terminator. -/
def content (buffer : List Char8) : List Char8 := buffer.takeWhile (· ≠ 0)

/-- `strncpy` fills up with zeros what the source leaves of `count`. -/
def strncpy (dest src : List Char8) (count : ℕ) : List Char8 :=
  (content src).take count ++ List.replicate (count - (content src).length) 0 ++ dest.drop count

/-- A text that an array of `size` bytes can hold with its terminator. -/
structure CString (size : ℕ) (text : List Char8) : Prop where
  length : text.length < size
  terminator : 0 ∉ text

/-- An array of zeros after a text was copied into it. -/
def array (size : ℕ) (text : List Char8) : List Char8 :=
  strncpy (List.replicate size 0) text (size - 1)

theorem content_of_not_mem {text : List Char8} (h : 0 ∉ text) : content text = text := by
  rw [content, List.takeWhile_eq_self_iff]
  intro c hc
  exact decide_eq_true fun hzero => h (hzero ▸ hc)

theorem not_mem_content (buffer : List Char8) : 0 ∉ content buffer := by
  intro h
  have hzero := List.mem_takeWhile_imp h
  simp at hzero

theorem array_eq {size : ℕ} {text : List Char8} (h : CString size text) :
    array size text = text ++ List.replicate (size - text.length) 0 := by
  have hlength := h.length
  rw [array, strncpy, content_of_not_mem h.terminator, List.take_of_length_le (by omega),
    List.drop_replicate, List.append_assoc, List.replicate_append_replicate]
  congr 2
  omega

/-- The array holds the text and a terminator. -/
theorem content_array {size : ℕ} {text : List Char8} (h : CString size text) :
    content (array size text) = text ∧ (array size text).length = size := by
  have hlength := h.length
  rw [array_eq h]
  constructor
  · obtain ⟨more, hmore⟩ : ∃ more, size - text.length = more + 1 := ⟨size - text.length - 1, by omega⟩
    have hall : text.takeWhile (fun c => decide (c ≠ 0)) = text := content_of_not_mem h.terminator
    rw [content, List.takeWhile_append, hall, if_pos rfl, hmore, List.replicate_succ]
    simp
  · rw [List.length_append, List.length_replicate]
    omega

theorem CString.take {text : List Char8} (h : 0 ∉ text) (size : ℕ) : CString (size + 1) (text.take size) := by
  constructor
  · rw [List.length_take]
    omega
  · intro hzero
    exact h (List.mem_of_mem_take hzero)

/-- A copy over an older text leaves the array of the new one. -/
theorem strncpy_array {size : ℕ} {old text : List Char8} (hold : CString (size + 1) old) (htext : 0 ∉ text) :
    strncpy (array (size + 1) old) text size = array (size + 1) (text.take size) := by
  have holder := hold.length
  have hlast : (old ++ List.replicate (size + 1 - old.length) 0).drop size = [(0 : Char8)] := by
    rw [List.drop_append, List.drop_eq_nil_of_le (by omega), List.nil_append, List.drop_replicate]
    have hone : size + 1 - old.length - (size - old.length) = 1 := by omega
    rw [hone, List.replicate_one]
  rw [array_eq hold, array_eq (CString.take htext size), strncpy, content_of_not_mem htext, hlast,
    List.append_assoc, ← List.replicate_one, List.replicate_append_replicate, List.length_take]
  congr 2
  omega

def isSpace (c : Char8) : Bool := c = code ' ' || (decide (9 ≤ c.toNat) && decide (c.toNat ≤ 13))

def digit (c : Char8) : Option ℕ :=
  if 48 ≤ c.toNat ∧ c.toNat ≤ 57 then some (c.toNat - 48) else none

def hexDigit (c : Char8) : Option ℕ :=
  if 48 ≤ c.toNat ∧ c.toNat ≤ 57 then some (c.toNat - 48)
  else if 65 ≤ c.toNat ∧ c.toNat ≤ 70 then some (c.toNat - 55)
  else if 97 ≤ c.toNat ∧ c.toNat ≤ 102 then some (c.toNat - 87)
  else none

/-- Upper case letters as lower case. -/
def lower (c : Char8) : Char8 := if 65 ≤ c.toNat ∧ c.toNat ≤ 90 then c + 32 else c

def value (base : ℕ) (digits : List ℕ) : ℕ := digits.foldl (fun acc d => base * acc + d) 0

/-- The longest run of digits, and what follows it. -/
def digits (read : Char8 → Option ℕ) : List Char8 → List ℕ × List Char8
  | [] => ([], [])
  | c :: rest =>
      match read c with
      | some d => (d :: (digits read rest).1, (digits read rest).2)
      | none => ([], c :: rest)

/-- A sign, if there is one. -/
def sign : List Char8 → Bool × List Char8
  | [] => (false, [])
  | c :: rest =>
      if c = code '-' then (true, rest)
      else if c = code '+' then (false, rest)
      else (false, c :: rest)

/-- `strtol` in base ten. -/
def strtol (text : List Char8) : Option (ℤ × List Char8) :=
  let (negative, text) := sign (text.dropWhile isSpace)
  let (found, rest) := digits digit text
  if found = [] then none
  else some (if negative then -(value 10 found : ℤ) else value 10 found, rest)

/-! Floats. -/

/-- The nearest integer; a tie goes to the even one. -/
def roundEven (q : ℚ) : ℤ :=
  if q - ⌊q⌋ < 1 / 2 then ⌊q⌋
  else if 1 / 2 < q - ⌊q⌋ then ⌊q⌋ + 1
  else if ⌊q⌋ % 2 = 0 then ⌊q⌋
  else ⌊q⌋ + 1

theorem floor_le_roundEven (q : ℚ) : ⌊q⌋ ≤ roundEven q := by
  unfold roundEven
  split_ifs <;> omega

theorem roundEven_le_ceil (q : ℚ) : roundEven q ≤ ⌈q⌉ := by
  have hfloor := Int.floor_le_ceil q
  unfold roundEven
  by_cases hlow : q - ⌊q⌋ < 1 / 2
  · rw [if_pos hlow]
    exact hfloor
  · rw [if_neg hlow]
    have hproper : ⌊q⌋ < ⌈q⌉ := by
      rw [Int.lt_ceil]
      linarith
    split_ifs <;> omega

/-- What one step of the last of 24 significant bits is worth. -/
def lastBit (q : ℚ) : ℚ := (2 : ℚ) ^ (Int.log 2 |q| - 23)

/-- The nearest number with 24 significant bits. -/
def single (q : ℚ) : ℚ := if q = 0 then 0 else roundEven (q / lastBit q) * lastBit q

theorem lastBit_pos (q : ℚ) : 0 < lastBit q := zpow_pos two_pos _

/-- Below 2^24 the last bit divides every integer. -/
theorem exists_lastBit {q : ℚ} (hzero : q ≠ 0) (hsmall : |q| < 2 ^ 24) (n : ℤ) :
    ∃ m : ℤ, (n : ℚ) / lastBit q = m := by
  have hlog : Int.log 2 |q| < 24 := by
    rw [← Int.lt_zpow_iff_log_lt (by norm_num) (abs_pos.mpr hzero)]
    exact_mod_cast hsmall
  refine ⟨n * 2 ^ (23 - Int.log 2 |q|).toNat, ?_⟩
  have hexponent : ((23 - Int.log 2 |q|).toNat : ℤ) = 23 - Int.log 2 |q| := Int.toNat_of_nonneg (by omega)
  unfold lastBit
  rw [div_eq_mul_inv, ← zpow_neg, neg_sub]
  push_cast
  rw [← zpow_natCast, hexponent]

/-- Rounding passes no integer. -/
theorem single_between {q : ℚ} (hsmall : |q| < 2 ^ 24) {low high : ℤ} (hlow : low ≤ q)
    (hhigh : q ≤ high) : low ≤ single q ∧ single q ≤ high := by
  unfold single
  by_cases hzero : q = 0
  · rw [if_pos hzero, ← hzero]
    exact ⟨hlow, hhigh⟩
  · rw [if_neg hzero]
    have hpos := lastBit_pos q
    obtain ⟨m, hm⟩ := exists_lastBit hzero hsmall low
    obtain ⟨m', hm'⟩ := exists_lastBit hzero hsmall high
    constructor
    · rw [← div_le_iff₀ hpos, hm]
      have hfloor : m ≤ ⌊q / lastBit q⌋ := by
        rw [Int.le_floor, ← hm]
        exact div_le_div_of_nonneg_right hlow hpos.le
      exact_mod_cast hfloor.trans (floor_le_roundEven _)
    · rw [← le_div_iff₀ hpos, hm']
      have hceil : ⌈q / lastBit q⌉ ≤ m' := by
        rw [Int.ceil_le, ← hm']
        exact div_le_div_of_nonneg_right hhigh hpos.le
      exact_mod_cast (roundEven_le_ceil _).trans hceil

inductive Float where
  | finite (q : ℚ)
  | infinite
  | nan

/-- The exponent behind a mark; without digits the mark is not part of the number. -/
def exponent (mark : Char8) (text : List Char8) : ℤ × List Char8 :=
  match text with
  | [] => (0, text)
  | c :: rest =>
      if lower c = mark then
        let (negative, rest) := sign rest
        let (found, rest) := digits digit rest
        if found = [] then (0, text)
        else (if negative then -(value 10 found : ℤ) else value 10 found, rest)
      else (0, text)

/-- Digits with at most one point among them: the whole part and the fraction. -/
def mantissa (read : Char8 → Option ℕ) (text : List Char8) : List ℕ × List ℕ × List Char8 :=
  let (whole, rest) := digits read text
  match rest with
  | [] => (whole, [], [])
  | c :: tail =>
      if c = code '.' then
        let (fraction, rest) := digits read tail
        if whole = [] ∧ fraction = [] then ([], [], c :: tail) else (whole, fraction, rest)
      else (whole, [], c :: tail)

/-- A number without sign; `scale` is what one step of the exponent multiplies by. -/
def number (read : Char8 → Option ℕ) (base scale : ℕ) (mark : Char8) (text : List Char8) :
    Option (ℚ × List Char8) :=
  let (whole, fraction, rest) := mantissa read text
  if whole = [] ∧ fraction = [] then none
  else
    let (power, rest) := exponent mark rest
    some ((value base (whole ++ fraction) : ℚ) / (base : ℚ) ^ fraction.length * (scale : ℚ) ^ power,
      rest)

/-- The characters that may stand in the parentheses of a nan. -/
def isWord (c : Char8) : Bool :=
  (digit c).isSome || decide (97 ≤ (lower c).toNat ∧ (lower c).toNat ≤ 122) || c = code '_'

def nanTail (text : List Char8) : List Char8 :=
  match text with
  | [] => text
  | c :: tail =>
      if c = code '(' then
        match tail.dropWhile isWord with
        | [] => text
        | close :: rest => if close = code ')' then rest else text
      else text

/-- What may stand behind the sign of a float: `inf`, `nan`, a hexadecimal or a decimal number. -/
def unsigned (text : List Char8) : Option (Float × List Char8) :=
  if (codes ['i', 'n', 'f', 'i', 'n', 'i', 't', 'y']).isPrefixOf (text.map lower) then
    some (.infinite, text.drop 8)
  else if (codes ['i', 'n', 'f']).isPrefixOf (text.map lower) then some (.infinite, text.drop 3)
  else if (codes ['n', 'a', 'n']).isPrefixOf (text.map lower) then some (.nan, nanTail (text.drop 3))
  else
    let hexadecimal :=
      if (codes ['0', 'x']).isPrefixOf (text.map lower) then
        number hexDigit 16 2 (code 'p') (text.drop 2)
      else none
    (hexadecimal.orElse fun _ => number digit 10 10 (code 'e') text).map fun (q, rest) =>
      (.finite (single q), rest)

def Float.negate : Float → Float
  | finite q => finite (-q)
  | infinite => infinite
  | nan => nan

def strtof (text : List Char8) : Option (Float × List Char8) :=
  let (negative, text) := sign (text.dropWhile isSpace)
  (unsigned text).map fun (x, rest) => (if negative then x.negate else x, rest)

/-! Lines. -/

/-- A file with what can be read of it, and whether a read error or its end comes behind that. -/
structure File where
  bytes : List Char8
  fails : Bool := false

/-- What `fgets` leaves in its buffer, and whether it has met the end of the file. -/
structure Line where
  text : List Char8
  eof : Bool

/-- The lines that successive calls of `fgets` with a buffer of `size` bytes hand out, until it
returns null; `front` is what the current call has read. -/
def readLines (size : ℕ) (fails : Bool) (front : List Char8) : List Char8 → List Line
  | [] => if front = [] ∨ fails = true then [] else [⟨front, true⟩]
  | c :: rest =>
      if c = code '\n' ∨ front.length + 2 = size then
        ⟨front ++ [c], false⟩ :: readLines size fails [] rest
      else readLines size fails (front ++ [c]) rest

def File.lines (file : File) (size : ℕ) : List Line := readLines size file.fails [] file.bytes

end Culina.CStrings
