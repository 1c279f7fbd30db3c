import Culina.Runs
import Mathlib.Data.List.Basic
import Mathlib.Data.Nat.ModEq

/-!
A stream of lines read in chunks. The reader keeps what no separator has ended yet and drops it
when it gets longer than a limit, which it looks at behind a chunk only. How the stream is cut
makes no difference exactly when every ended line keeps within the limit and the unended rest is
of a length that asks for one number of drops.
-/
namespace Culina.Lines

variable {α : Type*} [DecidableEq α]

/-! Lines of a stream. -/

/-- The lines that the separator ends. -/
def lines (sep : α) (stream : List α) : List (List α) := (stream.splitOn sep).dropLast

/-- What stands behind the last separator. -/
def rest (sep : α) (stream : List α) : List α :=
  (stream.splitOn sep).getLast (List.splitOn_ne_nil sep stream)

variable {sep : α}

theorem lines_of_not_mem {stream : List α} (h : sep ∉ stream) : lines sep stream = [] := by
  rw [lines, List.splitOn_eq_singleton h]
  rfl

theorem rest_of_not_mem {stream : List α} (h : sep ∉ stream) : rest sep stream = stream := by
  simp only [rest, List.splitOn_eq_singleton h, List.getLast_singleton]

theorem lines_ended {line : List α} (h : sep ∉ line) (stream : List α) :
    lines sep (line ++ sep :: stream) = line :: lines sep stream := by
  rw [lines, List.splitOn_append_cons_self_of_not_mem h,
    List.dropLast_cons_of_ne_nil (List.splitOn_ne_nil sep stream)]
  rfl

theorem rest_ended {line : List α} (h : sep ∉ line) (stream : List α) :
    rest sep (line ++ sep :: stream) = rest sep stream := by
  simp only [rest, List.splitOn_append_cons_self_of_not_mem h]
  exact List.getLast_cons (List.splitOn_ne_nil sep stream)

/-- A stream has no separator, or it is a line with a stream behind it. -/
theorem stream_induction (sep : α) {motive : List α → Prop} (unended : ∀ stream, sep ∉ stream → motive stream)
    (ended : ∀ line stream, sep ∉ line → motive stream → motive (line ++ sep :: stream))
    (stream : List α) : motive stream := by
  by_cases hmem : sep ∈ stream
  · obtain ⟨line, later, rfl, hline⟩ := List.eq_append_cons_of_mem hmem
    have hshorter : later.length < (line ++ sep :: later).length := by
      rw [List.length_append, List.length_cons]
      omega
    exact ended line later hline (stream_induction sep unended ended later)
  · exact unended stream hmem
termination_by stream.length

theorem lines_append (front back : List α) :
    lines sep (front ++ back) = lines sep front ++ lines sep (rest sep front ++ back) := by
  induction front using stream_induction sep with
  | unended front h => rw [lines_of_not_mem h, rest_of_not_mem h, List.nil_append]
  | ended line stream h ih =>
    rw [List.append_assoc, List.cons_append, lines_ended h, lines_ended h, rest_ended h, ih,
      List.cons_append]

theorem rest_append (front back : List α) :
    rest sep (front ++ back) = rest sep (rest sep front ++ back) := by
  induction front using stream_induction sep with
  | unended front h => rw [rest_of_not_mem h]
  | ended line stream h ih =>
    rw [List.append_assoc, List.cons_append, rest_ended h, rest_ended h, ih]

theorem not_mem_rest (sep : α) (stream : List α) : sep ∉ rest sep stream := by
  induction stream using stream_induction sep with
  | unended stream h => rwa [rest_of_not_mem h]
  | ended line stream h ih => rwa [rest_ended h]

/-- A stream is some whole lines and its rest. -/
theorem exists_whole (sep : α) (stream : List α) :
    ∃ front, stream = front ++ rest sep stream ∧ rest sep front = [] := by
  induction stream using stream_induction sep with
  | unended stream h => exact ⟨[], (rest_of_not_mem h).symm, rest_of_not_mem List.not_mem_nil⟩
  | ended line stream h ih =>
    obtain ⟨front, hstream, hfront⟩ := ih
    refine ⟨line ++ sep :: front, ?_, ?_⟩
    · rw [rest_ended h, List.append_assoc, List.cons_append, ← hstream]
    · rw [rest_ended h, hfront]

/-- In front of each line stand whole lines. -/
theorem exists_split {stream line : List α} (hline : line ∈ lines sep stream) :
    ∃ front back, stream = front ++ (line ++ sep :: back) ∧ rest sep front = [] ∧ sep ∉ line := by
  induction stream using stream_induction sep with
  | unended stream h =>
    rw [lines_of_not_mem h] at hline
    cases hline
  | ended first stream h ih =>
    rw [lines_ended h] at hline
    rcases List.mem_cons.mp hline with rfl | hlater
    · exact ⟨[], stream, rfl, rest_of_not_mem List.not_mem_nil, h⟩
    · obtain ⟨front, back, rfl, hfront, hfree⟩ := ih hlater
      refine ⟨first ++ sep :: front, back, ?_, ?_, hfree⟩
      · rw [List.append_assoc, List.cons_append]
      · rw [rest_ended h, hfront]

/-- What is put in front of a stream belongs to its first line, if it has one. -/
theorem prepend_cases {gone : List α} (hgone : sep ∉ gone) (stream : List α) :
    (lines sep stream = [] ∧ rest sep stream = stream ∧ lines sep (gone ++ stream) = [] ∧
      rest sep (gone ++ stream) = gone ++ stream) ∨
    ∃ line later, lines sep stream = line :: later ∧ lines sep (gone ++ stream) = (gone ++ line) :: later ∧
      rest sep (gone ++ stream) = rest sep stream := by
  by_cases hmem : sep ∈ stream
  · right
    obtain ⟨line, later, rfl, hline⟩ := List.eq_append_cons_of_mem hmem
    have hlonger : sep ∉ gone ++ line := by
      rw [List.mem_append]
      exact not_or.mpr ⟨hgone, hline⟩
    refine ⟨line, lines sep later, lines_ended hline later, ?_, ?_⟩
    · rw [← List.append_assoc, lines_ended hlonger]
    · rw [← List.append_assoc, rest_ended hlonger, rest_ended hline]
  · left
    have hlonger : sep ∉ gone ++ stream := by
      rw [List.mem_append]
      exact not_or.mpr ⟨hgone, hmem⟩
    exact ⟨lines_of_not_mem hmem, rest_of_not_mem hmem, lines_of_not_mem hlonger,
      rest_of_not_mem hlonger⟩

theorem rest_length_le (stream : List α) : (rest sep stream).length ≤ stream.length := by
  obtain ⟨front, hstream, -⟩ := exists_whole sep stream
  have hlength := congrArg List.length hstream
  rw [List.length_append] at hlength
  omega

/-! Reading in chunks. -/

/-- A piece of the stream as it is received. -/
abbrev Chunk (α : Type*) (size : ℕ) := { bytes : List α // 0 < bytes.length ∧ bytes.length ≤ size }

inductive Event (α : Type*) where
  | line (line : List α)
  | dropped
deriving DecidableEq

/-- The lines handed out. -/
def handed (events : List (Event α)) : List (List α) :=
  events.filterMap fun
    | .line line => some line
    | .dropped => none

omit [DecidableEq α] in
theorem handed_append (front back : List (Event α)) :
    handed (front ++ back) = handed front ++ handed back := List.filterMap_append

omit [DecidableEq α] in
theorem handed_lines (lines : List (List α)) : handed (lines.map Event.line) = lines := by
  rw [handed, List.filterMap_map]
  exact List.filterMap_some

omit [DecidableEq α] in
theorem handed_drops (drops : ℕ) :
    handed (List.replicate drops (Event.dropped : Event α)) = [] := by
  induction drops with
  | zero => rfl
  | succ drops ih => exact ih

/-- The lines ended by now are handed out, and what is left is dropped if it is over the limit. -/
def feed (sep : α) (limit : ℕ) (input chunk : List α) : List (Event α) × List α :=
  let left := rest sep (input ++ chunk)
  if limit < left.length then
    ((lines sep (input ++ chunk)).map Event.line ++ [.dropped], [])
  else ((lines sep (input ++ chunk)).map Event.line, left)

variable {size : ℕ}

def read (sep : α) (limit : ℕ) (input : List α) : List (Chunk α size) → List (Event α) × List α
  | [] => ([], input)
  | chunk :: later =>
      let current := feed sep limit input chunk.val
      let after := read sep limit current.2 later
      (current.1 ++ after.1, after.2)

/-- The stream that was cut. -/
def joined (cut : List (Chunk α size)) : List α := cut.flatMap Subtype.val

omit [DecidableEq α] in
theorem joined_append (front back : List (Chunk α size)) :
    joined (front ++ back) = joined front ++ joined back := List.flatMap_append

variable {limit : ℕ}

theorem read_append (input : List α) (front back : List (Chunk α size)) :
    read sep limit input (front ++ back) =
      ((read sep limit input front).1 ++ (read sep limit (read sep limit input front).2 back).1,
        (read sep limit (read sep limit input front).2 back).2) := by
  induction front generalizing input with
  | nil => rfl
  | cons chunk later ih => simp only [List.cons_append, read, ih, List.append_assoc]

/-! What a reader keeps is the end of the rest. -/

theorem feed_left {stream gone input : List α} (h : rest sep stream = gone ++ input) (chunk : List α) :
    ∃ gone', rest sep (stream ++ chunk) = gone' ++ (feed sep limit input chunk).2 := by
  have hgone : sep ∉ gone := by
    have hfree := not_mem_rest sep stream
    rw [h, List.mem_append] at hfree
    exact fun hmem => hfree (Or.inl hmem)
  have hafter : rest sep (stream ++ chunk) = rest sep (gone ++ (input ++ chunk)) := by
    rw [rest_append, h, List.append_assoc]
  have hkept : (feed sep limit input chunk).2 = [] ∨
      (feed sep limit input chunk).2 = rest sep (input ++ chunk) := by
    unfold feed
    dsimp only
    split
    · exact Or.inl rfl
    · exact Or.inr rfl
  rw [hafter]
  rcases hkept with hdropped | hkept
  · exact ⟨_, by rw [hdropped, List.append_nil]⟩
  · rw [hkept]
    rcases prepend_cases hgone (input ++ chunk) with ⟨-, hrest, -, hlonger⟩ | ⟨line, later, -, -, hsame⟩
    · exact ⟨gone, by rw [hrest, hlonger]⟩
    · exact ⟨[], hsame⟩

theorem read_left {stream gone input : List α} (h : rest sep stream = gone ++ input)
    (cut : List (Chunk α size)) :
    ∃ gone', rest sep (stream ++ joined cut) = gone' ++ (read sep limit input cut).2 := by
  induction cut generalizing stream gone input with
  | nil => exact ⟨gone, by rwa [joined, List.flatMap_nil, List.append_nil]⟩
  | cons chunk later ih =>
    obtain ⟨gone', hgone'⟩ := feed_left h chunk.val
    have hlater := ih hgone'
    rwa [List.append_assoc] at hlater

/-- Behind whole lines nothing is left. -/
theorem read_whole {cut : List (Chunk α size)} (h : rest sep (joined cut) = []) :
    (read sep limit [] cut).2 = [] := by
  have hempty : rest sep ([] : List α) = [] ++ [] := rest_of_not_mem List.not_mem_nil
  have hleft : ∃ gone, rest sep ([] ++ joined cut) = gone ++ (read sep limit [] cut).2 :=
    read_left hempty cut
  obtain ⟨gone, hgone⟩ := hleft
  rw [List.nil_append, h] at hgone
  exact (List.append_eq_nil_iff.mp hgone.symm).2

/-! Streams whose lines keep within the limit. -/

/-- What a reader has made of a stream: all its lines, and a number of drops that took away the front
of the rest. -/
structure Account (sep : α) (limit size : ℕ) (stream : List α) (events : List (Event α))
    (input gone : List α) (drops : ℕ) : Prop where
  events : events = (lines sep stream).map Event.line ++ List.replicate drops .dropped
  left : rest sep stream = gone ++ input
  least : (limit + 1) * drops ≤ gone.length
  most : gone.length ≤ (limit + size) * drops
  kept : input.length ≤ limit

/-- Step lemma. -/
theorem Account.feed {stream : List α} {events : List (Event α)} {input gone : List α} {drops : ℕ}
    (h : Account sep limit size stream events input gone drops) (chunk : Chunk α size)
    (hshort : ∀ line ∈ lines sep (stream ++ chunk.val), line.length ≤ limit) :
    ∃ gone' drops', Account sep limit size (stream ++ chunk.val)
      (events ++ (feed sep limit input chunk.val).1) (feed sep limit input chunk.val).2 gone' drops' := by
  have hgone : sep ∉ gone := by
    have hfree := not_mem_rest sep stream
    rw [h.left, List.mem_append] at hfree
    exact fun hmem => hfree (Or.inl hmem)
  have hlines : lines sep (stream ++ chunk.val) =
      lines sep stream ++ lines sep (gone ++ (input ++ chunk.val)) := by
    rw [lines_append, h.left, List.append_assoc]
  have hrest : rest sep (stream ++ chunk.val) = rest sep (gone ++ (input ++ chunk.val)) := by
    rw [rest_append, h.left, List.append_assoc]
  have hsize : (input ++ chunk.val).length ≤ limit + size := by
    have := h.kept
    have := chunk.property.2
    rw [List.length_append]
    omega
  unfold Lines.feed
  dsimp only
  rcases prepend_cases hgone (input ++ chunk.val) with
    ⟨hnone, hall, hnone', hall'⟩ | ⟨line, later, hsome, hsome', hsame⟩
  · -- no line ends: the drops go on
    rw [hnone'] at hlines
    rw [hall'] at hrest
    rw [hnone, hall]
    split
    · rename_i hover
      refine ⟨gone ++ (input ++ chunk.val), drops + 1, ?_, ?_, ?_, ?_, Nat.zero_le _⟩
      · rw [hlines, h.events, List.append_nil, List.map_nil, List.nil_append, List.append_assoc,
          List.replicate_succ']
      · rw [hrest, List.append_nil]
      · have := h.least
        rw [List.length_append, Nat.mul_succ]
        omega
      · have := h.most
        rw [List.length_append, Nat.mul_succ]
        omega
    · rename_i hwithin
      refine ⟨gone, drops, ?_, hrest, h.least, h.most, Nat.le_of_not_lt hwithin⟩
      rw [hlines, h.events, List.append_nil, List.map_nil, List.append_nil]
  · -- a line ends: it is short, so nothing of it was dropped
    have hmem : gone ++ line ∈ lines sep (stream ++ chunk.val) := by
      rw [hlines, hsome']
      exact List.mem_append_right _ List.mem_cons_self
    have hline := hshort _ hmem
    rw [List.length_append] at hline
    have hdrops : drops = 0 := by
      have hleast := h.least
      by_contra hne
      have hmany : limit + 1 ≤ (limit + 1) * drops := Nat.le_mul_of_pos_right _ (by omega)
      omega
    have hnil : gone = [] := by
      have hmost := h.most
      rw [hdrops, Nat.mul_zero] at hmost
      exact List.length_eq_zero_iff.mp (Nat.le_zero.mp hmost)
    have hevents := h.events
    subst hdrops hnil
    rw [List.nil_append, hsome] at hlines
    rw [List.nil_append] at hrest
    rw [List.replicate_zero, List.append_nil] at hevents
    have hmap : (lines sep (stream ++ chunk.val)).map Event.line =
        events ++ (line :: later).map Event.line := by
      rw [hlines, List.map_append, hevents]
    rw [hsome]
    split
    · rename_i hover
      refine ⟨rest sep (input ++ chunk.val), 1, ?_, ?_, ?_, ?_, Nat.zero_le _⟩
      · rw [hmap, List.append_assoc]
        rfl
      · rw [hrest, List.append_nil]
      · rw [Nat.mul_one]
        exact hover
      · rw [Nat.mul_one]
        exact Nat.le_trans (rest_length_le _) hsize
    · rename_i hwithin
      refine ⟨[], 0, ?_, hrest, Nat.zero_le _, Nat.zero_le _, Nat.le_of_not_lt hwithin⟩
      rw [hmap, List.replicate_zero, List.append_nil]

/-- Run lemma. -/
theorem Account.read {stream : List α} {events : List (Event α)} {input gone : List α} {drops : ℕ}
    (h : Account sep limit size stream events input gone drops) (cut : List (Chunk α size))
    (hshort : ∀ line ∈ lines sep (stream ++ joined cut), line.length ≤ limit) :
    ∃ gone' drops', Account sep limit size (stream ++ joined cut)
      (events ++ (read sep limit input cut).1) (read sep limit input cut).2 gone' drops' := by
  induction cut generalizing stream events input gone drops with
  | nil =>
    refine ⟨gone, drops, ?_⟩
    rw [joined, List.flatMap_nil, List.append_nil, Lines.read, List.append_nil]
    exact h
  | cons chunk later ih =>
    have hjoined : stream ++ joined (chunk :: later) = (stream ++ chunk.val) ++ joined later :=
      (List.append_assoc _ _ _).symm
    rw [hjoined] at hshort ⊢
    obtain ⟨gone', drops', hfed⟩ := h.feed chunk fun line hline => hshort line (by
      rw [lines_append]
      exact List.mem_append_left _ hline)
    rw [Lines.read, ← List.append_assoc]
    exact ih hfed hshort

/-- The lines keep within the limit, and every way to drop the front of the rest again and again
takes the same number of drops. -/
structure Framed (sep : α) (limit size : ℕ) (stream : List α) : Prop where
  lines : ∀ line ∈ lines sep stream, line.length ≤ limit
  rest : (rest sep stream).length / (limit + 1) =
    ((rest sep stream).length + (size - 1)) / (limit + size)

/-- The number of drops lies between two quotients of the length of the rest. -/
theorem Account.drops {stream : List α} {events : List (Event α)} {input gone : List α} {drops : ℕ}
    (h : Account sep limit size stream events input gone drops) (hsize : 0 < size) :
    ((Lines.rest sep stream).length + (size - 1)) / (limit + size) ≤ drops ∧
      drops ≤ (Lines.rest sep stream).length / (limit + 1) := by
  have hleast := h.least
  have hmost := h.most
  have hkept := h.kept
  rw [h.left, List.length_append]
  constructor
  · rw [← Nat.lt_add_one_iff, Nat.div_lt_iff_lt_mul (by omega), Nat.add_mul, Nat.mul_comm drops]
    omega
  · rw [Nat.le_div_iff_mul_le (by omega), Nat.mul_comm drops]
    omega

/-- However such a stream is cut, the events are the same. -/
theorem Framed.events {stream : List α} (h : Framed sep limit size stream) (hsize : 0 < size)
    {cut : List (Chunk α size)} (hcut : joined cut = stream) :
    (Lines.read sep limit [] cut).1 = (Lines.lines sep stream).map Event.line ++
      List.replicate ((Lines.rest sep stream).length / (limit + 1)) .dropped := by
  have hstart : Account sep limit size [] [] [] [] 0 :=
    ⟨by rw [lines_of_not_mem List.not_mem_nil]; rfl, rest_of_not_mem List.not_mem_nil, Nat.zero_le _,
      Nat.zero_le _, Nat.zero_le _⟩
  subst hcut
  obtain ⟨gone, drops, haccount⟩ := hstart.read cut h.lines
  rw [List.nil_append, List.nil_append] at haccount
  obtain ⟨hmost, hleast⟩ := haccount.drops hsize
  rw [← h.rest] at hmost
  rw [haccount.events, Nat.le_antisymm hleast hmost]

/-! Cuts that tell a stream apart from itself. -/

/-- A part without a separator is kept while it stays within the limit, and dropped otherwise. -/
theorem feed_unended {input chunk : List α} (h : sep ∉ input ++ chunk) :
    feed sep limit input chunk =
      if limit < (input ++ chunk).length then ([.dropped], []) else ([], input ++ chunk) := by
  simp only [feed, lines_of_not_mem h, rest_of_not_mem h, List.map_nil, List.nil_append]

/-- With the separator the line is handed out, whatever its length. -/
theorem feed_ended {line input chunk : List α} (h : sep ∉ line) (hline : input ++ chunk = line ++ [sep]) :
    feed sep limit input chunk = ([.line line], []) := by
  have hlines := lines_ended h []
  have hrest := rest_ended h []
  rw [lines_of_not_mem List.not_mem_nil] at hlines
  rw [rest_of_not_mem List.not_mem_nil] at hrest
  simp only [feed, hline, hlines, hrest, List.length_nil, Nat.not_lt_zero, if_false, List.map_cons,
    List.map_nil]

/-- One chunk for each byte. -/
def singles (hsize : 0 < size) (bytes : List α) : List (Chunk α size) :=
  bytes.map fun byte => ⟨[byte], Nat.one_pos, hsize⟩

omit [DecidableEq α] in
theorem joined_singles (hsize : 0 < size) (bytes : List α) : joined (singles hsize bytes) = bytes := by
  induction bytes with
  | nil => rfl
  | cons byte later ih => exact congrArg (byte :: ·) ih

theorem read_singles (hsize : 0 < size) {input bytes : List α} (hfree : sep ∉ input ++ bytes)
    (hshort : (input ++ bytes).length ≤ limit) :
    read sep limit input (singles hsize bytes) = ([], input ++ bytes) := by
  induction bytes generalizing input with
  | nil => rw [List.append_nil]; rfl
  | cons byte later ih =>
    have hsplit : input ++ byte :: later = (input ++ [byte]) ++ later := by
      rw [List.append_assoc]
      rfl
    rw [hsplit] at hfree hshort ⊢
    have hfirst : sep ∉ input ++ [byte] := fun hmem => hfree (List.mem_append_left _ hmem)
    have hwithin : ¬ limit < (input ++ [byte]).length := by
      rw [List.length_append] at hshort
      omega
    have hstep : feed sep limit input [byte] = ([], input ++ [byte]) := by
      rw [feed_unended hfirst, if_neg hwithin]
    change (_ ++ _, _) = _
    rw [hstep]
    have hlater := ih hfree hshort
    rw [singles] at hlater
    rw [hlater]
    rfl

theorem read_front (limit : ℕ) (hsize : 0 < size) {bytes : List α} (hfree : sep ∉ bytes) :
    read sep limit [] (singles hsize (bytes.take limit)) = ([], bytes.take limit) :=
  read_singles hsize (fun hmem => hfree (List.mem_of_mem_take hmem)) (List.length_take_le _ _)

theorem read_ended (limit : ℕ) (hsize : 0 < size) {bytes : List α} (h : rest sep bytes = []) :
    (read sep limit [] (singles hsize bytes)).2 = [] :=
  read_whole (by rwa [joined_singles])

/-- Bytes that fill the limit and go over it with one chunk are dropped at once. -/
theorem exists_dropping (limit : ℕ) (hsize : 0 < size) {bytes : List α} (hfree : sep ∉ bytes)
    (hover : limit < bytes.length) (hmost : bytes.length ≤ limit + size) :
    ∃ cut : List (Chunk α size), joined cut = bytes ∧ read sep limit [] cut = ([.dropped], []) := by
  have hlast : 0 < (bytes.drop limit).length ∧ (bytes.drop limit).length ≤ size := by
    rw [List.length_drop]
    omega
  have hfirst := read_front limit hsize hfree
  have hstep : feed sep limit (bytes.take limit) (bytes.drop limit) = ([.dropped], []) := by
    rw [feed_unended (by rwa [List.take_append_drop]), List.take_append_drop, if_pos hover]
  refine ⟨singles hsize (bytes.take limit) ++ [⟨bytes.drop limit, hlast⟩], ?_, ?_⟩
  · rw [joined_append, joined_singles]
    change _ ++ (bytes.drop limit ++ []) = _
    rw [List.append_nil, List.take_append_drop]
  · rw [read_append, hfirst]
    simp only [read, hstep, List.nil_append, List.append_nil]

/-- One block less is one drop less. -/
theorem drops_succ {length extra : ℕ} (hpos : 0 < extra) (h : limit < length) :
    (length + (extra - 1)) / (limit + extra) =
      (length - (limit + extra) + (extra - 1)) / (limit + extra) + 1 := by
  have hsplit : length + (extra - 1) = (length - limit - 1) + (limit + extra) := by omega
  rw [hsplit, Nat.add_div_right _ (by omega)]
  congr 1
  by_cases hblock : limit + extra ≤ length
  · congr 1
    omega
  · rw [Nat.div_eq_of_lt (by omega), Nat.div_eq_of_lt (by omega)]

/-- Bytes can be dropped in blocks of any length over the limit that one chunk allows. -/
theorem exists_blocks (limit : ℕ) (hsize : 0 < size) {extra : ℕ} (hpos : 0 < extra)
    (hextra : extra ≤ size) (bytes : List α) (hfree : sep ∉ bytes) :
    ∃ (cut : List (Chunk α size)) (left : List α), joined cut = bytes ∧ sep ∉ left ∧
      left.length = bytes.length - (limit + extra) * ((bytes.length + (extra - 1)) / (limit + extra)) ∧
      read sep limit [] cut =
        (List.replicate ((bytes.length + (extra - 1)) / (limit + extra)) .dropped, left) := by
  by_cases hlong : limit < bytes.length
  · have hblock : sep ∉ bytes.take (limit + extra) := fun hmem => hfree (List.mem_of_mem_take hmem)
    have hlater : sep ∉ bytes.drop (limit + extra) := fun hmem => hfree (List.mem_of_mem_drop hmem)
    have hlength : (bytes.take (limit + extra)).length = min (limit + extra) bytes.length :=
      List.length_take
    obtain ⟨first, hfirst, hdropped⟩ := exists_dropping limit hsize hblock (by omega) (by omega)
    have hshorter : (bytes.drop (limit + extra)).length < bytes.length := by
      rw [List.length_drop]
      omega
    obtain ⟨cut, left, hcut, hleft, hcount, hread⟩ :=
      exists_blocks limit hsize hpos hextra (bytes.drop (limit + extra)) hlater
    rw [List.length_drop] at hcount hread
    refine ⟨first ++ cut, left, ?_, hleft, ?_, ?_⟩
    · rw [joined_append, hfirst, hcut, List.take_append_drop]
    · rw [drops_succ hpos hlong, hcount, Nat.mul_succ]
      omega
    · rw [read_append, hdropped, hread, drops_succ hpos hlong, List.replicate_succ]
      rfl
  · have hnone : (bytes.length + (extra - 1)) / (limit + extra) = 0 := Nat.div_eq_of_lt (by omega)
    refine ⟨singles hsize bytes, bytes, joined_singles hsize bytes, hfree, ?_, ?_⟩
    · rw [hnone, Nat.mul_zero, Nat.sub_zero]
    · rw [hnone]
      exact read_singles hsize hfree (Nat.le_of_not_lt hlong)
termination_by bytes.length

/-- A cut behind which the separator hands out what is left of the line. -/
theorem exists_remainder (limit : ℕ) (hsize : 0 < size) {line : List α} (hfree : sep ∉ line) :
    ∃ (cut : List (Chunk α size)) (left : List α), joined cut = line ++ [sep] ∧
      left.length = line.length % (limit + 1) ∧ (read sep limit [] cut).2 = [] ∧
      handed (read sep limit [] cut).1 = [left] := by
  obtain ⟨cut, left, hcut, hleft, hlength, hread⟩ :=
    exists_blocks limit hsize Nat.one_pos hsize line hfree
  have hended : feed sep limit left [sep] = ([.line left], []) := feed_ended hleft rfl
  refine ⟨cut ++ singles hsize [sep], left, ?_, ?_, ?_, ?_⟩
  · rw [joined_append, joined_singles, hcut]
  · rw [hlength, Nat.mod_eq_sub]
    rfl
  · rw [read_append, hread]
    simp only [singles, List.map_cons, List.map_nil, read, hended]
  · rw [read_append, hread]
    simp only [singles, List.map_cons, List.map_nil, read, hended, handed_append, handed_drops]
    rfl

theorem remainder_ne {length : ℕ} (hlimit : 0 < limit) (h : limit + 2 ≤ length) :
    length % (limit + 1) ≠ (length - (limit + 2)) % (limit + 1) := by
  obtain ⟨later, rfl⟩ := Nat.exists_eq_add_of_le' h
  rw [Nat.add_sub_cancel]
  intro hsame
  have hsplit : later + (limit + 2) = later + 1 + (limit + 1) := by omega
  rw [hsplit, Nat.add_mod_right] at hsame
  have hone : 1 ≡ 0 [MOD limit + 1] := Nat.ModEq.add_left_cancel' later hsame
  have := Nat.ModEq.eq_of_lt_of_lt hone (by omega) (by omega)
  omega

/-- A line over the limit can be cut in two ways that hand out different parts of it. -/
theorem exists_two_cuts (hlimit : 0 < limit) (hsize : 2 ≤ size) {line : List α} (hfree : sep ∉ line)
    (hlong : limit < line.length) :
    ∃ cut cut' : List (Chunk α size), joined cut = line ++ [sep] ∧ joined cut' = line ++ [sep] ∧
      (read sep limit [] cut).2 = [] ∧ (read sep limit [] cut').2 = [] ∧
      ∃ left left', handed (read sep limit [] cut).1 = [left] ∧
        handed (read sep limit [] cut').1 = [left'] ∧ left ≠ left' := by
  have hpos : 0 < size := by omega
  obtain ⟨cut, left, hcut, hlength, hend, hhanded⟩ := exists_remainder limit hpos hfree
  rcases Nat.eq_or_lt_of_le hlong with hone | hmore
  · -- the separator comes with the byte that goes over the limit
    have hlast : 0 < (line.drop limit ++ [sep]).length ∧ (line.drop limit ++ [sep]).length ≤ size := by
      rw [List.length_append, List.length_drop, List.length_singleton]
      omega
    have hfirst := read_front limit hpos hfree
    have hjoined : line.take limit ++ (line.drop limit ++ [sep]) = line ++ [sep] := by
      rw [← List.append_assoc, List.take_append_drop]
    have hended : feed sep limit (line.take limit) (line.drop limit ++ [sep]) = ([.line line], []) :=
      feed_ended hfree hjoined
    refine ⟨cut, singles hpos (line.take limit) ++ [⟨line.drop limit ++ [sep], hlast⟩], hcut, ?_, hend,
      ?_, left, line, hhanded, ?_, ?_⟩
    · rw [joined_append, joined_singles]
      change _ ++ (line.drop limit ++ [sep] ++ []) = _
      rw [List.append_nil, hjoined]
    · rw [read_append, hfirst]
      simp only [read, hended]
    · rw [read_append, hfirst]
      simp only [read, hended]
      rfl
    · rintro rfl
      rw [← hone, Nat.mod_self] at hlength
      omega
  · -- one byte more is dropped than there has to be
    have hlen : (line.take (limit + 2)).length = min (limit + 2) line.length := List.length_take
    have hblock : sep ∉ line.take (limit + 2) := fun hmem => hfree (List.mem_of_mem_take hmem)
    have hlater : sep ∉ line.drop (limit + 2) := fun hmem => hfree (List.mem_of_mem_drop hmem)
    obtain ⟨first, hfirst, hdropped⟩ := exists_dropping limit hpos hblock (by omega) (by omega)
    obtain ⟨cut', left', hcut', hlength', hend', hhanded'⟩ := exists_remainder limit hpos hlater
    refine ⟨cut, first ++ cut', hcut, ?_, hend, ?_, left, left', hhanded, ?_, ?_⟩
    · rw [joined_append, hfirst, hcut', ← List.append_assoc, List.take_append_drop]
    · rw [read_append, hdropped]
      exact hend'
    · rw [read_append, hdropped]
      exact hhanded'
    · rintro rfl
      rw [hlength, List.length_drop] at hlength'
      exact remainder_ne hlimit hmore hlength'

/-- A stream that no two cuts tell apart, by the lines handed out or by the number of events. -/
theorem framed_of_same (hlimit : 0 < limit) (hsize : 2 ≤ size) {stream : List α}
    (hsame : ∀ cut cut' : List (Chunk α size), joined cut = stream → joined cut' = stream →
      handed (read sep limit [] cut).1 = handed (read sep limit [] cut').1 ∧
        (read sep limit [] cut).1.length = (read sep limit [] cut').1.length) :
    Framed sep limit size stream := by
  have hpos : 0 < size := by omega
  constructor
  · intro line hline
    by_contra hlong
    obtain ⟨front, back, rfl, hfront, hfree⟩ := exists_split hline
    obtain ⟨cut, cut', hcut, hcut', hend, hend', left, left', hleft, hleft', hne⟩ :=
      exists_two_cuts hlimit hsize hfree (Nat.lt_of_not_le hlong)
    have hwhole := read_ended limit hpos hfront
    have hjoined (middle : List (Chunk α size)) (h : joined middle = line ++ [sep]) :
        joined (singles hpos front ++ (middle ++ singles hpos back)) = front ++ (line ++ sep :: back) := by
      rw [joined_append, joined_append, joined_singles, joined_singles, h, List.append_assoc]
      rfl
    obtain ⟨hlines, -⟩ := hsame _ _ (hjoined cut hcut) (hjoined cut' hcut')
    simp only [read_append, hwhole, hend, hend', handed_append, hleft, hleft'] at hlines
    rw [List.append_cancel_left_eq] at hlines
    exact hne (List.cons.inj hlines).1
  · obtain ⟨front, hstream, hfront⟩ := exists_whole sep stream
    obtain ⟨cut, left, hcut, -, -, hread⟩ :=
      exists_blocks limit hpos Nat.one_pos hpos (rest sep stream) (not_mem_rest sep stream)
    obtain ⟨cut', left', hcut', -, -, hread'⟩ :=
      exists_blocks limit hpos hpos le_rfl (rest sep stream) (not_mem_rest sep stream)
    have hwhole := read_ended limit hpos hfront
    have hjoined (later : List (Chunk α size)) (h : joined later = rest sep stream) :
        joined (singles hpos front ++ later) = stream := by
      rw [joined_append, joined_singles, h, ← hstream]
    obtain ⟨-, hcount⟩ := hsame _ _ (hjoined cut hcut) (hjoined cut' hcut')
    simp only [read_append, hwhole, hread, hread', List.length_append, List.length_replicate,
      Nat.add_left_cancel_iff] at hcount
    exact hcount

end Culina.Lines
