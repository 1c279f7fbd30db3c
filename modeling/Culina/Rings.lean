import Culina.BoundedQueue
import Culina.Wire
import Mathlib.Data.Nat.ModEq

/-!
The ring buffer. Its count tells a full ring from an empty one, so every slot is used: the
bytes from the tail on, as many as are counted, are the items of a queue with room for the
whole capacity.
-/
namespace Culina.Rings

open Wire Runs BoundedQueue

structure RingBuffer (capacity : ℕ) where
  buf : Vector Byte capacity := Vector.replicate capacity 0
  head : ℕ := 0
  tail : ℕ := 0
  count : ℕ := 0
deriving DecidableEq

namespace RingBuffer

variable {capacity : ℕ}

def push (ring : RingBuffer capacity) (byte : Byte) : Bool × RingBuffer capacity :=
  if ring.count = capacity then (false, ring)
  else
    (true, { ring with
      buf := ring.buf.setIfInBounds ring.head byte
      head := (ring.head + 1) % capacity
      count := ring.count + 1 })

def pop (ring : RingBuffer capacity) : Option Byte × RingBuffer capacity :=
  if ring.count = 0 then (none, ring)
  else
    (ring.buf[ring.tail]?, { ring with
      tail := (ring.tail + 1) % capacity
      count := ring.count - 1 })

def empty (ring : RingBuffer capacity) : Bool := ring.count = 0

def size (ring : RingBuffer capacity) : ℕ := ring.count

/-! The bytes held. -/

def slot (ring : RingBuffer capacity) (i : ℕ) : Byte := (ring.buf[i]?).getD 0

/-- From the oldest byte on. -/
def contents (ring : RingBuffer capacity) : List Byte :=
  (List.range ring.count).map fun k => ring.slot ((ring.tail + k) % capacity)

@[simp] theorem contents_length (ring : RingBuffer capacity) : ring.contents.length = ring.count := by
  rw [contents, List.length_map, List.length_range]

/-- The head is behind the bytes counted from the tail, and both are slots of the array. -/
structure Consistent (ring : RingBuffer capacity) : Prop where
  head_lt : ring.head < capacity
  tail_lt : ring.tail < capacity
  count_le : ring.count ≤ capacity
  wraps : ring.head = (ring.tail + ring.count) % capacity

theorem initial_consistent (h : 0 < capacity) : Consistent ({} : RingBuffer capacity) :=
  ⟨h, h, Nat.zero_le _, (Nat.zero_mod _).symm⟩

/-- Within one round no slot is met twice. -/
theorem slot_injective (tail : ℕ) {k m : ℕ} (hk : k < capacity) (hm : m < capacity)
    (h : (tail + k) % capacity = (tail + m) % capacity) : k = m :=
  Nat.ModEq.eq_of_lt_of_lt (Nat.ModEq.add_left_cancel' tail h) hk hm

theorem slot_setIfInBounds {ring : RingBuffer capacity} {i : ℕ} (hi : i < capacity) (byte : Byte)
    (j : ℕ) : ((ring.buf.setIfInBounds i byte)[j]?).getD 0 = if i = j then byte else ring.slot j := by
  by_cases hij : i = j
  · subst hij
    rw [if_pos rfl, Vector.getElem?_setIfInBounds_self_of_lt hi]
    rfl
  · rw [if_neg hij, Vector.getElem?_setIfInBounds_ne hij]
    rfl

/-! Pushes and pops keep the ring consistent and move its bytes as a queue does. -/

variable {ring : RingBuffer capacity}

theorem push_of_full (h : ring.count = capacity) (byte : Byte) : ring.push byte = (false, ring) := by
  rw [push, if_pos h]

theorem push_of_lt (hring : Consistent ring) (h : ring.count < capacity) (byte : Byte) :
    (ring.push byte).1 = true ∧ Consistent (ring.push byte).2 ∧
      (ring.push byte).2.contents = ring.contents ++ [byte] := by
  have hpos : 0 < capacity := Nat.zero_lt_of_lt h
  rw [push, if_neg (Nat.ne_of_lt h)]
  refine ⟨rfl, ⟨Nat.mod_lt _ hpos, hring.tail_lt, h, ?_⟩, ?_⟩
  · change (ring.head + 1) % capacity = (ring.tail + (ring.count + 1)) % capacity
    rw [hring.wraps, Nat.mod_add_mod, Nat.add_assoc]
  · have hslot (k : ℕ) : ({ ring with
        buf := ring.buf.setIfInBounds ring.head byte
        head := (ring.head + 1) % capacity
        count := ring.count + 1 } : RingBuffer capacity).slot k =
          if ring.head = k then byte else ring.slot k := slot_setIfInBounds hring.head_lt byte k
    simp only [contents, List.range_succ, List.map_append, List.map_cons, List.map_nil, hslot]
    rw [← hring.wraps, if_pos rfl]
    congr 1
    apply List.map_congr_left
    intro k hk
    have hold : k < ring.count := List.mem_range.mp hk
    rw [if_neg]
    intro hsame
    rw [hring.wraps] at hsame
    have := slot_injective ring.tail h (hold.trans h) hsame
    omega

theorem pop_of_empty (h : ring.count = 0) : ring.pop = (none, ring) := by
  rw [pop, if_pos h]

theorem pop_of_pos (hring : Consistent ring) (h : 0 < ring.count) :
    ∃ byte, ring.pop.1 = some byte ∧ Consistent ring.pop.2 ∧
      ring.contents = byte :: ring.pop.2.contents := by
  obtain ⟨n, hn⟩ := Nat.exists_eq_add_of_le' h
  rw [pop, if_neg (Nat.ne_of_gt h)]
  have hpos : 0 < capacity := Nat.zero_lt_of_lt hring.tail_lt
  have hcount := hring.count_le
  refine ⟨ring.slot ring.tail, ?_, ⟨hring.head_lt, Nat.mod_lt _ hpos, ?_, ?_⟩, ?_⟩
  · rw [slot, Vector.getElem?_eq_getElem hring.tail_lt]
    rfl
  · change ring.count - 1 ≤ capacity
    omega
  · change ring.head = ((ring.tail + 1) % capacity + (ring.count - 1)) % capacity
    have hsame : ring.tail + 1 + (ring.count - 1) = ring.tail + ring.count := by omega
    rw [Nat.mod_add_mod, hsame, hring.wraps]
  · simp only [contents, hn, List.range_succ_eq_map, List.map_cons, List.map_map, Nat.add_sub_cancel]
    congr 1
    · rw [Nat.add_zero, Nat.mod_eq_of_lt hring.tail_lt]
    · apply List.map_congr_left
      intro k _
      change ring.slot ((ring.tail + (k + 1)) % capacity) =
        ring.slot (((ring.tail + 1) % capacity + k) % capacity)
      rw [Nat.mod_add_mod, Nat.add_assoc, Nat.add_comm 1 k]

/-! The ring refines the queue. -/

/-- The queue that a ring stands for. -/
structure Represents (ring : RingBuffer capacity) (q : Queue Byte capacity) : Prop where
  consistent : Consistent ring
  contents : ring.contents = q.items

theorem Consistent.queue (h : Consistent ring) : ∃ q, Represents ring q :=
  ⟨⟨ring.contents, by rw [contents_length]; exact h.count_le⟩, h, rfl⟩

theorem Represents.count {q : Queue Byte capacity} (h : Represents ring q) :
    ring.count = q.items.length := by
  rw [← h.contents, contents_length]

theorem initial_represents (h : 0 < capacity) :
    Represents ({} : RingBuffer capacity) ({} : Queue Byte capacity) := ⟨initial_consistent h, rfl⟩

theorem push_simulates : Simulates Represents (@push capacity) Queue.push := by
  intro ring q h byte
  have hcount := h.count
  by_cases hfull : ring.count = capacity
  · rw [push_of_full hfull, Queue.push_of_full (hcount.symm.trans hfull)]
    exact ⟨rfl, h⟩
  · have hroom : ring.count < capacity := lt_of_le_of_ne h.consistent.count_le hfull
    obtain ⟨haccepted, hkept, hcontents⟩ := push_of_lt h.consistent hroom byte
    obtain ⟨haccepted', hitems⟩ := Queue.push_of_lt (hcount ▸ hroom) byte
    refine ⟨haccepted.trans haccepted'.symm, hkept, ?_⟩
    rw [hcontents, hitems, h.contents]

theorem pop_simulates (ring : RingBuffer capacity) (q : Queue Byte capacity) (h : Represents ring q) :
    ring.pop.1 = q.pop.1 ∧ Represents ring.pop.2 q.pop.2 := by
  rcases Nat.eq_zero_or_pos ring.count with hempty | hpos
  · have hnil : q.items = [] := List.length_eq_zero_iff.mp (h.count.symm.trans hempty)
    rw [pop_of_empty hempty, Queue.pop_of_nil hnil]
    exact ⟨rfl, h⟩
  · obtain ⟨byte, hbyte, hkept, hcontents⟩ := pop_of_pos h.consistent hpos
    obtain ⟨hfirst, hrest⟩ := Queue.pop_of_cons (h.contents.symm.trans hcontents)
    exact ⟨hbyte.trans hfirst.symm, hkept, hrest.symm⟩

/-- What a ring answers is what its queue would answer. -/
theorem operate_refines : Simulates Represents (operate (@push capacity) pop)
    (operate Queue.push Queue.pop) := operate_simulates push_simulates pop_simulates

/-- A writer gets in what there is room for. -/
theorem offer_spec (h : Consistent ring) (data : List Byte) :
    Consistent (offer push ring data).2 ∧
      (offer push ring data).1 = min data.length (capacity - ring.count) ∧
      (offer push ring data).2.contents = ring.contents ++ data.take (offer push ring data).1 := by
  obtain ⟨q, hq⟩ := h.queue
  obtain ⟨hsame, hnext⟩ := offer_simulates push_simulates ring q hq data
  refine ⟨hnext.consistent, ?_, ?_⟩
  · rw [hsame, offer_count, hq.count]
  · rw [hnext.contents, offer_items, hsame, hq.contents]

/-- A reader gets the oldest byte. -/
theorem pop_spec (h : Consistent ring) :
    Consistent ring.pop.2 ∧ ring.pop.1 = ring.contents.head? ∧ ring.pop.2.contents = ring.contents.tail := by
  rcases Nat.eq_zero_or_pos ring.count with hempty | hpos
  · have hnil : ring.contents = [] := List.length_eq_zero_iff.mp (ring.contents_length.trans hempty)
    rw [pop_of_empty hempty]
    refine ⟨h, ?_, ?_⟩
    · rw [hnil]
      rfl
    · rw [hnil]
      rfl
  · obtain ⟨byte, hbyte, hkept, hcontents⟩ := pop_of_pos h hpos
    rw [hcontents]
    exact ⟨hkept, hbyte, rfl⟩

end RingBuffer

end Culina.Rings
