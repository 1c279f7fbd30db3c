import Culina.Rings

/-!
The in-memory transport: two ring buffers back to back, one for each direction. What an end
was told it has written arrives at the other end, in order and once.
-/
namespace Culina.Transport

open Wire Runs BoundedQueue Rings

abbrev kQueueCapacity : ℕ := 4096

inductive Endpoint where
  | app
  | mcu
deriving DecidableEq

def Endpoint.other : Endpoint → Endpoint
  | app => mcu
  | mcu => app

structure InMemoryTransport where
  appToMcu : RingBuffer kQueueCapacity := {}
  mcuToApp : RingBuffer kQueueCapacity := {}

namespace InMemoryTransport

/-- The queue an end writes to. -/
def tx (t : InMemoryTransport) : Endpoint → RingBuffer kQueueCapacity
  | .app => t.appToMcu
  | .mcu => t.mcuToApp

/-- The queue an end reads from. -/
def rx (t : InMemoryTransport) (side : Endpoint) : RingBuffer kQueueCapacity := t.tx side.other

def setTx (t : InMemoryTransport) (side : Endpoint) (queue : RingBuffer kQueueCapacity) :
    InMemoryTransport :=
  match side with
  | .app => { t with appToMcu := queue }
  | .mcu => { t with mcuToApp := queue }

/-- Bytes are pushed until the queue refuses one; the count of those pushed is returned. -/
def write (t : InMemoryTransport) (side : Endpoint) (data : List Byte) : ℕ × InMemoryTransport :=
  let (written, queue) := offer RingBuffer.push (t.tx side) data
  (written, t.setTx side queue)

def read (t : InMemoryTransport) (side : Endpoint) : Option Byte × InMemoryTransport :=
  let (out, queue) := (t.rx side).pop
  (out, t.setTx side.other queue)

theorem tx_setTx (t : InMemoryTransport) (side other : Endpoint) (queue : RingBuffer kQueueCapacity) :
    (t.setTx side queue).tx other = if side = other then queue else t.tx other := by
  cases side <;> cases other <;> rfl

end InMemoryTransport

/-! Runs. -/

inductive Action where
  | write (side : Endpoint) (data : List Byte)
  | read (side : Endpoint)

inductive Outcome where
  | written (count : ℕ)
  | out (byte : Option Byte)
deriving DecidableEq

def act (t : InMemoryTransport) : Action → Outcome × InMemoryTransport
  | .write side data => (.written (t.write side data).1, (t.write side data).2)
  | .read side => (.out (t.read side).1, (t.read side).2)

/-- What an end was told it has written. -/
def sentBy (side : Endpoint) : Action × Outcome → List Byte
  | (.write writer data, .written count) => if writer = side then data.take count else []
  | _ => []

def receivedBy (side : Endpoint) : Action × Outcome → List Byte
  | (.read reader, .out byte) => if reader = side then byte.toList else []
  | _ => []

/-- Both directions are consistent rings. -/
def Intact (t : InMemoryTransport) : Prop := ∀ side, (t.tx side).Consistent

theorem intact_initial : Intact {} := by
  intro side
  cases side <;> exact RingBuffer.initial_consistent (by decide)

theorem Intact.setTx {t : InMemoryTransport} (h : Intact t) {side : Endpoint}
    {queue : RingBuffer kQueueCapacity} (hqueue : queue.Consistent) : Intact (t.setTx side queue) := by
  intro other
  rw [InMemoryTransport.tx_setTx]
  split
  · exact hqueue
  · exact h other

theorem write_spec {t : InMemoryTransport} (h : Intact t) (side : Endpoint) (data : List Byte) :
    Intact (t.write side data).2 ∧
      (t.write side data).1 = min data.length (kQueueCapacity - (t.tx side).count) ∧
      ∀ other, ((t.write side data).2.tx other).contents = (t.tx other).contents ++
        if side = other then data.take (t.write side data).1 else [] := by
  obtain ⟨hkept, hcount, hcontents⟩ := RingBuffer.offer_spec (h side) data
  refine ⟨h.setTx hkept, hcount, fun other => ?_⟩
  change ((t.setTx side _).tx other).contents = _
  rw [InMemoryTransport.tx_setTx]
  by_cases hside : side = other
  · subst hside
    rw [if_pos rfl, if_pos rfl]
    exact hcontents
  · rw [if_neg hside, if_neg hside, List.append_nil]

theorem read_spec {t : InMemoryTransport} (h : Intact t) (side : Endpoint) :
    Intact (t.read side).2 ∧ (t.read side).1 = (t.rx side).contents.head? ∧
      ∀ other, (t.tx other).contents =
        (if side.other = other then (t.read side).1.toList else []) ++
          ((t.read side).2.tx other).contents := by
  obtain ⟨hkept, hout, hcontents⟩ := RingBuffer.pop_spec (h side.other)
  refine ⟨h.setTx hkept, hout, fun other => ?_⟩
  change _ = _ ++ ((t.setTx side.other _).tx other).contents
  rw [InMemoryTransport.tx_setTx]
  by_cases hside : side.other = other
  · subst hside
    rw [if_pos rfl, if_pos rfl]
    change _ = (t.rx side).pop.1.toList ++ (t.rx side).pop.2.contents
    rw [InMemoryTransport.rx, hout, hcontents]
    cases (t.tx side.other).contents <;> rfl
  · rw [if_neg hside, if_neg hside, List.nil_append]

/-- Step lemma: what a direction held and is given is what it gives up and holds. -/
theorem act_conserves {t : InMemoryTransport} (h : Intact t) (action : Action) (side : Endpoint) :
    Intact (act t action).2 ∧
      (t.tx side).contents ++ sentBy side (action, (act t action).1) =
        receivedBy side.other (action, (act t action).1) ++ ((act t action).2.tx side).contents := by
  cases action with
  | write writer data =>
    obtain ⟨hkept, -, hcontents⟩ := write_spec h writer data
    exact ⟨hkept, (hcontents side).symm⟩
  | read reader =>
    obtain ⟨hkept, -, hcontents⟩ := read_spec h reader
    refine ⟨hkept, ?_⟩
    have hdirection : reader.other = side ↔ reader = side.other := by
      cases reader <;> cases side <;> decide
    have hside := hcontents side
    simp only [hdirection] at hside
    change _ ++ [] = _
    rw [List.append_nil]
    exact hside

/-- Run lemma. -/
theorem answers_conserve {t : InMemoryTransport} (h : Intact t) (actions : List Action)
    (side : Endpoint) :
    Intact (answers act t actions).2 ∧
      (t.tx side).contents ++ (actions.zip (answers act t actions).1).flatMap (sentBy side) =
        (actions.zip (answers act t actions).1).flatMap (receivedBy side.other) ++
          ((answers act t actions).2.tx side).contents := by
  induction actions generalizing t with
  | nil => exact ⟨h, List.append_nil _⟩
  | cons action rest ih =>
    obtain ⟨hnext, hstep⟩ := act_conserves h action side
    obtain ⟨hend, hrest⟩ := ih hnext
    refine ⟨hend, ?_⟩
    simp only [answers, List.zip_cons_cons, List.flatMap_cons]
    rw [← List.append_assoc, hstep, List.append_assoc, hrest, List.append_assoc]

/-- A ring answers as a queue with room for its capacity does, and each direction of the transport
delivers, in order and once, the front of each write that the write was told went in. -/
theorem ring_buffer_fifo :
    (∀ capacity, 2 ≤ capacity → ∀ operations : List (Operation Byte),
      let ring := answers (operate RingBuffer.push RingBuffer.pop) ({} : RingBuffer capacity) operations
      let fifo := answers (operate Queue.push Queue.pop) ({} : Queue Byte capacity) operations
      ring.1 = fifo.1 ∧ ring.2.contents = fifo.2.items ∧ ring.2.size = fifo.2.items.length ∧
        (ring.2.empty = true ↔ fifo.2.items = []) ∧ ring.2.Consistent) ∧
    ∀ (actions : List Action) (side : Endpoint),
      let log := actions.zip (answers act {} actions).1
      let t := (answers act {} actions).2
      log.flatMap (sentBy side) = log.flatMap (receivedBy side.other) ++ (t.tx side).contents ∧
        (t.read side.other).1 = (t.tx side).contents.head? ∧
        ∀ data, (t.write side data).1 = min data.length (kQueueCapacity - (t.tx side).size) ∧
          ((t.write side data).2.tx side).contents =
            (t.tx side).contents ++ data.take (t.write side data).1 := by
  constructor
  · intro capacity hcapacity operations
    have hpos : 0 < capacity := by omega
    obtain ⟨hanswers, hend⟩ :=
      RingBuffer.operate_refines.answers (RingBuffer.initial_represents hpos) operations
    refine ⟨hanswers, hend.contents, hend.count, ?_, hend.consistent⟩
    rw [RingBuffer.empty, decide_eq_true_iff, hend.count, List.length_eq_zero_iff]
  · intro actions side
    obtain ⟨hintact, hconserved⟩ := answers_conserve intact_initial actions side
    have hempty : (InMemoryTransport.tx {} side).contents = [] := by
      cases side <;> rfl
    rw [hempty, List.nil_append] at hconserved
    have hother : side.other.other = side := by
      cases side <;> rfl
    refine ⟨hconserved, ?_, fun data => ?_⟩
    · obtain ⟨-, hout, -⟩ := read_spec hintact side.other
      rw [hout, InMemoryTransport.rx, hother]
    · obtain ⟨-, hcount, hcontents⟩ := write_spec hintact side data
      refine ⟨hcount, ?_⟩
      rw [hcontents side, if_pos rfl]

/-- A full ring of two slots, and one that has wrapped. -/
def wrapping : List (Operation Byte) :=
  [.push 1, .push 2, .push 3, .pop, .push 4, .pop, .pop, .pop]

theorem ring_buffer_fifo_wrapping :
    (answers (operate RingBuffer.push RingBuffer.pop) ({} : RingBuffer 2) wrapping).1 =
      [.pushed true, .pushed true, .pushed false, .popped (some 1), .pushed true, .popped (some 2),
        .popped (some 4), .popped none] :=
  (ring_buffer_fifo.1 2 (by decide) wrapping).1.trans (by decide)

end Culina.Transport
