import Culina.RemoteCalls
import Culina.Transport

/-!
The queues of the simulator. Between two reads no direction of its transport holds more than four frames,
so a ring of 4096 bytes refuses nothing, and the processors may be modelled over queues without end.
-/
namespace Culina.Occupancy

open Wire Layout Writer Ports Supervision SerialLink Client Replies Simulator Lockstep Device RemoteCalls
open Transport Runs Safety Cooking

/-! Writes that fit. -/

/-- Writes that fit together are taken whole. -/
theorem writes_fit {t : InMemoryTransport} (h : Intact t) (side : Endpoint) (pieces : List (List Byte))
    (hfits : (t.tx side).contents.length + pieces.flatten.length ≤ kQueueCapacity) :
    (answers act t (pieces.map (Transport.Action.write side))).1 = pieces.map fun piece => .written piece.length := by
  induction pieces generalizing t with
  | nil => rfl
  | cons piece rest ih =>
    obtain ⟨hkept, hcount, hcontents⟩ := write_spec h side piece
    rw [List.flatten_cons, List.length_append, Rings.RingBuffer.contents_length] at hfits
    have hwhole : (t.write side piece).1 = piece.length := by
      rw [hcount]
      omega
    have hroom : ((t.write side piece).2.tx side).contents.length + rest.flatten.length ≤ kQueueCapacity := by
      rw [hcontents side, if_pos rfl, hwhole, List.take_length, List.length_append,
        Rings.RingBuffer.contents_length]
      omega
    rw [List.map_cons, List.map_cons]
    change Outcome.written (t.write side piece).1 :: (answers act (t.write side piece).2 _).1 = _
    rw [hwhole, ih hkept hroom]

/-! What is under way. -/

theorem flatMap_wireBytes_length {frames : List Frame} (hshort : ∀ f ∈ frames, f.payloadLen ≤ kMaxPayload) :
    (frames.flatMap (wireBytes kVersion)).length ≤ kMaxFrameSize * frames.length := by
  induction frames with
  | nil => exact Nat.zero_le _
  | cons f frames ih =>
    obtain ⟨hfirst, hrest⟩ := List.forall_mem_cons.mp hshort
    have hlater := ih hrest
    have hlen := wireBytes_length kVersion f hfirst
    have hroom : kMaxFrameSize = 10 + kMaxPayload := rfl
    rw [List.flatMap_cons, List.length_append, List.length_cons, Nat.mul_succ, hlen]
    omega

theorem published_length (publisher : TelemetryPublisher) (data : TelemetryData) (now : Millis) :
    (published publisher data now).1.length ≤ 2 := by
  unfold published
  split_ifs <;> dsimp only <;> split_ifs <;> simp

variable {P : Type} {s : SystemSim P} {frames : List Frame}

/-- At most two frames wait for a tick, and at most four for a poll. -/
theorem Linked.bytes (h : Linked s frames) :
    s.appToMcu.length ≤ kMaxFrameSize * 2 ∧ s.mcuToApp.length ≤ kMaxFrameSize * 4 := by
  have hrequests := h.client.outstanding.requests h.client.payload
  have hfew := h.length
  obtain ⟨-, -, hhandles⟩ := h.found
  obtain ⟨-, -, htold, hshort⟩ := h.mcuToApp
  constructor
  · rw [h.appToMcu]
    exact (flatMap_wireBytes_length fun f hf => (hrequests f hf).2).trans (Nat.mul_le_mul_left _ hfew)
  · rw [htold]
    refine (flatMap_wireBytes_length hshort).trans (Nat.mul_le_mul_left _ ?_)
    have hhandled : (handled s).length = frames.length := by
      have := congrArg List.length hhandles.same
      rwa [List.length_map, List.length_map] at this
    have hanswers := List.length_filterMap_le answered (handled s)
    have hpublished : (publishing s).length ≤ 2 := published_length _ _ _
    rw [List.length_append]
    omega

/-- What the processor at an end writes between two reads at the other. -/
def written (s : SystemSim P) : Endpoint → List Byte
  | .app => s.appToMcu
  | .mcu => s.mcuToApp

/-- However the processors divide what they write between two reads, the empty rings of the transport
take every piece of it whole. -/
theorem queues_fit [Program Link P] (h : Operated s) (side : Endpoint) (pieces : List (List Byte))
    (hpieces : pieces.flatten <+: written s side)
    {t : InMemoryTransport} (hintact : Intact t) (hempty : (t.tx side).contents = []) :
    (answers act t (pieces.map (Transport.Action.write side))).1 =
      pieces.map fun piece => .written piece.length := by
  obtain ⟨frames, hlinked⟩ := linked_of_operated h
  obtain ⟨hthere, hback⟩ := Linked.bytes hlinked
  have hfront := hpieces.length_le
  have hroom : kMaxFrameSize * 4 ≤ kQueueCapacity := by decide
  refine writes_fit hintact side pieces ?_
  rw [hempty, List.length_nil, Nat.zero_add]
  cases side with
  | app => exact (hfront.trans hthere).trans (by omega)
  | mcu => exact (hfront.trans hback).trans hroom

theorem queues_fit_asking : (answers act {} [Transport.Action.write .app asking.appToMcu]).1 =
    [.written asking.appToMcu.length] :=
  queues_fit asking_operated .app [asking.appToMcu] (by simp [written]) intact_initial rfl

end Culina.Occupancy
