import Culina.WholeFrames
import Culina.Client
import Culina.Counters

/-!
The timer of the client. Requests, retries and heartbeats share it, and a request holds
the heartbeat back for 150 ms at most, so a client that is polled every millisecond
transmits something every second. The times are true milliseconds.
-/
namespace Culina.Heartbeat

open Wire Layout Framing Writer Ports SerialLink WholeFrames Counters Client McuClient

/-- What a clock shows that showed `start` at time zero. -/
def shown (start time : ℕ) : Millis := BitVec.ofNat 32 (start + time)

theorem shown_sub {start time earlier : ℕ} (hle : earlier ≤ time) (hfits : time - earlier < 2 ^ 32) :
    (shown start time - shown start earlier).toNat = time - earlier := by
  rw [shown, shown, ofNat_sub_ofNat (by omega) (by omega)]
  omega

/-- The timer of a client whose last transmission was at this time, at most `age` ago; a request that
is out began at most `wait` ago. -/
structure Timely (start time age wait : ℕ) (lastSentAt : Option ℕ) (c : McuClient Link) : Prop where
  clear : Clear c.link
  payload : c.pendingPayload.length ≤ kMaxPayload
  sent : ∀ t, lastSentAt = some t → c.lastTxMs = shown start t ∧ t ≤ time ∧ time ≤ t + age
  waiting : c.waiting = true → ∃ started t, lastSentAt = some t ∧ started ≤ t ∧
    c.requestStartedMs = shown start started ∧ time ≤ started + wait

/-- A client is timely by the bounds before a poll when it is by those behind one. -/
theorem Timely.weaken {start time : ℕ} {polled : Bool} {lastSentAt : Option ℕ} {c : McuClient Link}
    (h : Timely start time (if polled then 999 else 1000) (if polled then 149 else 150) lastSentAt c) :
    Timely start time 1000 150 lastSentAt c := by
  refine ⟨h.clear, h.payload, fun t ht => ?_, fun hwaiting => ?_⟩
  · obtain ⟨hlast, hle, hage⟩ := h.sent t ht
    refine ⟨hlast, hle, hage.trans ?_⟩
    split <;> omega
  · obtain ⟨started, t, ht, hle, hstarted, hwait⟩ := h.waiting hwaiting
    refine ⟨started, t, ht, hle, hstarted, hwait.trans ?_⟩
    split <;> omega

theorem Timely.elapse {start time : ℕ} {lastSentAt : Option ℕ} {c : McuClient Link}
    (h : Timely start time 999 149 lastSentAt c) : Timely start (time + 1) 1000 150 lastSentAt c := by
  refine ⟨h.clear, h.payload, fun t ht => ?_, fun hwaiting => ?_⟩
  · obtain ⟨hlast, hle, hage⟩ := h.sent t ht
    exact ⟨hlast, by omega, by omega⟩
  · obtain ⟨started, t, ht, hle, hstarted, hwait⟩ := h.waiting hwaiting
    exact ⟨started, t, ht, hle, hstarted, by omega⟩

/-- What an operation of the client writes: nothing, or one request. -/
inductive Launched (c : McuClient Link) (time : ℕ) (lastSentAt : Option ℕ) (c' : McuClient Link) :
    Option ℕ → Prop
  | nothing (wire : c'.link.uart.wire = c.link.uart.wire) : Launched c time lastSentAt c' lastSentAt
  | frame (f : Frame) (type : f.type = .request) (short : f.payloadLen ≤ kMaxPayload)
      (wire : c'.link.uart.wire = c.link.uart.wire ++ wireBytes kVersion f) :
      Launched c time lastSentAt c' (some time)

theorem Launched.same {c c₁ c₂ : McuClient Link} {time : ℕ} {last last' : Option ℕ}
    (h : Launched c time last c₁ last') (hwire : c₂.link.uart.wire = c₁.link.uart.wire) :
    Launched c time last c₂ last' := by
  cases h with
  | nothing wire => exact Launched.nothing (hwire.trans wire)
  | frame f type short wire => exact Launched.frame f type short (hwire.trans wire)

variable {start time age wait : ℕ} {last last' : Option ℕ} {c c' : McuClient Link}

theorem request_timely (h : Timely start time age wait last c) (id : MsgId) (payload : List Byte) :
    ∃ last', Launched c time last (c.request (shown start time) id payload).2 last' ∧
      Timely start time age wait last' (c.request (shown start time) id payload).2 := by
  have hrequest := request_requested c (shown start time) id payload
  generalize (c.request (shown start time) id payload).1 = status at hrequest
  generalize (c.request (shown start time) id payload).2 = c' at hrequest
  cases hrequest with
  | accepted accepts =>
    obtain ⟨-, hclear, hwire⟩ := send_clear h.clear .request c.nextSeq id accepts.payloadLen
    refine ⟨some time, Launched.frame _ rfl accepts.payloadLen hwire, hclear, accepts.payloadLen, ?_, ?_⟩
    · intro t ht
      cases ht
      exact ⟨rfl, le_rfl, Nat.le_add_right _ _⟩
    · exact fun _ => ⟨time, time, rfl, le_rfl, rfl, Nat.le_add_right _ _⟩
  | unsent status _ _ sends failed =>
    refine ⟨last, ?_⟩
    by_cases hlen : payload.length ≤ kMaxPayload
    · obtain ⟨hok, -⟩ := send_clear h.clear .request c.nextSeq id hlen
      exact absurd (sends.symm.trans hok) failed
    · have hsame : LinkPort.send c.link .request c.nextSeq id payload = (.invalidArgument, c.link) :=
        if_pos (not_le.mp hlen)
      rw [hsame]
      exact ⟨Launched.nothing rfl, h.clear, h.payload, h.sent, h.waiting⟩
  | refused _ _ => exact ⟨last, Launched.nothing rfl, h⟩

/-- The timers end a request that is 150 ms old. -/
theorem timed_timely (h : Timely start time 1000 150 last c)
    (htimed : Timed c (shown start time) c') :
    ∃ last', Launched c time last c' last' ∧ Timely start time 1000 149 last' c' := by
  have hearly : c.waiting = true → shown start time - c.requestStartedMs < kRequestDeadlineMs →
      ∃ started t, last = some t ∧ started ≤ t ∧ c.requestStartedMs = shown start started ∧
        time ≤ started + 149 := by
    intro hwaiting hearly
    obtain ⟨started, t, ht, hle, hstarted, hage⟩ := h.waiting hwaiting
    have hsent := h.sent t ht
    rw [hstarted, BitVec.lt_def, shown_sub (by omega) (by omega)] at hearly
    have hdeadline : kRequestDeadlineMs.toNat = 150 := rfl
    exact ⟨started, t, ht, hle, hstarted, by omega⟩
  cases htimed with
  | quiet early =>
    refine ⟨last, Launched.nothing rfl, h.clear, h.payload, h.sent, fun hwaiting => ?_⟩
    exact hearly hwaiting (early hwaiting)
  | gaveUp _ =>
    obtain ⟨hclear, hwire⟩ := cancel_clear h.clear
    exact ⟨last, Launched.nothing hwire, hclear, h.payload, h.sent, fun hwaiting => Bool.noConfusion hwaiting⟩
  | unsent _ _ _ failed => exact absurd (send_clear h.clear _ _ _ h.payload).1 failed
  | retried waiting early _ _ =>
    obtain ⟨-, hclear, hwire⟩ := send_clear h.clear .request c.nextSeq c.pendingMsgId h.payload
    refine ⟨some time, Launched.frame _ rfl h.payload hwire, hclear, h.payload, ?_, fun _ => ?_⟩
    · intro t ht
      cases ht
      exact ⟨rfl, le_rfl, Nat.le_add_right _ _⟩
    · obtain ⟨started, t, ht, hle, hstarted, hage⟩ := hearly waiting early
      exact ⟨started, time, rfl, hle.trans (h.sent t ht).2.1, hstarted, hage⟩

theorem received_timely (h : Timely start time age wait last c) {frame : Frame} {now : Millis}
    (hreceived : Received c frame now c') :
    Timely start time age wait last c' ∧ c'.link.uart.wire = c.link.uart.wire := by
  cases hreceived with
  | sample _ => exact ⟨⟨h.clear, h.payload, h.sent, h.waiting⟩, rfl⟩
  | fault _ => exact ⟨⟨h.clear, h.payload, h.sent, h.waiting⟩, rfl⟩
  | answer _ =>
    exact ⟨⟨h.clear, h.payload, h.sent, fun hwaiting => Bool.noConfusion hwaiting⟩, rfl⟩
  | ignored _ => exact ⟨h, rfl⟩

/-- A heartbeat is sent when the last transmission is a second old. -/
theorem beaten_timely {c₀ : McuClient Link} (hlaunched : Launched c₀ time last c last')
    (h : Timely start time 1000 149 last' c) (hbeaten : Beaten c (shown start time) c') :
    ∃ last'', Launched c₀ time last c' last'' ∧ Timely start time 999 149 last'' c' := by
  have hinterval : kHeartbeatIntervalMs.toNat = 1000 := rfl
  have hshort : ([] : List Byte).length ≤ kMaxPayload := Nat.zero_le _
  cases hbeaten with
  | quiet early =>
    refine ⟨last', hlaunched, h.clear, h.payload, ?_, h.waiting⟩
    intro t ht
    obtain ⟨hlast, hle, hage⟩ := h.sent t ht
    refine ⟨hlast, hle, ?_⟩
    cases hwaiting : c.waiting with
    | false =>
      have hyoung := early hwaiting
      rw [hlast, BitVec.lt_def, shown_sub hle (by omega)] at hyoung
      omega
    | true =>
      obtain ⟨started, t', ht', hstarted, -, hwait⟩ := h.waiting hwaiting
      rw [ht] at ht'
      cases ht'
      omega
  | unsent _ failed => exact absurd (send_clear h.clear _ _ _ hshort).1 failed
  | sent idle _ late =>
    obtain ⟨-, hclear, hwire⟩ := send_clear h.clear .request c.nextSeq MsgId.ping hshort
    refine ⟨some time, ?_, hclear, h.payload, ?_, fun hwaiting => ?_⟩
    · cases hlaunched with
      | nothing wire =>
        exact Launched.frame _ rfl hshort (hwire.trans (congrArg (· ++ _) wire))
      | frame _ _ _ _ =>
        obtain ⟨hlast, -⟩ := h.sent time rfl
        rw [hlast, BitVec.le_def, shown_sub le_rfl (by omega)] at late
        omega
    · intro t ht
      cases ht
      exact ⟨rfl, le_rfl, Nat.le_add_right _ _⟩
    · exact Bool.noConfusion (idle.symm.trans hwaiting)

/-- After a poll the last transmission is less than a second old. -/
theorem poll_timely (h : Timely start time 1000 150 last c) :
    ∃ last', Launched c time last (c.poll (shown start time)) last' ∧
      Timely start time 999 149 last' (c.poll (shown start time)) := by
  obtain ⟨last', hlaunched, htimed⟩ := timed_timely h (pollTimers_timed c (shown start time))
  have hloop := pollFrames_keeps
    (fun c' => Launched c time last c' last' ∧ Timely start time 1000 149 last' c')
    ((LinkPort.incoming (c.pollTimers (shown start time)).link).length + 1) (shown start time)
    ?_ ?_ _ ⟨hlaunched, htimed⟩
  · exact beaten_timely hloop.1 hloop.2 (pollHeartbeat_beaten _ (shown start time))
  · rintro c' ⟨hlaunched, htimely⟩
    obtain ⟨hclear, hwire⟩ := poll_clear htimely.clear (shown start time)
    exact ⟨hlaunched.same hwire, hclear, htimely.payload, htimely.sent, htimely.waiting⟩
  · rintro c' frame ⟨hlaunched, htimely⟩
    obtain ⟨htimely', hwire⟩ := received_timely htimely (receive_received c' frame (shown start time))
    exact ⟨hlaunched.same hwire, htimely'⟩

end Culina.Heartbeat
