import Culina.Device

/-!
Requests as calls. Between two milliseconds of the simulator at most a heartbeat and the request that the
client waits for are under way. The next tick of the safety processor handles them, and the poll behind it
finds the answer: no request is lost, repeated or late.
-/
namespace Culina.RemoteCalls

open Wire Layout Framing Writer Drives Ports Commands Safety SafetyMcu Supervision SerialLink WholeFrames
open Counters Heartbeat LinkLoss Lid Plant MainLoop Client McuClient Cooking CookingController
open Replies Simulator Lockstep Device Runs

/-! What a client makes of what it receives. -/

variable {c : McuClient Link} {now : Millis}

/-- A frame of the safety processor that answers something else. -/
theorem receive_stray {frame : Frame} (htype : frame.type ≠ .telemetry) (hstray : ¬ c.Matches frame) :
    c.receive frame now = c := by
  unfold receive
  rw [if_neg fun h => htype h.1, if_neg fun h => htype h.1, if_neg hstray]

/-- The answer ends the wait. -/
theorem receive_answer {frame : Frame} (hanswers : c.Matches frame) : c.receive frame now =
    { c with
      response := frame
      responseReady := true
      waiting := false
      lastCommandStatus := if frame.type = .response then .ok else .protocolError } := by
  have htype : frame.type ≠ .telemetry := by
    rcases hanswers.1 with h | h <;> simp [h]
  unfold receive
  rw [if_neg fun h => htype h.1, if_neg fun h => htype h.1, if_pos hanswers]

/-- What telemetry changes. -/
def Observes (c c' : McuClient Link) : Prop := ∃ store lastFault, c' = { c with store, lastFault }

theorem receive_telemetry (c : McuClient Link) {frame : Frame} (htype : frame.type = .telemetry)
    (now : Millis) : Observes c (c.receive frame now) := by
  have hreceived := receive_received c frame now
  generalize c.receive frame now = c' at hreceived
  cases hreceived with
  | sample _ => exact ⟨_, _, rfl⟩
  | fault _ => exact ⟨_, _, rfl⟩
  | answer found =>
    rcases found.1 with h | h <;> simp [h] at htype
  | ignored _ => exact ⟨_, _, rfl⟩

theorem receiveAll_telemetry (c : McuClient Link) (now : Millis) {received : List Frame}
    (htypes : ∀ f ∈ received, f.type = .telemetry) :
    Observes c (receiveAll now c received) := by
  induction received generalizing c with
  | nil => exact ⟨_, _, rfl⟩
  | cons f received ih =>
    obtain ⟨htype, htypes⟩ := List.forall_mem_cons.mp htypes
    obtain ⟨store, lastFault, hfirst⟩ := receive_telemetry c htype now
    obtain ⟨store', lastFault', hlater⟩ := ih (c.receive f now) htypes
    refine ⟨store', lastFault', ?_⟩
    change receiveAll now (c.receive f now) received = _
    rw [hlater, hfirst]

theorem receiveAll_strays {received : List Frame}
    (hstrays : ∀ f ∈ received, f.type ≠ .telemetry ∧ ¬ c.Matches f) : receiveAll now c received = c := by
  induction received with
  | nil => rfl
  | cons f received ih =>
    obtain ⟨⟨htype, hstray⟩, hstrays⟩ := List.forall_mem_cons.mp hstrays
    change receiveAll now (c.receive f now) received = c
    rw [receive_stray htype hstray]
    exact ih hstrays

theorem receiveAll_append (c : McuClient Link) (now : Millis) (first second : List Frame) :
    receiveAll now c (first ++ second) = receiveAll now (receiveAll now c first) second :=
  List.foldl_append

/-- A poll receives all that the link holds. -/
theorem pollLink_held {frames : List Frame} (hholds : Holds c.link frames) (hclear : Clear c.link) (now : Millis) :
    ∃ (received : List Frame) (link : Link), received.map content = frames.map content ∧ Holds link [] ∧
      Clear link ∧ link.uart.wire = c.link.uart.wire ∧
      c.pollLink now = { receiveAll now c received with link } := by
  have hincoming := congrArg List.length (incoming_holds hholds)
  rw [List.length_map, List.length_map] at hincoming
  exact pollFrames_held hholds hclear now (by omega)

/-- Frames that say the same answer the same. -/
theorem matches_congr {f g : Frame} (h : content g = content f) : c.Matches g ↔ c.Matches f := by
  have htype : g.type = f.type := congrArg Prod.fst h
  have hseq : g.seq = f.seq := congrArg (fun said => said.2.1) h
  have hid : g.msgId = f.msgId := congrArg (fun said => said.2.2.1) h
  unfold Matches
  rw [htype, hseq, hid]

/-! What is under way. -/

def ping (seq : Byte) : Frame := Frame.ofBytes .request seq MsgId.ping []

/-- The request that a client waits for. -/
def asked (c : McuClient Link) : Frame :=
  Frame.ofBytes .request c.pendingSeq c.pendingMsgId c.pendingPayload

/-- What a client has written in this millisecond: at most a heartbeat, and behind it the request that
it waits for. -/
inductive Outstanding (now : Millis) (c : McuClient Link) : List Frame → Prop
  | idle (free : c.waiting = false) : Outstanding now c []
  | beat (free : c.waiting = false) : Outstanding now c [ping (c.nextSeq - 1)]
  | call (out : c.waiting = true) (beats : List Frame) (few : beats = [] ∨ beats = [ping (c.pendingSeq - 1)])
      (young : c.requestStartedMs = now ∧ c.sentAtMs = now) : Outstanding now c (beats ++ [asked c])

/-- A client whose requests are all answered at once. -/
structure Connection (now : Millis) (c : McuClient Link) (frames : List Frame) : Prop where
  idle : Holds c.link []
  clear : Clear c.link
  payload : c.pendingPayload.length ≤ kMaxPayload
  outstanding : Outstanding now c frames
  undisturbed : c.retried = false ∧ c.lastCommandStatus ≠ .timeout

theorem Connection.unchanged {frames : List Frame} (h : Connection now c frames) :
    ∃ more, Connection now c (frames ++ more) ∧
      c.link.uart.wire = c.link.uart.wire ++ more.flatMap (wireBytes kVersion) :=
  ⟨[], by rwa [List.append_nil], (List.append_nil _).symm⟩

/-- An oversized request is refused. -/
theorem request_oversized {payload : List Byte} (hlong : ¬ payload.length ≤ kMaxPayload) (now : Millis)
    (id : MsgId) : (c.request now id payload).2 = c := by
  unfold request
  split
  · rfl
  · rw [if_pos (not_le.mp hlong)]

theorem request_connection {frames : List Frame} (h : Connection now c frames) (id : MsgId) (payload : List Byte) :
    ∃ more, Connection now (c.request now id payload).2 (frames ++ more) ∧
      (c.request now id payload).2.link.uart.wire = c.link.uart.wire ++ more.flatMap (wireBytes kVersion) := by
  by_cases hlen : payload.length ≤ kMaxPayload
  · obtain ⟨hok, hclear, hwire⟩ := send_clear h.clear .request c.nextSeq id hlen
    have hrequest := request_requested c now id payload
    generalize (c.request now id payload).1 = status at hrequest
    generalize (c.request now id payload).2 = c' at hrequest
    cases hrequest with
    | accepted accepts =>
      have hbeats : frames = [] ∨ frames = [ping (c.nextSeq - 1)] := by
        cases h.outstanding with
        | idle _ => exact Or.inl rfl
        | beat _ => exact Or.inr rfl
        | call out _ _ _ => exact Bool.noConfusion (accepts.idle.symm.trans out)
      refine ⟨[Frame.ofBytes .request c.nextSeq id payload],
        ⟨send_holds h.idle .request c.nextSeq id payload, hclear, hlen, ?_, rfl,
          fun hok => Status.noConfusion hok⟩, ?_⟩
      · exact Outstanding.call (c := c.accepted now id payload) rfl frames hbeats ⟨rfl, rfl⟩
      · rw [List.flatMap_singleton]
        exact hwire
    | unsent _ _ _ sends failed => exact absurd (sends.symm.trans hok) failed
    | refused _ _ => exact h.unchanged
  · rw [request_oversized hlen]
    exact h.unchanged

theorem Outstanding.congr {frames : List Frame} (h : Outstanding now c frames) {c' : McuClient Link}
    (hsame : c'.waiting = c.waiting ∧ c'.nextSeq = c.nextSeq ∧ c'.pendingSeq = c.pendingSeq ∧
      c'.requestStartedMs = c.requestStartedMs ∧ c'.sentAtMs = c.sentAtMs) (hasked : asked c' = asked c) :
    Outstanding now c' frames := by
  obtain ⟨hwaiting, hnext, hpending, hstarted, hsent⟩ := hsame
  cases h with
  | idle free => exact Outstanding.idle (hwaiting.trans free)
  | beat free =>
    rw [← hnext]
    exact Outstanding.beat (hwaiting.trans free)
  | call out beats few young =>
    rw [← hasked]
    rw [← hpending] at few
    exact Outstanding.call (hwaiting.trans out) beats few ⟨hstarted.trans young.1, hsent.trans young.2⟩

/-- Whatever controller and user call joins what is under way. -/
theorem calls_connection {frames : List Frame} {c' : McuClient Link} (h : Connection now c frames)
    (hcalls : Calls now c c') : ∃ more, Connection now c' (frames ++ more) ∧
      c'.link.uart.wire = c.link.uart.wire ++ more.flatMap (wireBytes kVersion) := by
  induction hcalls with
  | refl => exact h.unchanged
  | request _ id payload ih =>
    obtain ⟨more, hconnection, hwire⟩ := ih
    obtain ⟨more', hconnection', hwire'⟩ := request_connection hconnection id payload
    refine ⟨more ++ more', by rwa [← List.append_assoc], ?_⟩
    rw [hwire', hwire, List.flatMap_append, List.append_assoc]
  | takeResponse _ ih | clearFault _ ih =>
    obtain ⟨more, ⟨hidle, hclear, hpayload, houtstanding, hundisturbed⟩, hwire⟩ := ih
    exact ⟨more, ⟨hidle, hclear, hpayload, houtstanding.congr ⟨rfl, rfl, rfl, rfl, rfl⟩ rfl, hundisturbed⟩, hwire⟩
  | clearCommandStatus _ ih =>
    obtain ⟨more, ⟨hidle, hclear, hpayload, houtstanding, hundisturbed⟩, hwire⟩ := ih
    exact ⟨more, ⟨hidle, hclear, hpayload, houtstanding.congr ⟨rfl, rfl, rfl, rfl, rfl⟩ rfl, hundisturbed.1,
      fun hok => Status.noConfusion hok⟩, hwire⟩

/-! A poll that finds every answer. -/

/-- The timers leave a request of the last millisecond alone. -/
theorem pollTimers_young {k : ℕ} (hyoung : c.waiting = true → c.requestStartedMs = Machine.now k ∧
    c.sentAtMs = Machine.now k) : c.pollTimers (Machine.now (k + 1)) = c := by
  have hone : Machine.now (k + 1) - Machine.now k = 1 := by
    unfold Machine.now
    rw [BitVec.ofNat_add]
    abel
  cases hwaiting : c.waiting with
  | false => exact pollTimers_idle hwaiting _
  | true =>
    obtain ⟨hstarted, hsent⟩ := hyoung hwaiting
    unfold pollTimers
    rw [hstarted, hsent, hone, if_neg fun h => absurd h.2 (by decide), if_neg fun h => absurd h.2 (by decide)]

theorem heartbeat_eq (c : McuClient Link) (now : Millis) :
    ∃ link nextSeq lastTxMs, c.pollHeartbeat now = { c with link, nextSeq, lastTxMs } := by
  have hbeaten := pollHeartbeat_beaten c now
  generalize c.pollHeartbeat now = c' at hbeaten
  cases hbeaten with
  | quiet _ => exact ⟨_, _, _, rfl⟩
  | unsent _ _ => exact ⟨_, _, _, rfl⟩
  | sent _ _ _ => exact ⟨_, _, _, rfl⟩

/-- Behind its heartbeat a client that waits for nothing has at most that under way. -/
theorem heartbeat_connection (hconnection : Connection now c []) (hfree : c.waiting = false) :
    ∃ more, Connection now (c.pollHeartbeat now) more ∧
      (c.pollHeartbeat now).link.uart.wire = c.link.uart.wire ++ more.flatMap (wireBytes kVersion) := by
  have hbeaten := pollHeartbeat_beaten c now
  have hshort : ([] : List Byte).length ≤ kMaxPayload := Nat.zero_le _
  obtain ⟨hok, hclear, hwire⟩ := send_clear hconnection.clear .request c.nextSeq MsgId.ping hshort
  generalize c.pollHeartbeat now = c' at hbeaten
  cases hbeaten with
  | quiet _ => exact hconnection.unchanged
  | unsent _ failed => exact absurd hok failed
  | sent _ _ _ =>
    refine ⟨[ping (c.nextSeq + 1 - 1)], ⟨send_holds hconnection.idle _ _ _ _, hclear, hconnection.payload,
      Outstanding.beat hfree, hconnection.undisturbed⟩, ?_⟩
    rw [List.flatMap_singleton, BitVec.add_sub_cancel]
    exact hwire

/-- The safety processor has handled these frames and answered each of them. -/
structure Handles (frames : List Frame) (handled : List Exchange) : Prop where
  same : handled.map (fun x => content x.frame) = frames.map content
  replied : ∀ x ∈ handled, ∃ reply, x.reply = some reply ∧ Plain reply

theorem answered_spec {x : Exchange} {reply : Reply} (hreply : x.reply = some reply) (hplain : Plain reply) :
    answered x = some (Frame.ofBytes reply.type x.frame.seq x.frame.msgId reply.payload) ∧
      (Frame.ofBytes reply.type x.frame.seq x.frame.msgId reply.payload).type ≠ .telemetry := by
  rw [answered, hreply]
  refine ⟨rfl, ?_⟩
  change reply.type ≠ .telemetry
  rcases hplain.type with h | h <;> simp [h]

/-- Answers to other frames pass a client by. -/
theorem answers_stray {handled : List Exchange} (hreplied : ∀ x ∈ handled, ∃ reply, x.reply = some reply ∧ Plain reply)
    (hother : c.waiting = true → ∀ x ∈ handled, x.frame.seq ≠ c.pendingSeq) {received : List Frame}
    (hreceived : received.map content = (handled.filterMap answered).map content) :
    ∀ f ∈ received, f.type ≠ .telemetry ∧ ¬ c.Matches f := by
  intro f hf
  obtain ⟨g, hg, hsame⟩ := List.mem_map.mp (hreceived ▸ List.mem_map_of_mem hf)
  obtain ⟨x, hx, hanswer⟩ := List.mem_filterMap.mp hg
  obtain ⟨reply, hreply, hplain⟩ := hreplied x hx
  obtain ⟨hspec, htype⟩ := answered_spec hreply hplain
  rw [hspec] at hanswer
  cases hanswer
  have hsaid : f.type = _ := (congrArg Prod.fst hsame).symm
  refine ⟨hsaid ▸ htype, fun hmatches => ?_⟩
  rw [matches_congr hsame.symm] at hmatches
  exact hother hmatches.2.1 x hx hmatches.2.2.2

/-- What a client has got for the request it waited for. -/
structure Returned (c c' : McuClient Link) (handled : List Exchange) : Prop where
  ready : c'.responseReady = true
  answer : ∃ x reply, handled.filter (fun y => y.frame.seq = c.pendingSeq) = [x] ∧
    content x.frame = content (asked c) ∧ x.reply = some reply ∧
    content c'.response = content (Frame.ofBytes reply.type c.pendingSeq c.pendingMsgId reply.payload) ∧
    c'.lastCommandStatus = if reply.type = .response then .ok else .protocolError

/-- A client that waited for nothing has got nothing. -/
structure Rested (c c' : McuClient Link) : Prop where
  response : c'.response = c.response
  ready : c'.responseReady = c.responseReady
  status : c'.lastCommandStatus = c.lastCommandStatus

/-- What a poll behind a tick of the safety processor leaves. -/
structure Polled (c c' : McuClient Link) (handled : List Exchange) : Prop where
  free : c'.waiting = false
  returned : c.waiting = true → Returned c c' handled
  rested : c.waiting = false → Rested c c'

theorem pred_ne (seq : Byte) : seq - 1 ≠ seq := by
  intro h
  bv_omega

/-- The request is the last of the frames, and the only one of its sequence number. -/
theorem Handles.last {beats : List Frame} {handled : List Exchange} (h : Handles (beats ++ [asked c]) handled)
    (few : beats = [] ∨ beats = [ping (c.pendingSeq - 1)]) :
    ∃ before x, handled = before ++ [x] ∧ (∀ y ∈ before, y.frame.seq ≠ c.pendingSeq) ∧
      content x.frame = content (asked c) := by
  have hsame := h.same
  rw [List.map_append] at hsame
  obtain ⟨before, last, rfl, hbefore, hlast⟩ := List.map_eq_append_iff.mp hsame
  obtain ⟨x, rfl⟩ : ∃ x, last = [x] := by
    rw [← List.length_eq_one_iff]
    have := congrArg List.length hlast
    simpa using this
  refine ⟨before, x, rfl, fun y hy => ?_, by simpa using hlast⟩
  obtain ⟨b, hb, hsaid⟩ := List.mem_map.mp (hbefore ▸ List.mem_map_of_mem (f := fun x : Exchange => content x.frame) hy)
  have hseq : y.frame.seq = b.seq := congrArg (fun said => said.2.1) hsaid.symm
  rw [hseq]
  rcases few with rfl | rfl
  · exact absurd hb List.not_mem_nil
  · rw [List.mem_singleton.mp hb]
    exact pred_ne _

/-- What the frames of a poll make of the client, leaving its link aside. -/
theorem received_polled {frames telemetry received : List Frame} {handled : List Exchange}
    (houtstanding : Outstanding now c frames) (hhandles : Handles frames handled)
    (htelemetry : ∀ f ∈ telemetry, f.type = .telemetry) (later : Millis)
    (hreceived : received.map content = (handled.filterMap answered ++ telemetry).map content) :
    Polled c (receiveAll later c received) handled := by
  rw [List.map_append] at hreceived
  obtain ⟨answers, observed, rfl, hanswers, hobserved⟩ := List.map_eq_append_iff.mp hreceived
  have htypes : ∀ f ∈ observed, f.type = .telemetry := by
    intro f hf
    obtain ⟨g, hg, hsame⟩ := List.mem_map.mp (hobserved ▸ List.mem_map_of_mem hf)
    exact (congrArg Prod.fst hsame).symm.trans (htelemetry g hg)
  have hidle : c.waiting = false → Polled c (receiveAll later c (answers ++ observed)) handled := by
    intro hfree
    have hstrays := answers_stray hhandles.replied (fun hout => Bool.noConfusion (hfree.symm.trans hout)) hanswers
    obtain ⟨store, lastFault, hlater⟩ := receiveAll_telemetry c later htypes
    rw [receiveAll_append, receiveAll_strays hstrays, hlater]
    exact ⟨hfree, fun hout => Bool.noConfusion (hfree.symm.trans hout), fun _ => ⟨rfl, rfl, rfl⟩⟩
  cases houtstanding with
  | idle free => exact hidle free
  | beat free => exact hidle free
  | call out beats few young =>
    obtain ⟨before, x, rfl, hbefore, hasked⟩ := hhandles.last few
    have hreplied := List.forall_mem_append.mp hhandles.replied
    obtain ⟨reply, hreply, hplain⟩ := hreplied.2 x List.mem_cons_self
    obtain ⟨hspec, -⟩ := answered_spec hreply hplain
    rw [List.filterMap_append, List.filterMap_cons_some hspec, List.filterMap_nil, List.map_append] at hanswers
    obtain ⟨strays, last, rfl, hstrays, hlast⟩ := List.map_eq_append_iff.mp hanswers
    obtain ⟨g, rfl⟩ : ∃ g, last = [g] := by
      rw [← List.length_eq_one_iff]
      have := congrArg List.length hlast
      simpa using this
    have hseq : x.frame.seq = c.pendingSeq := congrArg (fun said => said.2.1) hasked
    have hsaid : content g = content (Frame.ofBytes reply.type c.pendingSeq c.pendingMsgId reply.payload) := by
      have hid : x.frame.msgId = c.pendingMsgId := congrArg (fun said => said.2.2.1) hasked
      rw [hseq, hid] at hlast
      simpa using hlast
    have hmatches : c.Matches g := (matches_congr hsaid).mpr ⟨hplain.type, out, rfl, rfl⟩
    have htype : g.type = reply.type := congrArg Prod.fst hsaid
    have hpast := answers_stray hreplied.1 (fun _ => hbefore) hstrays
    rw [receiveAll_append, receiveAll_append, receiveAll_strays hpast]
    change Polled c (receiveAll later (c.receive g later) observed) _
    rw [receive_answer hmatches]
    obtain ⟨store, lastFault, hlater⟩ := receiveAll_telemetry _ later htypes
    rw [hlater]
    refine ⟨rfl, fun _ => ⟨rfl, x, reply, ?_, hasked, hreply, hsaid, ?_⟩,
      fun hfree => Bool.noConfusion (hfree.symm.trans out)⟩
    · have hnone : before.filter (fun y => y.frame.seq = c.pendingSeq) = [] :=
        List.filter_eq_nil_iff.mpr fun y hy => by simpa using hbefore y hy
      rw [List.filter_append, hnone, List.nil_append, List.filter_cons_of_pos (by simpa using hseq), List.filter_nil]
    · rw [← htype]

/-! What the application sees. -/

/-- The samples and the fault that a client shows. -/
abbrev View := Services.TelemetryStore × Byte

def view (c : McuClient Link) : View := (c.store, c.lastFault)

/-- What a frame makes of the view. -/
def watch (now : Millis) (seen : View) (frame : Frame) : View :=
  if IsSample frame then (seen.1.append (sampleOf frame now), seen.2)
  else if IsFault frame then (seen.1, getElem frame.payload 0 kMaxPayload_pos)
  else seen

theorem receive_view (c : McuClient Link) (frame : Frame) (now : Millis) :
    view (c.receive frame now) = watch now (view c) frame := by
  unfold receive watch
  split
  · rfl
  · split
    · rfl
    · split <;> rfl

theorem receiveAll_view (c : McuClient Link) (received : List Frame) (now : Millis) :
    view (receiveAll now c received) = received.foldl (watch now) (view c) := by
  induction received generalizing c with
  | nil => rfl
  | cons f received ih =>
    rw [List.foldl_cons, ← receive_view]
    exact ih _

/-- Answers change nothing of it. -/
theorem watch_answers {received : List Frame} (htypes : ∀ f ∈ received, f.type ≠ .telemetry) (now : Millis)
    (seen : View) : received.foldl (watch now) seen = seen := by
  induction received with
  | nil => rfl
  | cons f received ih =>
    obtain ⟨htype, htypes⟩ := List.forall_mem_cons.mp htypes
    have hsame : watch now seen f = seen := by
      unfold watch
      rw [if_neg fun h => htype h.1, if_neg fun h => htype h.1]
    rw [List.foldl_cons, hsame]
    exact ih htypes

/-- The view has taken in the telemetry that was told. -/
def Watched (c c' : McuClient Link) (telemetry : List Frame) (now : Millis) : Prop :=
  ∃ received : List Frame, received.map content = telemetry.map content ∧
    view c' = received.foldl (watch now) (view c)

theorem received_watched {telemetry received : List Frame} {handled : List Exchange} (later : Millis)
    (hreplied : ∀ x ∈ handled, ∃ reply, x.reply = some reply ∧ Plain reply)
    (hreceived : received.map content = (handled.filterMap answered ++ telemetry).map content) :
    Watched c (receiveAll later c received) telemetry later := by
  rw [List.map_append] at hreceived
  obtain ⟨answers, observed, rfl, hanswers, hobserved⟩ := List.map_eq_append_iff.mp hreceived
  have htypes : ∀ f ∈ answers, f.type ≠ .telemetry := by
    intro f hf
    obtain ⟨g, hg, hsame⟩ := List.mem_map.mp (hanswers ▸ List.mem_map_of_mem hf)
    obtain ⟨x, hx, hanswer⟩ := List.mem_filterMap.mp hg
    obtain ⟨reply, hreply, hplain⟩ := hreplied x hx
    obtain ⟨hspec, htype⟩ := answered_spec hreply hplain
    rw [hspec] at hanswer
    cases hanswer
    have hsaid : f.type = _ := (congrArg Prod.fst hsame).symm
    exact hsaid ▸ htype
  refine ⟨observed, hobserved, ?_⟩
  rw [receiveAll_view, List.foldl_append, watch_answers htypes]

/-- What no received frame disturbs. -/
theorem receiveAll_undisturbed (hpayload : c.pendingPayload.length ≤ kMaxPayload)
    (hundisturbed : c.retried = false ∧ c.lastCommandStatus ≠ .timeout) (received : List Frame) (now : Millis) :
    (receiveAll now c received).pendingPayload.length ≤ kMaxPayload ∧
      (receiveAll now c received).retried = false ∧
      (receiveAll now c received).lastCommandStatus ≠ .timeout := by
  induction received generalizing c with
  | nil => exact ⟨hpayload, hundisturbed⟩
  | cons f received ih =>
    have hreceived := receive_received c f now
    change (receiveAll now (c.receive f now) received).pendingPayload.length ≤ _ ∧
      (receiveAll now (c.receive f now) received).retried = _ ∧
      (receiveAll now (c.receive f now) received).lastCommandStatus ≠ _
    generalize c.receive f now = c' at hreceived
    cases hreceived with
    | sample _ => exact ih hpayload hundisturbed
    | fault _ => exact ih hpayload hundisturbed
    | answer _ =>
      refine ih hpayload ⟨hundisturbed.1, ?_⟩
      dsimp only
      split <;> exact fun h => Status.noConfusion h
    | ignored _ => exact ih hpayload hundisturbed

/-- The poll behind a tick that has handled all that was under way. -/
theorem poll_connection {frames telemetry : List Frame} {handled : List Exchange} {k : ℕ}
    (h : Connection (Machine.now k) c frames) (hhandles : Handles frames handled)
    (htelemetry : ∀ f ∈ telemetry, f.type = .telemetry)
    (hshort : ∀ f ∈ handled.filterMap answered ++ telemetry, f.payloadLen ≤ kMaxPayload) :
    let told := handled.filterMap answered ++ telemetry
    let c' := (heard c (told.flatMap (wireBytes kVersion))).poll (Machine.now (k + 1))
    Polled c c' handled ∧ Watched c c' telemetry (Machine.now (k + 1)) ∧
      ∃ more, Connection (Machine.now (k + 1)) c' more ∧
        c'.link.uart.wire = c.link.uart.wire ++ more.flatMap (wireBytes kVersion) := by
  intro told c'
  let hearing := heard c (told.flatMap (wireBytes kVersion))
  have hholds : Holds hearing.link told := by
    refine ⟨h.idle.idle, ?_, hshort⟩
    change c.link.uart.rx ++ _ = _
    rw [h.idle.rx]
    rfl
  have hclear : Clear hearing.link := ⟨h.clear.takes, h.clear.txBuffer, h.clear.txOffset⟩
  have htimers : hearing.pollTimers (Machine.now (k + 1)) = hearing := by
    refine pollTimers_young fun hout => ?_
    cases h.outstanding with
    | idle free => exact Bool.noConfusion (free.symm.trans hout)
    | beat free => exact Bool.noConfusion (free.symm.trans hout)
    | call _ _ _ young => exact young
  obtain ⟨received, link, hreceived, hrest, hclear', hwire, hpoll⟩ := pollLink_held hholds hclear (Machine.now (k + 1))
  have houtstanding : Outstanding (Machine.now k) hearing frames := h.outstanding.congr ⟨rfl, rfl, rfl, rfl, rfl⟩ rfl
  have hpolled := received_polled houtstanding hhandles htelemetry (Machine.now (k + 1)) hreceived
  have hwatched := received_watched (c := hearing) (Machine.now (k + 1)) hhandles.replied hreceived
  obtain ⟨hpayload, hundisturbed⟩ :=
    receiveAll_undisturbed (c := hearing) h.payload h.undisturbed received (Machine.now (k + 1))
  have hc' : c' = ({ receiveAll (Machine.now (k + 1)) hearing received with link } : McuClient Link).pollHeartbeat
      (Machine.now (k + 1)) := by
    change ((hearing.pollTimers _).pollLink _).pollHeartbeat _ = _
    rw [htimers, hpoll]
  generalize receiveAll (Machine.now (k + 1)) hearing received = after at hpolled hwatched hpayload hundisturbed hc'
  have hconnection : Connection (Machine.now (k + 1)) { after with link } [] :=
    ⟨hrest, hclear', hpayload, Outstanding.idle hpolled.free, hundisturbed⟩
  have hbeat := heartbeat_connection hconnection hpolled.free
  obtain ⟨link', nextSeq, lastTxMs, hlast⟩ := heartbeat_eq ({ after with link } : McuClient Link) (Machine.now (k + 1))
  rw [← hc'] at hbeat hlast
  obtain ⟨more, hmore, hwire'⟩ := hbeat
  refine ⟨?_, ?_, more, hmore, hwire'.trans (congrArg (· ++ _) hwire)⟩
  · obtain ⟨hfree, hreturned, hrested⟩ := hpolled
    rw [hlast]
    refine ⟨hfree, fun hout => ?_, fun hidle => ?_⟩
    · obtain ⟨hready, hanswer⟩ := hreturned hout
      exact ⟨hready, hanswer⟩
    · obtain ⟨hresponse, hready, hstatus⟩ := hrested hidle
      exact ⟨hresponse, hready, hstatus⟩
  · obtain ⟨observed, hobserved, hview⟩ := hwatched
    rw [hlast]
    exact ⟨observed, hobserved, hview⟩

/-! The tick in between. -/

theorem Outstanding.requests {frames : List Frame} (h : Outstanding now c frames)
    (hpayload : c.pendingPayload.length ≤ kMaxPayload) :
    ∀ f ∈ frames, f.type = .request ∧ f.payloadLen ≤ kMaxPayload := by
  have hping : ∀ seq, (ping seq).type = .request ∧ (ping seq).payloadLen ≤ kMaxPayload :=
    fun _ => ⟨rfl, Nat.zero_le _⟩
  cases h with
  | idle _ => exact fun _ hf => absurd hf List.not_mem_nil
  | beat _ => exact List.forall_mem_singleton.mpr (hping _)
  | call _ beats few _ =>
    refine List.forall_mem_append.mpr ⟨?_, List.forall_mem_singleton.mpr ⟨rfl, hpayload⟩⟩
    rcases few with rfl | rfl
    · exact fun _ hf => absurd hf List.not_mem_nil
    · exact List.forall_mem_singleton.mpr (hping _)

/-- A tick that holds requests handles and answers each of them. -/
theorem tick_handles {H : Type} [Board H] {s : SafetyMcu Link H} {frames : List Frame} (hholds : Holds s.link frames)
    (hrequests : ∀ f ∈ frames, f.type = .request) (now : Millis) : Handles frames (s.exchanges now) := by
  have hsame := (tick1ms_holds hholds now).2
  refine ⟨hsame, fun x hx => exchanges_answered s now x hx ?_⟩
  obtain ⟨f, hf, hsaid⟩ := List.mem_map.mp (hsame ▸ List.mem_map_of_mem (f := fun x : Exchange => content x.frame) hx)
  exact (congrArg Prod.fst hsaid).symm.trans (hrequests f hf)

/-! The simulator. -/

variable {P : Type} {s : SystemSim P} {frames : List Frame}

/-- The safety processor that the next tick finds. -/
def found (s : SystemSim P) : SafetyMcu Link (SimBoard Models) :=
  s.rig.machine.arrive (s.rig.input ⟨s.appToMcu, []⟩)

/-- The time of the next tick. -/
def soon (s : SystemSim P) : Millis := Machine.now (s.rig.machine.clock + 1)

def handled (s : SystemSim P) : List Exchange := (found s).exchanges (soon s)

/-- What the simulator has under way between two milliseconds, and what its processors have said to
each other so far. -/
structure Linked (s : SystemSim P) (frames : List Frame) : Prop where
  idle : Holds s.rig.machine.mcu.link []
  clear : Clear s.rig.machine.mcu.link
  client : Connection (Machine.now s.rig.machine.clock) s.app.mcu frames
  appToMcu : s.appToMcu = frames.flatMap (wireBytes kVersion)
  history : ∃ sent : List Frame, s.app.mcu.link.uart.wire = sent.flatMap (wireBytes kVersion) ∧
    sent.map content = s.rig.machine.log.map (fun x => content x.frame) ++ frames.map content

theorem Linked.found (h : Linked s frames) : Holds (found s).link frames ∧ Clear (found s).link ∧
    Handles frames (handled s) := by
  have hrequests := h.client.outstanding.requests h.client.payload
  have hholds : Holds (RemoteCalls.found s).link frames := by
    refine ⟨h.idle.idle, ?_, fun f hf => (hrequests f hf).2⟩
    change s.rig.machine.mcu.link.uart.rx ++ s.appToMcu = _
    rw [h.idle.rx, h.appToMcu]
    rfl
  exact ⟨hholds, ⟨h.clear.takes, h.clear.txBuffer, h.clear.txOffset⟩,
    tick_handles hholds (fun f hf => (hrequests f hf).1) _⟩

theorem ticked_mcu (s : SystemSim P) : s.ticked.machine.mcu = (found s).tick1ms (soon s) := by
  change (s.rig.pass ⟨s.appToMcu, []⟩).machine.mcu = _
  rw [Rig.pass_eq]
  exact Machine.advance_mcu _ _

/-- What the safety processor publishes in the next tick. -/
def publishing (s : SystemSim P) : List Frame := publishedIn (found s) (soon s)

/-- What a tick of the simulator writes. -/
theorem Linked.mcuToApp (h : Linked s frames) :
    Holds s.ticked.machine.mcu.link [] ∧ Clear s.ticked.machine.mcu.link ∧
      s.mcuToApp = ((handled s).filterMap answered ++ publishing s).flatMap (wireBytes kVersion) ∧
      ∀ f ∈ (handled s).filterMap answered ++ publishing s, f.payloadLen ≤ kMaxPayload := by
  obtain ⟨hholds, hclear, -⟩ := h.found
  have hwrote := tick1ms_wrote hclear (soon s)
  have hidle := (tick1ms_holds hholds (soon s)).1
  have hbefore : (RemoteCalls.found s).link.uart.wire = s.rig.machine.mcu.link.uart.wire := rfl
  rw [← ticked_mcu, hbefore] at hwrote
  rw [← ticked_mcu] at hidle
  refine ⟨hidle, hwrote.clear, ?_, hwrote.short⟩
  rw [SystemSim.mcuToApp, hwrote.wire, List.drop_left]
  rfl

theorem ticked_log (s : SystemSim P) : s.ticked.machine.log = s.rig.machine.log ++ handled s := by
  change (s.rig.pass ⟨s.appToMcu, []⟩).machine.log = _
  rw [Rig.pass_eq]
  exact Machine.advance_log _ _

theorem publishing_telemetry (s : SystemSim P) : ∀ f ∈ publishing s, f.type = .telemetry := by
  unfold publishing publishedIn
  exact published_telemetry _ _ _

/-- The poll of a millisecond returns what the tick before it has answered. -/
theorem Linked.polled (h : Linked s frames) (hnow : s.ticked.board.sensors.nowMs = soon s) :
    Polled s.app.mcu s.polled.mcu (handled s) ∧
      Watched s.app.mcu s.polled.mcu (publishing s) (soon s) ∧
      ∃ more, Linked (uncontrolled s) more ∧
        s.polled.mcu.link.uart.wire = s.app.mcu.link.uart.wire ++ more.flatMap (wireBytes kVersion) := by
  obtain ⟨-, -, hhandles⟩ := h.found
  obtain ⟨hidle, hclear, htold, hshort⟩ := h.mcuToApp
  have hsoon : Machine.now (s.rig.machine.clock + 1) = soon s := rfl
  have hpolled : (heard s.app.mcu s.mcuToApp).poll (soon s) = s.polled.mcu := by
    rw [← hnow]
    rfl
  have hpoll := poll_connection h.client hhandles (publishing_telemetry s) hshort
  dsimp only at hpoll
  rw [hsoon, ← htold, hpolled] at hpoll
  obtain ⟨hpolls, hwatched, more, hconnection, hwire⟩ := hpoll
  refine ⟨hpolls, hwatched, more, ⟨hidle, hclear, hconnection, ?_, ?_⟩, hwire⟩
  · change sentBetween s.app s.polled = _
    rw [sentBetween, hwire, List.drop_left]
  · obtain ⟨sent, hsent, hsaid⟩ := h.history
    refine ⟨sent ++ more, ?_, ?_⟩
    · change s.polled.mcu.link.uart.wire = _
      rw [hwire, hsent, List.flatMap_append]
    · change _ = s.ticked.machine.log.map _ ++ _
      rw [ticked_log, List.map_append, List.map_append, hsaid, hhandles.same]

/-- What the user has the application do joins what is under way. -/
theorem Linked.command (h : Linked s frames) {app : CookingController Link P}
    (hcalls : Calls (Machine.now s.rig.machine.clock) s.app.mcu app.mcu) :
    ∃ more, Linked (s.command app) (frames ++ more) ∧
      app.mcu.link.uart.wire = s.app.mcu.link.uart.wire ++ more.flatMap (wireBytes kVersion) := by
  obtain ⟨more, hconnection, hwire⟩ := calls_connection h.client hcalls
  refine ⟨more, ⟨h.idle, h.clear, hconnection, ?_, ?_⟩, hwire⟩
  · change s.appToMcu ++ sentBetween s.app app = _
    rw [sentBetween, hwire, List.drop_left, h.appToMcu, List.flatMap_append]
  · obtain ⟨sent, hsent, hsaid⟩ := h.history
    refine ⟨sent ++ more, ?_, ?_⟩
    · change app.mcu.link.uart.wire = _
      rw [hwire, hsent, List.flatMap_append]
    · change _ = s.rig.machine.log.map _ ++ _
      rw [List.map_append, List.map_append, hsaid, List.append_assoc]

theorem Linked.length (h : Linked s frames) : frames.length ≤ 2 := by
  cases h.client.outstanding with
  | idle _ => exact Nat.zero_le _
  | beat _ => exact Nat.le_succ _
  | call _ beats few _ =>
    rcases few with rfl | rfl
    · exact Nat.le_succ _
    · exact le_rfl

/-- Only the processors and the bytes between them matter. -/
theorem Linked.congr {s' : SystemSim P} (h : Linked s frames) (hmachine : s'.rig.machine = s.rig.machine)
    (happ : s'.app.mcu = s.app.mcu) (hbytes : s'.appToMcu = s.appToMcu) : Linked s' frames := by
  obtain ⟨hidle, hclear, hclient, hunder, hhistory⟩ := h
  rw [← hmachine] at hidle hclear hclient hhistory
  rw [← happ] at hclient hhistory
  exact ⟨hidle, hclear, hclient, hbytes.trans hunder, hhistory⟩

theorem started_linked (h : SystemSim.Started s) : Linked s [] := by
  obtain ⟨scaleNoise, tempNoise, rfl⟩ := h
  have hidle : ∀ uart : Uart, uart.rx = [] → Holds { uart } [] :=
    fun uart hrx => ⟨idle_initial, hrx, fun _ hf => absurd hf List.not_mem_nil⟩
  refine ⟨hidle _ rfl, ⟨fun _ _ => le_rfl, rfl, rfl⟩, ⟨hidle _ rfl, ⟨fun _ _ => le_rfl, rfl, rfl⟩, Nat.zero_le _,
    Outstanding.idle rfl, rfl, fun h => Status.noConfusion h⟩, rfl, [], rfl, rfl⟩

variable [Program Link P]

/-- Step lemma for the millisecond. -/
theorem stepMs_linked (h : Linked s frames) (hinStep : InStep s) : ∃ more, Linked s.stepMs more := by
  have hpaced : Paced s.ticked (s.appDivider + 1) := pass_paced hinStep.paced hinStep.divider s.appToMcu
  obtain ⟨-, -, more, hmore, hwire⟩ := h.polled hpaced.nowMs
  unfold SystemSim.stepMs
  split
  · have hcalls := tick10ms_calls s.polled s.ticked.board.sensors.nowMs
    dsimp only
    generalize s.polled.tick10ms s.ticked.board.sensors.nowMs = app at hcalls ⊢
    rw [hpaced.nowMs] at hcalls
    obtain ⟨more', hmore', hwire'⟩ := hmore.command hcalls
    exact ⟨_, hmore'.congr rfl rfl (sentBetween_append hwire hwire').symm⟩
  · exact ⟨more, hmore⟩

/-- Step lemma. -/
theorem next_linked (h : Linked s frames) (hinStep : InStep s) (action : SystemSim.Action P) :
    ∃ more, Linked (s.next action) more := by
  have hstep := next_step s action
  generalize s.next action = s' at hstep
  cases hstep with
  | stepMs => exact stepMs_linked h hinStep
  | touch _ => exact ⟨frames, h.congr rfl rfl rfl⟩
  | command _ app calls =>
    rw [hinStep.nowMs] at calls
    obtain ⟨more, hmore, -⟩ := h.command calls
    exact ⟨_, hmore⟩

theorem linked_of_operated (h : Operated s) : ∃ frames, Linked s frames := by
  refine (Reachable.keeps h (fun s => InStep s ∧ ∃ frames, Linked s frames) ?_ ?_).2
  · exact fun s hs => ⟨started_inStep hs, [], started_linked hs⟩
  · rintro s action _ ⟨hinStep, frames, hs⟩ ⟨hallowed, rfl⟩
    exact ⟨next_inStep hinStep action hallowed, next_linked hs hinStep action⟩

/-- Everything the application has written has been handled by the safety processor, once and in order,
but for the last two frames at most, which are still under way. -/
theorem delivered (h : Operated s) : ∃ sent frames : List Frame,
    s.app.mcu.link.uart.wire = sent.flatMap (wireBytes kVersion) ∧
      s.appToMcu = frames.flatMap (wireBytes kVersion) ∧ frames.length ≤ 2 ∧
      sent.map content = s.rig.machine.log.map (fun x => content x.frame) ++ frames.map content := by
  obtain ⟨frames, hlinked⟩ := linked_of_operated h
  obtain ⟨sent, hsent, hsaid⟩ := hlinked.history
  exact ⟨sent, frames, hsent, hlinked.appToMcu, hlinked.length, hsaid⟩

theorem delivered_asking : ∃ sent frames : List Frame,
    asking.app.mcu.link.uart.wire = sent.flatMap (wireBytes kVersion) ∧
      asking.appToMcu = frames.flatMap (wireBytes kVersion) ∧ frames.length ≤ 2 ∧
      sent.map content = asking.rig.machine.log.map (fun x => content x.frame) ++ frames.map content :=
  delivered asking_operated

/-- A request is answered in the millisecond behind it: the safety processor handles it once, and the poll
of the client takes the answer. None is retried or times out. -/
theorem remote_call (h : Operated s) :
    s.app.mcu.retried = false ∧ s.app.mcu.lastCommandStatus ≠ .timeout ∧
      (s.app.mcu.waiting = true → s.polled.mcu.waiting = false ∧ s.polled.mcu.responseReady = true ∧
        ∃ x reply, (handled s).filter (fun y => y.frame.seq = s.app.mcu.pendingSeq) = [x] ∧
          content x.frame = content (asked s.app.mcu) ∧ x.reply = some reply ∧
          content s.polled.mcu.response =
            content (Frame.ofBytes reply.type s.app.mcu.pendingSeq s.app.mcu.pendingMsgId reply.payload) ∧
          s.polled.mcu.lastCommandStatus = if reply.type = .response then .ok else .protocolError) := by
  obtain ⟨frames, hlinked⟩ := linked_of_operated h
  have hinStep := inStep_of_reachable h
  obtain ⟨hpolled, -, -⟩ := hlinked.polled (pass_paced hinStep.paced hinStep.divider s.appToMcu).nowMs
  refine ⟨hlinked.client.undisturbed.1, hlinked.client.undisturbed.2, fun hout => ?_⟩
  obtain ⟨hready, hanswer⟩ := hpolled.returned hout
  exact ⟨hpolled.free, hready, hanswer⟩

theorem remote_call_asking : asking.app.mcu.waiting = true ∧ asking.polled.mcu.waiting = false :=
  ⟨by decide +kernel, ((remote_call asking_operated).2.2 (by decide +kernel)).1⟩

end Culina.RemoteCalls
