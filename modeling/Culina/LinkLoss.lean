import Culina.Supervision
import Culina.Heartbeat
import Culina.Lid
import Culina.Runs
import Mathlib.Data.List.Chain

/-!
Link supervision against the heartbeat. Over channels that deliver every frame whole and
in time the safety processor never finds its last request five seconds old: the
transmissions are at most a second apart, and the one that is due is at most 3900 ms on
its way. Each processor has a clock of its own, which shows true milliseconds modulo its
width.
-/
namespace Culina.LinkLoss

open Wire Layout Framing Writer Drives Ports Commands Safety SafetyMcu Supervision SerialLink
open WholeFrames Counters Client Heartbeat Runs Lid

/-! Ticks over whole frames. -/

section Ticks

variable {H : Type} [Board H] {s : SafetyMcu Link H} {frames : List Frame}

theorem handleFrame_holds (h : Holds s.link frames) (frame : Frame) (now : Millis) :
    Holds (s.handleFrame frame now).link frames := by
  simp only [handleFrame, CommandHandler.handle]
  rcases s.handler.execute frame s.inputs (decide (s.fault ≠ .none)) with ⟨_ | reply, handler⟩
  · exact h
  · exact send_holds h reply.type frame.seq frame.msgId reply.payload

/-- The frame loop handles the held frames and leaves the link idle. -/
theorem pollFrames_holds (h : Holds s.link frames) (now : Millis) {fuel : ℕ}
    (hfuel : frames.length < fuel) :
    Holds (s.pollFrames fuel now).1.link [] ∧
      (s.pollFrames fuel now).2.map (fun x => content x.frame) = frames.map content := by
  induction frames generalizing s fuel with
  | nil =>
    obtain ⟨hnone, hrest⟩ := poll_holds_nil h now
    change (LinkPort.poll s.link now).1 = none at hnone
    change Holds (LinkPort.poll s.link now).2 [] at hrest
    cases fuel with
    | zero => omega
    | succ fuel =>
      rcases hpoll : LinkPort.poll s.link now with ⟨_ | frame, link⟩
      · rw [hpoll] at hrest
        simp only [pollFrames, hpoll, List.map_nil, and_true]
        exact hrest
      · rw [hpoll] at hnone
        cases hnone
  | cons f frames ih =>
    obtain ⟨g, hcontent, hsome, hrest⟩ := poll_holds_cons h now
    change (LinkPort.poll s.link now).1 = some g at hsome
    change Holds (LinkPort.poll s.link now).2 frames at hrest
    rw [List.length_cons] at hfuel
    cases fuel with
    | zero => omega
    | succ fuel =>
      rcases hpoll : LinkPort.poll s.link now with ⟨_ | frame, link⟩
      · rw [hpoll] at hsome
        cases hsome
      · rw [hpoll] at hsome hrest
        cases hsome
        have hheld : Holds ({ s with link } : SafetyMcu Link H).link frames := hrest
        have hhandled := handleFrame_holds hheld g now
        have hroom : frames.length < fuel := by omega
        obtain ⟨hend, hlater⟩ := ih hhandled hroom
        simp only [pollFrames, hpoll, List.map_cons]
        refine ⟨hend, ?_⟩
        rw [hlater, ← hcontent]
        rfl

theorem maybePublish_holds {publisher : TelemetryPublisher} {link : Link} (h : Holds link frames)
    (data : TelemetryData) (now : Millis) : Holds (publisher.maybePublish link data now).2 frames := by
  have hsample : ∀ (publisher : TelemetryPublisher) (link : Link), Holds link frames →
      Holds (publisher.publishSample link data now).2 frames := by
    intro publisher link h
    unfold TelemetryPublisher.publishSample
    split
    · exact h
    · dsimp only
      split
      · exact send_holds h _ _ _ _
      · exact send_holds h _ _ _ _
  unfold TelemetryPublisher.maybePublish
  split
  · dsimp only
    split
    · exact send_holds h _ _ _ _
    · exact hsample _ _ (send_holds h _ _ _ _)
  · exact hsample _ _ h

theorem publishStage_holds (h : Holds s.link frames) (now : Millis) :
    Holds (s.publishStage now).link frames := by
  unfold publishStage
  exact maybePublish_holds h _ now

/-- A tick handles the held frames and leaves the link idle. -/
theorem tick1ms_holds (h : Holds s.link frames) (now : Millis) :
    Holds (s.tick1ms now).link [] ∧
      (s.exchanges now).map (fun x => content x.frame) = frames.map content := by
  rw [← sampleStage_link s] at h
  have hincoming := congrArg List.length (incoming_holds h)
  rw [List.length_map, List.length_map] at hincoming
  have hroom : frames.length < (LinkPort.incoming s.sampleStage.link).length + 1 := by omega
  obtain ⟨hend, hhandled⟩ := pollFrames_holds h now hroom
  refine ⟨?_, hhandled⟩
  rw [tick1ms_eq]
  refine publishStage_holds ?_ now
  rw [driveStage_link, judge_link]
  exact hend

/-- A tick that holds requests handles one. -/
theorem anyRequest_iff (h : Holds s.link frames) (hrequests : ∀ f ∈ frames, f.type = .request)
    (now : Millis) : anyRequest (s.exchanges now) = true ↔ frames ≠ [] := by
  have hhandled := (tick1ms_holds h now).2
  cases frames with
  | nil =>
    rw [List.map_nil, List.map_eq_nil_iff] at hhandled
    simp [anyRequest, hhandled]
  | cons f rest =>
    have htype := hrequests f List.mem_cons_self
    cases hx : s.exchanges now with
    | nil => simp [hx] at hhandled
    | cons x log =>
      rw [hx, List.map_cons, List.map_cons, List.cons.injEq] at hhandled
      have hsame : x.frame.type = f.type := congrArg Prod.fst hhandled.1
      simp [anyRequest, hsame, htype]

theorem evaluate_ne_linkLost (inputs : Inputs) : inputs.evaluate ≠ .linkLost := by
  unfold Inputs.evaluate
  split_ifs <;> decide

/-- A tick loses the link only if it drives something and has no recent request. -/
theorem tick1ms_ne_linkLost (hs : Supervised s) {now : Millis} (hfault : s.fault ≠ .linkLost)
    (hrecent : anyRequest (s.exchanges now) = false → s.driven = true →
      now - s.lastValidFrameMs < kLinkTimeoutMs) : (s.tick1ms now).fault ≠ .linkLost := by
  have hsampled : s.sampleStage.fault ≠ .linkLost := by
    rcases sampleStage_fault s with h | h
    · rw [h]
      exact hfault
    · rw [h]
      decide
  have hloop := looped_from hs now
  have hlooped : (looped s now).fault ≠ .linkLost := by
    refine pollFrames_keeps _ now (fun t _ => t.fault ≠ .linkLost) _ (fun _ _ _ h => h) ?_ [] hsampled
    intro t frame _ h
    rw [handleFrame_fault]
    split
    · decide
    · exact h
  have hyoung : (looped s now).driven = true →
      now - (looped s now).lastValidFrameMs < kLinkTimeoutMs := by
    intro hdriven
    rw [hloop.lastValidFrameMs]
    cases hany : anyRequest (s.exchanges now) with
    | true =>
      rw [if_pos rfl, BitVec.sub_self]
      decide
    | false =>
      rw [if_neg Bool.false_ne_true, sampleStage_lastValidFrameMs]
      rcases hloop.driven hdriven with h | h
      · exact Bool.noConfusion (hany.symm.trans h)
      · exact hrecent hany (sampleStage_driven hs h)
  rw [tick1ms_fault]
  unfold judge
  by_cases hcheck : (looped s now).fault = .none ∧ (looped s now).inputs.evaluate ≠ .none
  · have hinter : (looped s now).interlockStage =
        (looped s now).enterFault (looped s now).inputs.evaluate := if_pos hcheck
    rw [hinter]
    unfold linkStage
    rw [if_neg fun h => hcheck.2 h.1]
    exact evaluate_ne_linkLost _
  · have hinter : (looped s now).interlockStage = looped s now := if_neg hcheck
    rw [hinter]
    unfold linkStage
    rw [if_neg fun h => BitVec.not_lt.mpr h.2.2 (hyoung h.2.1)]
    exact hlooped

end Ticks

/-! The two processors and their channels. -/

/-- A frame on its way to the safety processor. -/
structure Flight where
  sentAt : ℕ
  bytes : List Byte

/-- `arrived` are the frames delivered since the last tick; `polled` and `ticked` say what has been
done in the current millisecond. -/
structure World (H : Type) where
  client : McuClient Link
  mcu : SafetyMcu Link H
  clientStart : ℕ
  mcuStart : ℕ
  time : ℕ := 0
  flights : List Flight := []
  arrived : List Flight := []
  lastSentAt : Option ℕ := none
  polled : Bool := false
  ticked : Bool := false

/-- `hear` are any bytes that reach the client. -/
inductive Event (H : Type) where
  | elapse
  | poll
  | request (id : MsgId) (payload : List Byte)
  | takeResponse
  | clearCommandStatus
  | clearFault
  | hear (bytes : List Byte)
  | deliver
  | tick (board : H)

variable {H : Type} [Board H]

namespace World

/-- The world after an operation of the client; what it has written is under way. -/
def launch (w : World H) (client : McuClient Link) : World H :=
  let bytes := client.link.uart.wire.drop w.client.link.uart.wire.length
  if bytes = [] then { w with client }
  else { w with client, flights := w.flights ++ [⟨w.time, bytes⟩], lastSentAt := some w.time }

/-- The processor under the board of this tick. -/
def arrive (w : World H) (board : H) : SafetyMcu Link H :=
  { w.mcu with handler := { w.mcu.handler with board } }

def next (w : World H) : Event H → World H
  | .elapse => { w with time := w.time + 1, polled := false, ticked := false }
  | .poll => { w.launch (w.client.poll (shown w.clientStart w.time)) with polled := true }
  | .request id payload =>
      w.launch (w.client.request (shown w.clientStart w.time) id payload).2
  | .takeResponse => { w with client := w.client.takeResponse.2 }
  | .clearCommandStatus => { w with client := w.client.clearCommandStatus }
  | .clearFault => { w with client := w.client.clearFault }
  | .hear bytes =>
      { w with
        client :=
          { w.client with
            link := { w.client.link with uart := w.client.link.uart.receive bytes } } }
  | .deliver =>
      match w.flights with
      | [] => w
      | flight :: rest =>
          { w with
            flights := rest
            arrived := w.arrived ++ [flight]
            mcu :=
              { w.mcu with
                link := { w.mcu.link with uart := w.mcu.link.uart.receive flight.bytes } } }
  | .tick board =>
      { w with
        mcu := (w.arrive board).tick1ms (shown w.mcuStart w.time)
        arrived := []
        ticked := true }

/-- A millisecond ends with both processors served and no frame more than 3900 ms under way. -/
def Allowed (w : World H) : Event H → Prop
  | .elapse => w.polled = true ∧ w.ticked = true ∧
      ∀ flight ∈ w.flights, w.time + 1 ≤ flight.sentAt + 3900
  | _ => True

/-- Both processors as constructed, with any clocks. -/
def Booted (w : World H) : Prop :=
  ∃ accept board clientStart mcuStart, w =
    { client := { link := { uart := { accept := fun _ len => len } } }
      mcu := .boot { uart := { accept } } board (shown mcuStart 0)
      clientStart
      mcuStart }

/-! What every event keeps. -/

def Spaced (earlier later : ℕ) : Prop := earlier ≤ later ∧ later ≤ earlier + 1000

/-- When the frames were sent that the processor has yet to handle, behind the last one it has. -/
def due (w : World H) (handled : Option ℕ) : List ℕ :=
  handled.toList ++ (w.arrived ++ w.flights).map Flight.sentAt

def Carries (flight : Flight) : Prop :=
  ∃ f : Frame, f.type = .request ∧ f.payloadLen ≤ kMaxPayload ∧ flight.bytes = wireBytes kVersion f

/-- Requests keep coming in. -/
structure Supplied (w : World H) : Prop where
  supervised : Supervised w.mcu
  fault : w.mcu.fault ≠ .linkLost
  held : ∃ frames, Holds w.mcu.link frames ∧ (∀ f ∈ frames, f.type = .request) ∧
    frames.length = w.arrived.length
  carries : ∀ flight ∈ w.flights, Carries flight
  inTime : ∀ flight ∈ w.flights, w.time ≤ flight.sentAt + 3900
  past : ∀ flight ∈ w.arrived ++ w.flights, flight.sentAt ≤ w.time
  spaced : ∃ handled, (w.due handled).IsChain Spaced ∧ (w.due handled).getLast? = w.lastSentAt ∧
    (w.mcu.driven = true → handled ≠ none) ∧
    ∀ s, handled = some s →
      ∃ t, s ≤ t ∧ t ≤ w.time ∧ w.mcu.lastValidFrameMs = shown w.mcuStart t

structure Inv (w : World H) : Prop where
  client : Timely w.clientStart w.time (if w.polled then 999 else 1000)
    (if w.polled then 149 else 150) w.lastSentAt w.client
  supplied : Supplied w

omit [Board H] in
theorem inv_booted {w : World H} (h : Booted w) : Inv w := by
  obtain ⟨accept, board, clientStart, mcuStart, rfl⟩ := h
  constructor
  · refine ⟨⟨fun _ _ => le_rfl, rfl, rfl⟩, Nat.zero_le _, ?_, ?_⟩
    · exact fun t ht => nomatch ht
    · exact fun hwaiting => nomatch hwaiting
  · refine ⟨boot_supervised _ _ _, ?_, ⟨[], ⟨idle_initial, rfl, ?_⟩, ?_, rfl⟩, ?_, ?_, ?_, none, ?_⟩
    · exact fun h => nomatch h
    · exact fun _ h => nomatch h
    · exact fun _ h => nomatch h
    · exact fun _ h => nomatch h
    · exact fun _ h => nomatch h
    · exact fun _ h => nomatch h
    · exact ⟨List.isChain_nil, rfl, (fun h => nomatch h), (fun _ h => nomatch h)⟩

omit [Board H] in
/-- A transmission joins the frames under way. -/
theorem launch_supplied {w : World H} (h : Supplied w) {c' : McuClient Link} {last' : Option ℕ}
    (hage : ∀ t, w.lastSentAt = some t → t ≤ w.time ∧ w.time ≤ t + 1000)
    (hlaunched : Launched w.client w.time w.lastSentAt c' last') :
    Supplied (w.launch c') ∧ (w.launch c').lastSentAt = last' ∧ (w.launch c').client = c' ∧
      (w.launch c').time = w.time ∧ (w.launch c').clientStart = w.clientStart := by
  cases hlaunched with
  | nothing wire =>
    have hlaunch : w.launch c' = { w with client := c' } := by
      unfold launch
      rw [if_pos]
      rw [wire, List.drop_length]
    rw [hlaunch]
    exact ⟨⟨h.supervised, h.fault, h.held, h.carries, h.inTime, h.past, h.spaced⟩, rfl, rfl, rfl, rfl⟩
  | frame f type short wire =>
    have hlaunch : w.launch c' = { w with
        client := c'
        flights := w.flights ++ [⟨w.time, wireBytes kVersion f⟩]
        lastSentAt := some w.time } := by
      unfold launch
      rw [wire, List.drop_left, if_neg]
      simp [wireBytes]
    rw [hlaunch]
    refine ⟨⟨h.supervised, h.fault, h.held, ?_, ?_, ?_, ?_⟩, rfl, rfl, rfl, rfl⟩
    · intro flight hmem
      rcases List.mem_append.mp hmem with hold | hnew
      · exact h.carries flight hold
      · rw [List.mem_singleton.mp hnew]
        exact ⟨f, type, short, rfl⟩
    · intro flight hmem
      rcases List.mem_append.mp hmem with hold | hnew
      · exact h.inTime flight hold
      · rw [List.mem_singleton.mp hnew]
        exact Nat.le_add_right _ _
    · intro flight hmem
      rw [← List.append_assoc] at hmem
      rcases List.mem_append.mp hmem with hold | hnew
      · exact h.past flight hold
      · rw [List.mem_singleton.mp hnew]
    · obtain ⟨handled, hchain, hlast, hdriven, hstamp⟩ := h.spaced
      refine ⟨handled, ?_, ?_, hdriven, hstamp⟩
      · simp only [due, ← List.append_assoc, List.map_append, List.map_cons, List.map_nil]
        rw [due, List.map_append, ← List.append_assoc] at hchain hlast
        refine List.isChain_append.mpr ⟨hchain, List.isChain_singleton _, ?_⟩
        intro x hx y hy
        cases hy
        rw [hlast] at hx
        exact hage x hx
      · simp only [due, ← List.append_assoc, List.map_append, List.map_cons, List.map_nil,
          List.getLast?_concat]

omit [Board H] in
theorem deliver_supplied {w : World H} (h : Supplied w) {flight : Flight} {rest : List Flight}
    (hflights : w.flights = flight :: rest) :
    Supplied { w with
      flights := rest
      arrived := w.arrived ++ [flight]
      mcu :=
        { w.mcu with
          link := { w.mcu.link with uart := w.mcu.link.uart.receive flight.bytes } } } := by
  have hcarries := h.carries
  have hinTime := h.inTime
  rw [hflights] at hcarries hinTime
  obtain ⟨f, htype, hshort, hbytes⟩ := hcarries flight List.mem_cons_self
  obtain ⟨frames, hholds, hrequests, hcount⟩ := h.held
  have hdue : w.arrived ++ [flight] ++ rest = w.arrived ++ w.flights := by
    rw [hflights, List.append_assoc, List.singleton_append]
  refine ⟨⟨h.supervised.latched, h.supervised.sensor, h.supervised.motor⟩, h.fault,
    ⟨frames ++ [f], ⟨hholds.idle, ?_, ?_⟩, ?_, ?_⟩, ?_, ?_, ?_, ?_⟩
  · simp only [Uart.receive, List.flatMap_append, List.flatMap_cons, List.flatMap_nil, List.append_nil]
    rw [hholds.rx, hbytes]
  · intro g hg
    rcases List.mem_append.mp hg with hold | hnew
    · exact hholds.short g hold
    · rw [List.mem_singleton.mp hnew]
      exact hshort
  · intro g hg
    rcases List.mem_append.mp hg with hold | hnew
    · exact hrequests g hold
    · rw [List.mem_singleton.mp hnew]
      exact htype
  · rw [List.length_append, List.length_append, hcount]
    rfl
  · exact fun later hlater => hcarries later (List.mem_cons_of_mem _ hlater)
  · exact fun later hlater => hinTime later (List.mem_cons_of_mem _ hlater)
  · dsimp only
    rw [hdue]
    exact h.past
  · simp only [due]
    rw [hdue]
    exact h.spaced

omit [Board H] in
/-- A processor that drives something and has nothing to read has heard a request less than five
seconds ago. -/
theorem recent {w : World H} (h : Supplied w) (hlast : ∀ t, w.lastSentAt = some t → w.time ≤ t + 1000)
    (harrived : w.arrived = []) (hdriven : w.mcu.driven = true) :
    shown w.mcuStart w.time - w.mcu.lastValidFrameMs < kLinkTimeoutMs := by
  obtain ⟨handled, hchain, hnewest, hheard, hstamp⟩ := h.spaced
  obtain ⟨s, rfl⟩ := Option.ne_none_iff_exists'.mp (hheard hdriven)
  obtain ⟨t, hle, hpast, hvalid⟩ := hstamp s rfl
  have hage : w.time ≤ s + 4900 := by
    rw [due, harrived] at hchain hnewest
    cases hflights : w.flights with
    | nil =>
      rw [hflights] at hnewest
      have := hlast s hnewest.symm
      omega
    | cons flight rest =>
      have hwait := h.inTime flight (by rw [hflights]; exact List.mem_cons_self)
      rw [hflights] at hchain
      have hspaced : Spaced s flight.sentAt := (List.isChain_cons_cons.mp hchain).1
      have := hspaced.2
      omega
  have htimeout : kLinkTimeoutMs.toNat = 5000 := rfl
  rw [hvalid, BitVec.lt_def, shown_sub hpast (by omega)]
  omega

/-- A tick finds a recent request, and takes the newest of those that have arrived as its last. -/
theorem tick_supplied {w : World H} (h : Supplied w)
    (hlast : ∀ t, w.lastSentAt = some t → w.time ≤ t + 1000) (board : H) :
    Supplied (w.next (.tick board)) := by
  have hs : Supervised (w.arrive board) := h.supervised.arrive _ _
  obtain ⟨frames, hholds, hrequests, hcount⟩ := h.held
  have hany := anyRequest_iff (s := w.arrive board) hholds hrequests (shown w.mcuStart w.time)
  have hempty : frames = [] ↔ w.arrived = [] := by
    rw [← List.length_eq_zero_iff, hcount, List.length_eq_zero_iff]
  have hquiet : w.arrived = [] →
      ¬ anyRequest ((w.arrive board).exchanges (shown w.mcuStart w.time)) = true :=
    fun harrived hreq => hany.mp hreq (hempty.mpr harrived)
  have hfault : ((w.arrive board).tick1ms (shown w.mcuStart w.time)).fault ≠ .linkLost := by
    refine tick1ms_ne_linkLost hs h.fault fun hnone hdriven => recent h hlast ?_ hdriven
    rw [← hempty]
    by_contra hframes
    exact Bool.noConfusion (hnone.symm.trans (hany.mpr hframes))
  have hsuper := tick1ms_supervised hs (shown w.mcuStart w.time)
  have hheld := (tick1ms_holds (s := w.arrive board) hholds (shown w.mcuStart w.time)).1
  have hsource : ((w.arrive board).tick1ms (shown w.mcuStart w.time)).driven = true → _ :=
    fun hdriven => (tick1ms_driven hs hdriven).2.1
  have hvalid := tick1ms_lastValidFrameMs hs (shown w.mcuStart w.time)
  have hpast : ∀ flight ∈ w.flights, flight.sentAt ≤ w.time :=
    fun flight hmem => h.past flight (List.mem_append_right _ hmem)
  change Supplied { w with
    mcu := (w.arrive board).tick1ms (shown w.mcuStart w.time), arrived := [], ticked := true }
  generalize (w.arrive board).tick1ms (shown w.mcuStart w.time) = mcu at hfault hsuper hheld hsource hvalid ⊢
  refine ⟨hsuper, hfault, ⟨[], hheld, (fun _ h => nomatch h), rfl⟩, h.carries, h.inTime, hpast, ?_⟩
  obtain ⟨handled, hchain, hnewest, hheard, hstamp⟩ := h.spaced
  rcases List.eq_nil_or_concat w.arrived with harrived | ⟨front, flight, harrived⟩
  · rw [if_neg (hquiet harrived)] at hvalid
    rw [due, harrived] at hchain hnewest
    refine ⟨handled, hchain, hnewest, fun hdriven => ?_, fun s hs' => ?_⟩
    · exact hheard ((hsource hdriven).resolve_left (hquiet harrived))
    · obtain ⟨t, hle, hpast, hold⟩ := hstamp s hs'
      exact ⟨t, hle, hpast, hvalid.trans hold⟩
  · have hreq : anyRequest ((w.arrive board).exchanges (shown w.mcuStart w.time)) = true := by
      refine hany.mpr fun hframes => ?_
      rw [hempty, harrived] at hframes
      simp at hframes
    rw [if_pos hreq] at hvalid
    have hsplit : w.due handled = (handled.toList ++ front.map Flight.sentAt) ++
        ((some flight.sentAt).toList ++ w.flights.map Flight.sentAt) := by
      simp [due, harrived]
    rw [hsplit] at hchain hnewest
    refine ⟨some flight.sentAt, hchain.right_of_append, ?_, fun _ => Option.some_ne_none _, ?_⟩
    · rw [List.getLast?_append_of_ne_nil] at hnewest
      · exact hnewest
      · simp
    · intro s hs'
      cases hs'
      refine ⟨w.time, h.past flight ?_, le_rfl, hvalid⟩
      rw [harrived]
      simp

omit [Board H] in
/-- The supply is no matter of the client. -/
theorem Supplied.serve {w : World H} (h : Supplied w) (client : McuClient Link) (polled : Bool) :
    Supplied { w with client, polled } :=
  ⟨h.supervised, h.fault, h.held, h.carries, h.inTime, h.past, h.spaced⟩

theorem inv_next {w : World H} (h : Inv w) (event : Event H) (hallowed : w.Allowed event) :
    Inv (w.next event) := by
  have hweak := h.client.weaken
  have hage : ∀ t, w.lastSentAt = some t → t ≤ w.time ∧ w.time ≤ t + 1000 :=
    fun t ht => (hweak.sent t ht).2
  cases event with
  | elapse =>
    obtain ⟨hpolled, -, hinTime⟩ := hallowed
    have hclient := h.client
    rw [hpolled] at hclient
    refine ⟨hclient.elapse, h.supplied.supervised, h.supplied.fault, h.supplied.held,
      h.supplied.carries, hinTime, ?_, ?_⟩
    · exact fun flight hmem => (h.supplied.past flight hmem).trans (Nat.le_succ _)
    · obtain ⟨handled, hchain, hnewest, hheard, hstamp⟩ := h.supplied.spaced
      refine ⟨handled, hchain, hnewest, hheard, fun s hs => ?_⟩
      obtain ⟨t, hle, hpast, hvalid⟩ := hstamp s hs
      exact ⟨t, hle, hpast.trans (Nat.le_succ _), hvalid⟩
  | poll =>
    obtain ⟨last', hlaunched, htimely⟩ := poll_timely hweak
    obtain ⟨hsupplied, hlast, hclient, htime, hstart⟩ := launch_supplied h.supplied hage hlaunched
    refine ⟨?_, hsupplied.serve _ true⟩
    simp only [next, if_true, hlast, hclient, htime, hstart]
    exact htimely
  | request id payload =>
    obtain ⟨last', hlaunched, htimely⟩ := request_timely h.client id payload
    obtain ⟨hsupplied, hlast, hclient, htime, hstart⟩ := launch_supplied h.supplied hage hlaunched
    have hpolled : ∀ c', (w.launch c').polled = w.polled := by
      intro c'
      unfold launch
      dsimp only
      split <;> rfl
    refine ⟨?_, hsupplied⟩
    simp only [next, hlast, hclient, htime, hstart, hpolled]
    exact htimely
  | takeResponse =>
    refine ⟨?_, h.supplied.serve _ _⟩
    simp only [next, McuClient.takeResponse_snd]
    exact ⟨h.client.clear, h.client.payload, h.client.sent, h.client.waiting⟩
  | clearCommandStatus =>
    exact ⟨⟨h.client.clear, h.client.payload, h.client.sent, h.client.waiting⟩, h.supplied.serve _ _⟩
  | clearFault =>
    exact ⟨⟨h.client.clear, h.client.payload, h.client.sent, h.client.waiting⟩, h.supplied.serve _ _⟩
  | hear bytes =>
    obtain ⟨htakes, hbuffer, hoffset⟩ := h.client.clear
    exact ⟨⟨⟨htakes, hbuffer, hoffset⟩, h.client.payload, h.client.sent, h.client.waiting⟩,
      h.supplied.serve _ _⟩
  | deliver =>
    rcases hflights : w.flights with _ | ⟨flight, rest⟩
    · simp only [next, hflights]
      exact h
    · simp only [next, hflights]
      exact ⟨h.client, deliver_supplied h.supplied hflights⟩
  | tick board => exact ⟨h.client, tick_supplied h.supplied (fun t ht => (hage t ht).2) board⟩

theorem inv_reachable {w : World H} (h : Reachable Booted (Guarded Allowed World.next) w) : Inv w := by
  refine h.keeps Inv (fun _ => inv_booted) ?_
  rintro w event _ hinv ⟨hallowed, rfl⟩
  exact inv_next hinv event hallowed

end World

/-- The link is never lost, and after every poll the last transmission, once there is one, is less
than a second old. -/
theorem no_spurious_link_loss {w : World H}
    (hreach : Reachable World.Booted (Guarded World.Allowed World.next) w) :
    w.mcu.fault ≠ .linkLost ∧
      ∀ t, (w.next .poll).lastSentAt = some t →
        t ≤ (w.next .poll).time ∧ (w.next .poll).time < t + 1000 := by
  refine ⟨(World.inv_reachable hreach).supplied.fault, fun t ht => ?_⟩
  have hpolled := (World.inv_reachable (hreach.next Event.poll trivial)).client
  obtain ⟨-, hle, hage⟩ := hpolled.sent t ht
  refine ⟨hle, ?_⟩
  change _ ≤ t + 999 at hage
  omega

/-! A motor started over the link. -/

def startWorld : World (SimBoard SteadySensors) where
  client := { link := { uart := { accept := fun _ len => len } } }
  mcu := .boot { uart := { accept := fun _ len => len } } { sensors := {} } (shown 0 0)
  clientStart := 4294967000
  mcuStart := 0

/-- A request for 500 RPM with the gentle ramp. -/
def startRun : List (Event (SimBoard SteadySensors)) :=
  [.request MsgId.motorSetTarget [0xF4, 0x01, kRampGentle], .deliver, .tick { sensors := {} }]

theorem no_spurious_link_loss_start :
    (startRun.foldl World.next startWorld).mcu.driven = true ∧
      (startRun.foldl World.next startWorld).mcu.fault ≠ .linkLost := by
  refine ⟨by decide +kernel, (no_spurious_link_loss ?_).1⟩
  refine Reachable.foldl (Reachable.init ⟨_, _, _, _, rfl⟩) startRun ?_
  simp [startRun, World.Allowed]

end Culina.LinkLoss
