import Culina.Packets
import Culina.Runs

/-!
Requests and their outcomes. The client runs against a peer that answers each request
once, over channels that lose and delay frames but keep their order. Tickets record what
became of every accepted request: its transmissions, how it ended, and the response
handed out for it.
-/
namespace Culina.Correlation

open Wire Client McuClient Packets Counters Runs

/-- How a request ended, as the client shows it after the poll that ended it. -/
structure Ending where
  reply : Option Reply
  status : Status
  ready : Bool
  endedAt : ℕ

structure Ticket where
  msgId : MsgId
  payload : List Byte
  startedAt : ℕ
  sent : List Packet
  endings : List Ending := []
  handed : List Frame := []

/-- The newest ticket stands first; `polled` tells whether this millisecond has seen a poll. -/
structure Dialogue where
  client : McuClient FrameLink
  replies : List Reply := []
  clock : ℕ
  polled : Bool := false
  tickets : List Ticket := []

inductive Action where
  | request (id : MsgId) (payload : List Byte)
  | poll (count : ℕ)
  | takeResponse
  | answer (type : FrameType) (payload : List Byte)
  | tell (frame : Frame)
  | keepRequests (kept : List Packet)
  | keepReplies (kept : List Reply)
  | advance

namespace Dialogue

def now (s : Dialogue) : Millis := BitVec.ofNat 32 s.clock

/-- The client with the next replies before it. -/
def loaded (s : Dialogue) (count : ℕ) : McuClient FrameLink :=
  load s.client ((s.replies.take count).map Reply.frame)

/-- A response or a refusal per request, no other frame that looks like one, losses anywhere,
and a poll in every millisecond. The replies a poll takes in are younger than one turn of
the sequence numbers. -/
def Enabled (s : Dialogue) : Action → Prop
  | .poll count =>
      ∀ reply ∈ s.replies.take count, reply.Fresh (drawn ((s.loaded count).pollTimers s.now))
  | .answer type _ => type = .response ∨ type = .nack
  | .tell frame => frame.type ≠ .response ∧ frame.type ≠ .nack
  | .keepRequests kept => kept.Sublist s.client.link.outbox
  | .keepReplies kept => kept.Sublist s.replies
  | .advance => s.polled = true
  | _ => True

/-- The packets that a client has sent since. -/
def sentSince (before after : McuClient FrameLink) : List Packet :=
  after.link.outbox.drop before.link.outbox.length

def endingOf (s : Dialogue) (count : ℕ) : List Ending :=
  let timed := (s.loaded count).pollTimers s.now
  let client := (s.loaded count).poll s.now
  if s.client.waiting = true ∧ client.waiting = false then
    [{ reply :=
        if client.responseReady = true then
          (s.replies.take count).find? fun reply => decide (timed.Matches reply.frame)
        else none
       status := client.lastCommandStatus
       ready := client.responseReady
       endedAt := s.clock }]
  else []

/-- A request that reports success opens a ticket. -/
def requested (s : Dialogue) (id : MsgId) (payload : List Byte)
    (result : Status × McuClient FrameLink) : Dialogue :=
  { s with
    client := result.2
    tickets :=
      if result.1 = .ok then
        { msgId := id, payload, startedAt := s.clock, sent := sentSince s.client result.2 } :: s.tickets
      else s.tickets }

/-- A poll adds to the newest ticket what its timers transmit and how the request ends. -/
def polledTicket (s : Dialogue) (count : ℕ) (ticket : Ticket) : Ticket :=
  { ticket with
    sent := ticket.sent ++ sentSince s.client ((s.loaded count).pollTimers s.now)
    endings := ticket.endings ++ s.endingOf count }

def next (s : Dialogue) : Action → Dialogue
  | .request id payload => s.requested id payload (s.client.request s.now id payload)
  | .poll count =>
      { s with
        client := (s.loaded count).poll s.now
        replies := s.replies.drop count
        polled := true
        tickets := s.tickets.modifyHead (s.polledTicket count) }
  | .takeResponse =>
      { s with
        client := s.client.takeResponse.2
        tickets := s.tickets.modifyHead fun ticket =>
          { ticket with handed := ticket.handed ++ s.client.takeResponse.1.toList } }
  | .answer type payload =>
      match s.client.link.outbox with
      | [] => s
      | packet :: rest =>
          { s with
            client := { s.client with link := { s.client.link with outbox := rest } }
            replies := s.replies ++
              [⟨some packet, Frame.ofBytes type packet.frame.seq packet.frame.msgId payload⟩] }
  | .tell frame => { s with replies := s.replies ++ [⟨none, frame⟩] }
  | .keepRequests kept =>
      { s with client := { s.client with link := { s.client.link with outbox := kept } } }
  | .keepReplies kept => { s with replies := kept }
  | .advance => { s with clock := s.clock + 1, polled := false }

/-- A client as constructed, on a link with any verdicts, at any time. -/
def Initial (s : Dialogue) : Prop :=
  ∃ accepts clock, s = { client := { link := { accepts } }, clock }

end Dialogue

/-! What a ticket must show. -/

/-- The packet that carries the request under the number `stamp`. -/
def Ticket.packet (ticket : Ticket) (stamp : ℕ) : Packet :=
  ⟨stamp, Frame.ofBytes .request (BitVec.ofNat 8 stamp) ticket.msgId ticket.payload⟩

/-- The three outcomes; a delivered reply answers the last transmission. -/
inductive Outcome (ticket : Ticket) : Ending → Prop
  | response (reply : Reply) (endedAt : ℕ) (type : reply.frame.type = .response)
      (msgId : reply.frame.msgId = ticket.msgId) (origin : reply.origin = ticket.sent.getLast?) :
      Outcome ticket { reply := some reply, status := .ok, ready := true, endedAt }
  | nack (reply : Reply) (endedAt : ℕ) (type : reply.frame.type = .nack)
      (msgId : reply.frame.msgId = ticket.msgId) (origin : reply.origin = ticket.sent.getLast?) :
      Outcome ticket { reply := some reply, status := .protocolError, ready := true, endedAt }
  | timeout (endedAt : ℕ) :
      Outcome ticket { reply := none, status := .timeout, ready := false, endedAt }

/-- At most two transmissions, the second under the next number. -/
def Transmitted (ticket : Ticket) : Prop :=
  ∃ stamp, ticket.sent = [ticket.packet stamp] ∨
    ticket.sent = [ticket.packet stamp, ticket.packet (stamp + 1)]

/-- The request has ended this way, in time. -/
structure Ended (ticket : Ticket) (ending : Ending) : Prop where
  only : ticket.endings = [ending]
  outcome : Outcome ticket ending
  since : ticket.startedAt ≤ ending.endedAt
  intime : ending.endedAt ≤ ticket.startedAt + 150

/-- What the history of a request looks like at any time; `later` are the tickets after it. -/
structure Correlated (s : Dialogue) (later : List Ticket) (ticket : Ticket) : Prop where
  transmitted : Transmitted ticket
  ended : ticket.endings = [] ∨ ∃ ending, Ended ticket ending
  pending : ticket.endings = [] →
    later = [] ∧ ticket.handed = [] ∧ s.clock ≤ ticket.startedAt + 150
  handed : ∀ ending ∈ ticket.endings, ∀ reply, ending.reply = some reply →
    ticket.handed = [reply.frame] ∨
      (ticket.handed = [] ∧ later = [] ∧ s.client.responseReady = true ∧
        s.client.response = reply.frame)
  unanswered : ∀ ending ∈ ticket.endings, ending.reply = none → ticket.handed = []

/-! The invariant. -/

/-- The packets whose answers can still reach the client. -/
def inFlight (client : McuClient FrameLink) (replies : List Reply) : List Packet :=
  client.link.outbox ++ replies.filterMap Reply.origin

/-- A ticket that is through. -/
structure Settled (ticket : Ticket) : Prop where
  transmitted : Transmitted ticket
  ended : ∃ ending, Ended ticket ending ∧
    ticket.handed = (ending.reply.map Reply.frame).toList

/-- The ticket of the request that is out. -/
structure Open (client : McuClient FrameLink) (replies : List Reply) (ticket : Ticket) : Prop where
  msgId : client.pendingMsgId = ticket.msgId
  payload : client.pendingPayload = ticket.payload
  started : client.requestStartedMs = BitVec.ofNat 32 ticket.startedAt
  sent : ∃ stamp, (client.retried = false ∧ ticket.sent = [ticket.packet stamp] ∧
      drawn client = stamp + 1) ∨
    (client.retried = true ∧ ticket.sent = [ticket.packet stamp, ticket.packet (stamp + 1)] ∧
      drawn client = stamp + 2)
  last : ∀ packet ∈ inFlight client replies, packet.stamp + 1 = drawn client →
    ticket.sent.getLast? = some packet
  unended : ticket.endings = []
  unhanded : ticket.handed = []

/-- The ticket whose response waits to be taken. -/
structure Held (client : McuClient FrameLink) (ticket : Ticket) : Prop where
  transmitted : Transmitted ticket
  ended : ∃ ending reply, Ended ticket ending ∧ ending.reply = some reply ∧
    client.response = reply.frame
  unhanded : ticket.handed = []

/-- Where the client stands with its newest request. -/
inductive Phase (s : Dialogue) : Prop
  | idle (waiting : s.client.waiting = false) (ready : s.client.responseReady = false)
      (settled : ∀ ticket ∈ s.tickets, Settled ticket)
  | out (ticket : Ticket) (rest : List Ticket) (tickets : s.tickets = ticket :: rest)
      (waiting : s.client.waiting = true) (ready : s.client.responseReady = false)
      (opened : Open s.client s.replies ticket) (since : ticket.startedAt ≤ s.clock)
      (early : s.clock ≤ ticket.startedAt + 150)
      (polled : s.polled = true → s.clock < ticket.startedAt + 150)
      (settled : ∀ ticket ∈ rest, Settled ticket)
  | held (ticket : Ticket) (rest : List Ticket) (tickets : s.tickets = ticket :: rest)
      (waiting : s.client.waiting = false) (ready : s.client.responseReady = true)
      (answered : Held s.client ticket) (settled : ∀ ticket ∈ rest, Settled ticket)

structure Inv (s : Dialogue) : Prop where
  numbered : Numbered [] s.client
  echoes : ∀ reply ∈ s.replies, reply.Echoes (drawn s.client)
  phase : Phase s

/-! From the invariant to the claim about tickets. -/

theorem Settled.correlated {ticket : Ticket} (h : Settled ticket) (s : Dialogue)
    (later : List Ticket) : Correlated s later ticket := by
  obtain ⟨htransmitted, ending, hended, hhanded⟩ := h
  have honly := hended.only
  refine ⟨htransmitted, Or.inr ⟨ending, hended⟩, ?_, ?_, ?_⟩
  · intro hnone
    rw [honly] at hnone
    cases hnone
  · intro ending' hmem reply hreply
    rw [honly, List.mem_singleton] at hmem
    subst hmem
    left
    rw [hhanded, hreply]
    rfl
  · intro ending' hmem hnone
    rw [honly, List.mem_singleton] at hmem
    subst hmem
    rw [hhanded, hnone]
    rfl

theorem Open.transmitted {client : McuClient FrameLink} {replies : List Reply} {ticket : Ticket}
    (h : Open client replies ticket) : Transmitted ticket := by
  obtain ⟨stamp, ⟨-, hsent, -⟩ | ⟨-, hsent, -⟩⟩ := h.sent
  · exact ⟨stamp, Or.inl hsent⟩
  · exact ⟨stamp, Or.inr hsent⟩

theorem Inv.correlated {s : Dialogue} (h : Inv s) {later : List Ticket} {ticket : Ticket}
    {earlier : List Ticket} (htickets : s.tickets = later ++ ticket :: earlier) :
    Correlated s later ticket := by
  rcases h.phase with ⟨-, -, hsettled⟩ |
      ⟨newest, rest, hnewest, hwaiting, -, hopened, -, hearly, -, hsettled⟩ |
      ⟨newest, rest, hnewest, -, hready, hheld, hsettled⟩
  · refine (hsettled ticket ?_).correlated s later
    rw [htickets]
    simp
  · rw [hnewest] at htickets
    cases later with
    | nil =>
      cases htickets
      refine ⟨hopened.transmitted, Or.inl hopened.unended, fun _ => ⟨rfl, hopened.unhanded, hearly⟩,
        ?_, ?_⟩
      · intro ending hmem
        rw [hopened.unended] at hmem
        cases hmem
      · intro ending hmem
        rw [hopened.unended] at hmem
        cases hmem
    | cons first later =>
      cases htickets
      exact (hsettled ticket (by simp)).correlated s _
  · rw [hnewest] at htickets
    cases later with
    | nil =>
      cases htickets
      obtain ⟨htransmitted, ⟨ending, reply, hended, hreply, hresponse⟩, hunhanded⟩ := hheld
      have honly := hended.only
      refine ⟨htransmitted, Or.inr ⟨ending, hended⟩, ?_, ?_, fun _ _ _ => hunhanded⟩
      · intro hnone
        rw [honly] at hnone
        cases hnone
      · intro ending' hmem reply' hreply'
        rw [honly, List.mem_singleton] at hmem
        subst hmem
        rw [hreply] at hreply'
        cases hreply'
        exact Or.inr ⟨hunhanded, rfl, hready, hresponse⟩
    | cons first later =>
      cases htickets
      exact (hsettled ticket (by simp)).correlated s _

/-! The channels. -/

theorem Open.relink {client : McuClient FrameLink} {replies : List Reply} {ticket : Ticket}
    (h : Open client replies ticket) (outbox : List Packet) (replies' : List Reply)
    (hflight : ∀ packet ∈ outbox ++ replies'.filterMap Reply.origin,
      packet ∈ inFlight client replies) :
    Open { client with link := { client.link with outbox } } replies' ticket :=
  ⟨h.msgId, h.payload, h.started, h.sent, fun packet hpacket => h.last packet (hflight packet hpacket),
    h.unended, h.unhanded⟩

/-- Moving and losing what is in flight keeps the invariant. -/
theorem Inv.relink {s : Dialogue} (h : Inv s) (outbox : List Packet) (replies : List Reply)
    (houtbox : outbox.Sublist s.client.link.outbox)
    (hreplies : ∀ reply ∈ replies, reply.Echoes (drawn s.client))
    (hflight : ∀ packet ∈ outbox ++ replies.filterMap Reply.origin,
      packet ∈ inFlight s.client s.replies) :
    Inv { s with client := { s.client with link := { s.client.link with outbox } }, replies } := by
  obtain ⟨⟨hordered, hpending⟩, -, hphase⟩ := h
  refine ⟨⟨hordered.sublist houtbox, hpending⟩, hreplies, ?_⟩
  cases hphase with
  | idle waiting ready settled => exact Phase.idle waiting ready settled
  | out ticket rest tickets waiting ready opened since early polled settled =>
    exact Phase.out ticket rest tickets waiting ready (opened.relink outbox replies hflight) since early
      polled settled
  | held ticket rest tickets waiting ready answered settled =>
    exact Phase.held ticket rest tickets waiting ready
      ⟨answered.transmitted, answered.ended, answered.unhanded⟩ settled

theorem Inv.answer {s : Dialogue} (h : Inv s) {type : FrameType} (payload : List Byte) :
    Inv (s.next (.answer type payload)) := by
  unfold Dialogue.next
  cases houtbox : s.client.link.outbox with
  | nil => simpa only [houtbox] using h
  | cons packet rest =>
    dsimp only
    have hmem : packet ∈ s.client.link.outbox := by simp [houtbox]
    refine h.relink rest _ ?_ ?_ ?_
    · rw [houtbox]
      exact List.sublist_cons_self packet rest
    · intro reply hreply
      rcases List.mem_append.mp hreply with hreply | hreply
      · exact h.echoes reply hreply
      · rw [List.mem_singleton] at hreply
        subst hreply
        exact ⟨h.numbered.ordered.below packet hmem, h.numbered.ordered.shown packet hmem⟩
    · intro packet' hpacket
      simp only [List.filterMap_append, List.mem_append, List.filterMap_cons, List.filterMap_nil,
        List.mem_singleton] at hpacket
      rw [inFlight, List.mem_append, houtbox, List.mem_cons]
      rcases hpacket with hrest | hold | rfl
      · exact Or.inl (Or.inr hrest)
      · exact Or.inr hold
      · exact Or.inl (Or.inl rfl)

theorem Inv.tell {s : Dialogue} (h : Inv s) {frame : Frame} (hresponse : frame.type ≠ .response)
    (hnack : frame.type ≠ .nack) : Inv (s.next (.tell frame)) := by
  refine h.relink s.client.link.outbox _ (List.Sublist.refl _) ?_ ?_
  · intro reply hreply
    rcases List.mem_append.mp hreply with hreply | hreply
    · exact h.echoes reply hreply
    · rw [List.mem_singleton] at hreply
      subst hreply
      exact ⟨hresponse, hnack⟩
  · intro packet hpacket
    simpa [inFlight] using hpacket

theorem Inv.keepRequests {s : Dialogue} (h : Inv s) {kept : List Packet}
    (hkept : kept.Sublist s.client.link.outbox) : Inv (s.next (.keepRequests kept)) := by
  refine h.relink kept s.replies hkept h.echoes ?_
  intro packet hpacket
  rw [inFlight]
  exact (hkept.append_right _).subset hpacket

theorem Inv.keepReplies {s : Dialogue} (h : Inv s) {kept : List Reply}
    (hkept : kept.Sublist s.replies) : Inv (s.next (.keepReplies kept)) := by
  refine h.relink s.client.link.outbox kept (List.Sublist.refl _) ?_ ?_
  · intro reply hreply
    exact h.echoes reply (hkept.subset hreply)
  · intro packet hpacket
    rw [inFlight]
    exact ((hkept.filterMap _).append_left _).subset hpacket

theorem Inv.advance {s : Dialogue} (h : Inv s) (hpolled : s.polled = true) :
    Inv (s.next .advance) := by
  refine ⟨h.numbered, h.echoes, ?_⟩
  cases h.phase with
  | idle waiting ready settled => exact Phase.idle waiting ready settled
  | out ticket rest tickets waiting ready opened since early polled settled =>
    have hlate := polled hpolled
    exact Phase.out ticket rest tickets waiting ready opened (Nat.le_succ_of_le since) hlate
      (fun h => by cases h) settled
  | held ticket rest tickets waiting ready answered settled =>
    exact Phase.held ticket rest tickets waiting ready answered settled

/-! Requests. -/

/-- A frame under the next number is the only one that shows it. -/
theorem eq_of_newest {client : McuClient FrameLink} {replies : List Reply} (hnumbered : Numbered [] client)
    (hechoes : ∀ reply ∈ replies, reply.Echoes (drawn client)) {packet newest : Packet}
    (hmem : packet ∈ (client.link.outbox ++ [newest]) ++ replies.filterMap Reply.origin)
    (hstamp : packet.stamp = drawn client) : packet = newest := by
  rw [List.mem_append, List.mem_append, List.mem_singleton] at hmem
  rcases hmem with (hold | rfl) | hreplied
  · have := hnumbered.ordered.below packet hold
    omega
  · rfl
  · obtain ⟨reply, hreply, horigin⟩ := List.mem_filterMap.mp hreplied
    have := hechoes reply hreply
    simp only [Reply.Echoes, horigin] at this
    omega

theorem sentSince_append {before after : McuClient FrameLink} {packets : List Packet}
    (h : after.link.outbox = before.link.outbox ++ packets) :
    Dialogue.sentSince before after = packets := by
  rw [Dialogue.sentSince, h, List.drop_left]

theorem accepted_outbox {c : McuClient FrameLink} {id : MsgId} {payload : List Byte}
    (h : c.Accepts id payload) : (tried c id payload).outbox = c.link.outbox ++ [packet c id payload] := by
  rw [tried_outbox, if_pos h.sent]

/-- Drawing a number without opening a request leaves the client where it stood. -/
theorem Phase.requested {s : Dialogue} (h : Inv s) {id : MsgId} {payload : List Byte}
    {status : Status} {client : McuClient FrameLink}
    (hrequest : Requested s.client s.now id payload status client) :
    Phase (s.requested id payload (status, client)) := by
  cases hrequest with
  | accepted accepts =>
    have hsettled : ∀ ticket ∈ s.tickets, Settled ticket := by
      cases h.phase with
      | idle _ _ settled => exact settled
      | out _ _ _ waiting _ _ _ _ _ _ => exact Bool.noConfusion (accepts.idle.symm.trans waiting)
      | held _ _ _ _ ready _ _ => exact Bool.noConfusion (accepts.taken.symm.trans ready)
    have houtbox : (s.client.accepted s.now id payload).link.outbox =
        s.client.link.outbox ++ [Packets.packet s.client id payload] := accepted_outbox accepts
    have hdrawn : drawn (s.client.accepted s.now id payload) = drawn s.client + 1 :=
      drawn_next s.client id payload
    have htickets : (s.requested id payload (.ok, s.client.accepted s.now id payload)).tickets =
        { msgId := id, payload, startedAt := s.clock
          sent := [Packets.packet s.client id payload] } :: s.tickets := by
      rw [Dialogue.requested, if_pos rfl, sentSince_append houtbox]
    have hpacket : Packets.packet s.client id payload =
        ⟨drawn s.client, Frame.ofBytes .request (BitVec.ofNat 8 (drawn s.client)) id payload⟩ := by
      rw [Packets.packet, ofNat_drawn]
    refine Phase.out _ s.tickets htickets rfl rfl ⟨rfl, rfl, rfl, ?_, ?_, rfl, rfl⟩ le_rfl
      (Nat.le_add_right _ _) (fun _ => Nat.lt_add_of_pos_right (Nat.succ_pos _)) hsettled
    · exact ⟨drawn s.client, Or.inl ⟨rfl, congrArg (fun packet => [packet]) hpacket, hdrawn⟩⟩
    · intro packet hmem hstamp
      change packet ∈ inFlight (s.client.accepted s.now id payload) s.replies at hmem
      change packet.stamp + 1 = drawn (s.client.accepted s.now id payload) at hstamp
      rw [inFlight, houtbox] at hmem
      rw [eq_of_newest h.numbered h.echoes hmem (by omega)]
      rfl
  | unsent status idle taken sends failed =>
    have htickets : (s.requested id payload (status,
        { s.client with
          link := tried s.client id payload
          nextSeq := s.client.nextSeq + 1
          pendingSeq := s.client.nextSeq })).tickets = s.tickets := if_neg failed
    cases h.phase with
    | idle waiting ready settled => exact Phase.idle waiting ready (htickets ▸ settled)
    | out _ _ _ waiting _ _ _ _ _ _ => exact Bool.noConfusion (idle.symm.trans waiting)
    | held _ _ _ _ ready _ _ => exact Bool.noConfusion (taken.symm.trans ready)
  | refused status failed =>
    have hsame : s.requested id payload (status, s.client) = s := by
      rw [Dialogue.requested, if_neg failed]
    rw [hsame]
    exact h.phase

theorem Inv.request {s : Dialogue} (h : Inv s) (id : MsgId) (payload : List Byte) :
    Inv (s.next (.request id payload)) := by
  refine ⟨h.numbered.request s.now id payload, ?_,
    Phase.requested h (request_requested s.client s.now id payload)⟩
  intro reply hreply
  exact (h.echoes reply hreply).mono (drawn_request_le s.client s.now id payload)

/-! Taking the response. -/

theorem modifyHead_same {f : Ticket → Ticket} (tickets : List Ticket) (h : ∀ ticket, f ticket = ticket) :
    tickets.modifyHead f = tickets := by
  cases tickets with
  | nil => rfl
  | cons ticket rest => rw [List.modifyHead_cons, h]

theorem Inv.takeResponse {s : Dialogue} (h : Inv s) : Inv (s.next .takeResponse) := by
  have hclient := takeResponse_snd s.client
  refine ⟨?_, ?_, ?_⟩
  · change Numbered [] s.client.takeResponse.2
    rw [hclient]
    exact ⟨h.numbered.ordered, h.numbered.pending⟩
  · change ∀ reply ∈ s.replies, reply.Echoes (drawn s.client.takeResponse.2)
    rw [hclient]
    exact h.echoes
  · unfold Dialogue.next
    rw [hclient, takeResponse_fst]
    cases h.phase with
    | idle waiting ready settled =>
      refine Phase.idle waiting rfl ?_
      dsimp only
      rw [modifyHead_same]
      · exact settled
      · simp [ready]
    | out ticket rest tickets waiting ready opened since early polled settled =>
      refine Phase.out ticket rest ?_ waiting rfl ⟨opened.msgId, opened.payload, opened.started,
        opened.sent, opened.last, opened.unended, opened.unhanded⟩ since early polled settled
      dsimp only
      rw [modifyHead_same]
      · exact tickets
      · simp [ready]
    | held ticket rest tickets waiting ready answered settled =>
      obtain ⟨htransmitted, ⟨ending, reply, hended, hreply, hresponse⟩, hunhanded⟩ := answered
      refine Phase.idle waiting rfl ?_
      dsimp only
      rw [tickets, List.modifyHead_cons, if_pos ready, List.forall_mem_cons]
      refine ⟨⟨htransmitted, ending, ⟨hended.only, ?_, hended.since, hended.intime⟩, ?_⟩, settled⟩
      · cases hended.outcome with
        | response reply endedAt type msgId origin => exact Outcome.response reply endedAt type msgId origin
        | nack reply endedAt type msgId origin => exact Outcome.nack reply endedAt type msgId origin
        | timeout endedAt => exact Outcome.timeout endedAt
      · simp [hunhanded, hreply, hresponse]

/-! Polling. -/

/-- The timers transmit the request once more at most, under the next number. -/
theorem Open.timed {c c' : McuClient FrameLink} {replies : List Reply} {ticket : Ticket} {now : Millis}
    (h : Open c replies ticket) (hnumbered : Numbered [] c)
    (hechoes : ∀ reply ∈ replies, reply.Echoes (drawn c)) (htimed : Timed c now c')
    (hwaiting : c'.waiting = true) :
    Open c' replies { ticket with sent := ticket.sent ++ Dialogue.sentSince c c' } := by
  obtain ⟨⟨hmsgId, hpayload, hstarted, -, -⟩, hkept | hsent⟩ := timed_outstanding htimed hwaiting
  · obtain ⟨hretried, hdrawn, houtbox⟩ := hkept
    rw [sentSince_append (houtbox.trans (List.append_nil _).symm), List.append_nil]
    refine ⟨hmsgId.trans h.msgId, hpayload.trans h.payload, hstarted.trans h.started, ?_, ?_,
      h.unended, h.unhanded⟩
    · rw [hretried, hdrawn]
      exact h.sent
    · rw [inFlight, houtbox, hdrawn]
      exact h.last
  · obtain ⟨hfirst, hretried, hdrawn, houtbox⟩ := hsent
    rw [sentSince_append houtbox]
    obtain ⟨stamp, ⟨-, hsent, hlast⟩ | ⟨hretried', -⟩⟩ := h.sent
    · have hpacket : packet c c.pendingMsgId c.pendingPayload = ticket.packet (stamp + 1) := by
        rw [packet, ← ofNat_drawn, hlast, h.msgId, h.payload]
        rfl
      rw [hpacket] at houtbox ⊢
      refine ⟨hmsgId.trans h.msgId, hpayload.trans h.payload, hstarted.trans h.started, ?_, ?_,
        h.unended, h.unhanded⟩
      · refine ⟨stamp, Or.inr ⟨hretried, ?_, by omega⟩⟩
        rw [hsent]
        rfl
      · intro packet hmem hstamp
        rw [inFlight, houtbox] at hmem
        rw [eq_of_newest hnumbered hechoes hmem (by omega)]
        simp
    · exact Bool.noConfusion (hfirst.symm.trans hretried')

theorem polledTicket_idle {s : Dialogue} (hidle : s.client.waiting = false) (count : ℕ)
    (ticket : Ticket) : s.polledTicket count ticket = ticket := by
  have hended : s.endingOf count = [] := by
    rw [Dialogue.endingOf, if_neg]
    simp [hidle]
  have hloaded : (s.loaded count).waiting = false := hidle
  have hsent : Dialogue.sentSince s.client ((s.loaded count).pollTimers s.now) = [] := by
    rw [pollTimers_idle hloaded]
    exact sentSince_append (List.append_nil _).symm
  rw [Dialogue.polledTicket, hended, hsent, List.append_nil, List.append_nil]

/-- A reading within the deadline is a true difference of times. -/
theorem early_of_lt {s : Dialogue} {startedAt : ℕ} (hsince : startedAt ≤ s.clock)
    (hearly : s.clock ≤ startedAt + 150)
    (h : s.now - BitVec.ofNat 32 startedAt < kRequestDeadlineMs) : s.clock < startedAt + 150 := by
  have hdiff : (s.now - BitVec.ofNat 32 startedAt).toNat = s.clock - startedAt :=
    ofNat_sub_ofNat hsince (by omega)
  have hlt : (s.now - BitVec.ofNat 32 startedAt).toNat < 150 := h
  omega

/-- A request that a poll gives up has ended by timeout. -/
theorem Phase.gaveUp {s : Dialogue} {count : ℕ} {ticket : Ticket} {rest : List Ticket}
    (tickets : s.tickets = ticket :: rest) (waiting : s.client.waiting = true)
    (ready : s.client.responseReady = false) (opened : Open s.client s.replies ticket)
    (since : ticket.startedAt ≤ s.clock) (early : s.clock ≤ ticket.startedAt + 150)
    (settled : ∀ ticket ∈ rest, Settled ticket)
    (hgaveUp : (s.loaded count).pollTimers s.now = (s.loaded count).giveUp) :
    Phase (s.next (.poll count)) := by
  obtain ⟨-, heard, hheard, hbeaten⟩ := poll_stages (s.loaded count) s.now
  rw [hgaveUp] at hheard
  obtain ⟨store, lastFault, rfl⟩ := hheard.of_idle rfl
  have hpoll : ((s.loaded count).poll s.now).waiting = false ∧
      ((s.loaded count).poll s.now).responseReady = false ∧
      ((s.loaded count).poll s.now).lastCommandStatus = .timeout := by
    generalize (s.loaded count).poll s.now = c at hbeaten
    cases hbeaten with
    | quiet => exact ⟨rfl, ready, rfl⟩
    | unsent _ => exact ⟨rfl, ready, rfl⟩
    | sent _ _ => exact ⟨rfl, ready, rfl⟩
  obtain ⟨hidle, hready, htimeout⟩ := hpoll
  have hended : s.endingOf count =
      [{ reply := none, status := .timeout, ready := false, endedAt := s.clock }] := by
    rw [Dialogue.endingOf, if_pos ⟨waiting, hidle⟩, hready, htimeout]
    rfl
  have hsent : Dialogue.sentSince s.client ((s.loaded count).pollTimers s.now) = [] := by
    rw [hgaveUp]
    exact sentSince_append (List.append_nil _).symm
  refine Phase.idle hidle hready ?_
  rw [Dialogue.next, tickets, List.modifyHead_cons, List.forall_mem_cons]
  refine ⟨?_, settled⟩
  rw [Dialogue.polledTicket, hended, hsent, List.append_nil, opened.unended]
  exact ⟨opened.transmitted, _, ⟨rfl, Outcome.timeout s.clock, since, early⟩, opened.unhanded⟩

/-- A request that the timers leave out stays out, or its reply has come. -/
theorem Phase.heard {s : Dialogue} {count : ℕ} (h : Inv s) {ticket : Ticket} {rest : List Ticket}
    (tickets : s.tickets = ticket :: rest) (waiting : s.client.waiting = true)
    (ready : s.client.responseReady = false) (opened : Open s.client s.replies ticket)
    (since : ticket.startedAt ≤ s.clock) (early : s.clock ≤ ticket.startedAt + 150)
    (settled : ∀ ticket ∈ rest, Settled ticket) (hfresh : s.Enabled (.poll count))
    (hout : ((s.loaded count).pollTimers s.now).waiting = true) : Phase (s.next (.poll count)) := by
  obtain ⟨htimed, heard, hheard, hbeaten⟩ := poll_stages (s.loaded count) s.now
  have hloaded : Numbered [] (s.loaded count) := ⟨h.numbered.ordered, h.numbered.pending⟩
  have hopened : Open (s.loaded count) s.replies ticket :=
    ⟨opened.msgId, opened.payload, opened.started, opened.sent, opened.last, opened.unended,
      opened.unhanded⟩
  have hopened' := hopened.timed hloaded h.echoes htimed hout
  have hnumbered := hloaded.timed htimed
  obtain ⟨⟨-, -, -, hready, hdeadline⟩, -⟩ := timed_outstanding htimed hout
  have hlate : s.clock < ticket.startedAt + 150 := by
    change s.now - s.client.requestStartedMs < kRequestDeadlineMs at hdeadline
    rw [opened.started] at hdeadline
    exact early_of_lt since early hdeadline
  cases hheard with
  | nothing store lastFault unmatched =>
    have hpoll : (s.loaded count).poll s.now =
        load { (s.loaded count).pollTimers s.now with store, lastFault } [] := by
      generalize (s.loaded count).poll s.now = c at hbeaten
      cases hbeaten with
      | quiet => rfl
      | unsent idle => exact Bool.noConfusion (idle.symm.trans hout)
      | sent idle _ => exact Bool.noConfusion (idle.symm.trans hout)
    have hended : s.endingOf count = [] := by
      rw [Dialogue.endingOf, if_neg]
      rw [hpoll]
      rintro ⟨-, hidle⟩
      exact Bool.noConfusion (hidle.symm.trans hout)
    refine Phase.out (s.polledTicket count ticket) rest ?_ ?_ ?_ ?_ since early (fun _ => hlate) settled
    · rw [Dialogue.next, tickets, List.modifyHead_cons]
    · rw [Dialogue.next, hpoll]
      exact hout
    · rw [Dialogue.next, hpoll]
      exact hready.trans ready
    · rw [Dialogue.next, hpoll, Dialogue.polledTicket, hended, List.append_nil]
      refine ⟨hopened'.msgId, hopened'.payload, hopened'.started, hopened'.sent, ?_, hopened'.unended,
        hopened'.unhanded⟩
      intro packet hmem
      refine hopened'.last packet ?_
      exact (((List.drop_sublist count s.replies).filterMap _).append_left _).subset hmem
  | answer frame store lastFault found =>
    -- the frame belongs to one of the replies taken in, and that answers the last transmission
    change ((s.replies.take count).map Reply.frame).find? _ = _ at found
    rw [List.find?_map] at found
    obtain ⟨reply, hfound, hframe⟩ := Option.map_eq_some_iff.mp found
    have hmem : reply ∈ s.replies.take count := List.mem_of_find?_eq_some hfound
    have hmem' : reply ∈ s.replies := List.mem_of_mem_take hmem
    have hmatches : ((s.loaded count).pollTimers s.now).Matches reply.frame := by
      simpa using List.find?_some hfound
    have hgrown : drawn (s.loaded count) ≤ drawn ((s.loaded count).pollTimers s.now) :=
      drawn_timed_le htimed
    obtain ⟨packet, horigin, hstamp⟩ := hnumbered.origin_of_matches
      ((h.echoes reply hmem').mono hgrown) (hfresh reply hmem) hmatches
    have hlast := hopened'.last packet
      (List.mem_append_right _ (List.mem_filterMap.mpr ⟨reply, hmem', horigin⟩)) hstamp
    have hpoll : ((s.loaded count).poll s.now).waiting = false ∧
        ((s.loaded count).poll s.now).responseReady = true ∧
        ((s.loaded count).poll s.now).response = frame ∧
        ((s.loaded count).poll s.now).lastCommandStatus =
          if frame.type = .response then .ok else .protocolError := by
      generalize (s.loaded count).poll s.now = c at hbeaten
      cases hbeaten with
      | quiet => exact ⟨rfl, rfl, rfl, rfl⟩
      | unsent _ => exact ⟨rfl, rfl, rfl, rfl⟩
      | sent _ _ => exact ⟨rfl, rfl, rfl, rfl⟩
    obtain ⟨hidle, hready', hresponse, hstatus⟩ := hpoll
    have hended : s.endingOf count =
        [{ reply := some reply
           status := if frame.type = .response then .ok else .protocolError
           ready := true
           endedAt := s.clock }] := by
      rw [Dialogue.endingOf, if_pos ⟨waiting, hidle⟩, if_pos hready', hready', hstatus]
      rw [← hfound]
      rfl
    subst hframe
    refine Phase.held (s.polledTicket count ticket) rest ?_ hidle hready' ?_ settled
    · rw [Dialogue.next, tickets, List.modifyHead_cons]
    · rw [Dialogue.polledTicket, hended, opened.unended]
      refine ⟨hopened'.transmitted, ⟨_, reply, ⟨rfl, ?_, since, early⟩, rfl, hresponse⟩, opened.unhanded⟩
      have hmsgId : reply.frame.msgId = ticket.msgId := hmatches.2.2.1.trans hopened'.msgId
      rcases hmatches.1 with htype | htype
      · rw [if_pos htype]
        exact Outcome.response reply s.clock htype hmsgId (horigin.trans hlast.symm)
      · rw [if_neg (by rw [htype]; decide)]
        exact Outcome.nack reply s.clock htype hmsgId (horigin.trans hlast.symm)

theorem Phase.poll {s : Dialogue} {count : ℕ} (h : Inv s) (hfresh : s.Enabled (.poll count)) :
    Phase (s.next (.poll count)) := by
  cases h.phase with
  | idle waiting ready settled =>
    have hloaded : (s.loaded count).waiting = false := waiting
    obtain ⟨hidle, hready, -⟩ := poll_idle hloaded s.now
    refine Phase.idle hidle (hready.trans ready) ?_
    rw [Dialogue.next, modifyHead_same _ (polledTicket_idle waiting count)]
    exact settled
  | out ticket rest tickets waiting ready opened since early polled settled =>
    have htimed := pollTimers_timed (s.loaded count) s.now
    cases hout : ((s.loaded count).pollTimers s.now).waiting with
    | true => exact Phase.heard h tickets waiting ready opened since early settled hfresh hout
    | false =>
      refine Phase.gaveUp tickets waiting ready opened since early settled ?_
      generalize (s.loaded count).pollTimers s.now = c at htimed hout
      cases htimed with
      | quiet _ => exact Bool.noConfusion (hout.symm.trans waiting)
      | gaveUp _ => rfl
      | unsent _ _ _ _ => exact Bool.noConfusion (hout.symm.trans waiting)
      | retried _ _ _ _ => exact Bool.noConfusion (hout.symm.trans waiting)
  | held ticket rest tickets waiting ready answered settled =>
    have hloaded : (s.loaded count).waiting = false := waiting
    obtain ⟨hidle, hready, hresponse, -⟩ := poll_idle hloaded s.now
    obtain ⟨htransmitted, ⟨ending, reply, hended, hreply, hheld⟩, hunhanded⟩ := answered
    refine Phase.held ticket rest ?_ hidle (hready.trans ready)
      ⟨htransmitted, ⟨ending, reply, hended, hreply, hresponse.trans hheld⟩, hunhanded⟩ settled
    rw [Dialogue.next, modifyHead_same _ (polledTicket_idle waiting count)]
    exact tickets

theorem Inv.poll {s : Dialogue} {count : ℕ} (h : Inv s) (hfresh : s.Enabled (.poll count)) :
    Inv (s.next (.poll count)) := by
  have hloaded : Numbered [] (s.loaded count) := ⟨h.numbered.ordered, h.numbered.pending⟩
  obtain ⟨hnumbered, hgrown⟩ := hloaded.poll s.now
  refine ⟨hnumbered, ?_, Phase.poll h hfresh⟩
  intro reply hreply
  exact (h.echoes reply (List.mem_of_mem_drop hreply)).mono hgrown

/-! Runs. -/

theorem inv_initial {s : Dialogue} (h : s.Initial) : Inv s := by
  obtain ⟨accepts, clock, rfl⟩ := h
  refine ⟨⟨⟨fun _ h => (by cases h), List.Pairwise.nil, fun _ h => (by cases h)⟩,
    fun h => (by cases h)⟩, fun _ h => (by cases h), Phase.idle rfl rfl fun _ h => (by cases h)⟩

theorem inv_next {s : Dialogue} {action : Action} (h : Inv s) (henabled : s.Enabled action) :
    Inv (s.next action) := by
  cases action with
  | request id payload => exact h.request id payload
  | poll count => exact h.poll henabled
  | takeResponse => exact h.takeResponse
  | answer type payload => exact h.answer payload
  | tell frame => exact h.tell henabled.1 henabled.2
  | keepRequests kept => exact h.keepRequests henabled
  | keepReplies kept => exact h.keepReplies henabled
  | advance => exact h.advance henabled

/-- Every accepted request is sent at most twice and ends within 150 ms in one outcome; a
delivered response answers its last transmission and is handed out once, before the client
accepts another request. -/
theorem requests_correlated (s : Dialogue)
    (h : Reachable Dialogue.Initial (Guarded Dialogue.Enabled Dialogue.next) s) :
    ∀ later ticket earlier, s.tickets = later ++ ticket :: earlier → Correlated s later ticket := by
  intro later ticket earlier htickets
  have hinv := h.keeps Inv (fun _ => inv_initial) fun _ _ _ hinv ⟨henabled, hnext⟩ => by
    rw [hnext]
    exact inv_next hinv henabled
  exact hinv.correlated htickets

/-! A tare, answered and taken. -/

def start : Dialogue := { client := { link := {} }, clock := 0 }

def asked : Dialogue := (start.next (.request MsgId.scaleTare [])).next (.answer .response [])

def tared : Dialogue := (asked.next (.poll 1)).next .takeResponse

theorem requests_correlated_tared :
    ∃ ticket, tared.tickets = [] ++ ticket :: [] ∧ ticket.handed.length = 1 ∧
      Correlated tared [] ticket := by
  have hfresh : asked.Enabled (.poll 1) := by
    intro reply _ packet _
    have hdrawn : drawn ((asked.loaded 1).pollTimers asked.now) = 1 := by decide +kernel
    omega
  have hstart : Reachable Dialogue.Initial (Guarded Dialogue.Enabled Dialogue.next) start :=
    Reachable.init ⟨fun _ => true, 0, rfl⟩
  have hasked := (hstart.next (.request MsgId.scaleTare []) trivial).next (.answer .response [])
    (Or.inl rfl)
  have htared := (hasked.next (.poll 1) hfresh).next .takeResponse trivial
  cases htickets : tared.tickets with
  | nil => exact absurd (congrArg List.length htickets) (by decide +kernel)
  | cons ticket rest =>
    have hrest : rest = [] := by
      have hlength : tared.tickets.length = 1 := by decide +kernel
      rw [htickets] at hlength
      simpa using hlength
    subst hrest
    refine ⟨ticket, rfl, ?_, requests_correlated tared htared [] ticket [] htickets⟩
    have hhanded : tared.tickets.map (fun ticket => ticket.handed.length) = [1] := by decide +kernel
    rw [htickets] at hhanded
    simpa using hhanded

end Culina.Correlation
