import Culina.CStrings
import Culina.Lid
import Culina.Lines

/-!
The control socket of the simulator: what a client sends is taken in chunks, and each line is
executed as a command on the board. Whether the chunks matter is decided by the lengths of the
lines: the limit is looked at behind a chunk, and what is dropped does not take the end of its
line with it.
-/
namespace Culina.ControlServer

open CStrings Lid Lines

/-! Reading from a line as from a stream. -/

/-- A stream reads words of text, without the white space in front of them. -/
def word (text : List Char8) : Option (List Char8 × List Char8) :=
  match text.dropWhile isSpace with
  | [] => none
  | c :: rest => some ((c :: rest).span fun c => !isSpace c)

def optional (accepts : Char8 → Bool) : List Char8 → List Char8 × List Char8
  | [] => ([], [])
  | c :: rest => if accepts c then ([c], rest) else ([], c :: rest)

def isSign (c : Char8) : Bool := c = code '+' || c = code '-'

def isDigit (c : Char8) : Bool := (digit c).isSome

/-- The characters a stream collects for a float: as many as could still belong to one. -/
def floatField (text : List Char8) : List Char8 × List Char8 :=
  let (signed, text) := optional isSign text
  let (whole, text) := text.span isDigit
  let (point, text) := optional (· = code '.') text
  let (fraction, text) := if point = [] then ([], text) else text.span isDigit
  let (mark, text) :=
    if whole = [] ∧ fraction = [] then ([], text) else optional (fun c => lower c = code 'e') text
  let (markSigned, text) := if mark = [] then ([], text) else optional isSign text
  let (power, text) := if mark = [] then ([], text) else text.span isDigit
  (signed ++ whole ++ point ++ fraction ++ mark ++ markSigned ++ power, text)

/-- What was collected has to be a float as a whole. -/
def float (text : List Char8) : Option (CStrings.Float × List Char8) :=
  let (field, rest) := floatField (text.dropWhile isSpace)
  match strtof field with
  | some (value, []) => some (value, rest)
  | _ => none

/-! Commands. -/

/-- What the commands change of the sensors. -/
structure Bowl where
  trueMassG : ℚ := 0
  viscosity : ℚ := 1

def water : List Char8 := codes ['w', 'a', 't', 'e', 'r']
def oil : List Char8 := codes ['o', 'i', 'l']
def flour : List Char8 := codes ['f', 'l', 'o', 'u', 'r']
def other : List Char8 := codes ['o', 't', 'h', 'e', 'r']

def viscosityFor (ingredient : List Char8) : ℚ :=
  if ingredient = water then 1
  else if ingredient = oil then single (9 / 5)
  else if ingredient = flour then 13 / 2
  else 2

def executeAdd (board : SimBoard Bowl) (stream : List Char8) : String × SimBoard Bowl :=
  let invalid := ("error invalid add command\n", board)
  match float stream with
  | some (.finite grams, stream) =>
      match word stream with
      | some (ingredient, stream) =>
          if (word stream).isSome ∨ grams < single (1 / 10) ∨
              grams > 2200 - board.sensors.trueMassG ∨
              ingredient ∉ [water, oil, flour, other] then invalid
          else
            ("ok\n", { board with
              sensors := ⟨board.sensors.trueMassG + grams, viscosityFor ingredient⟩ })
      | none => invalid
  | _ => invalid

def executeLid (board : SimBoard Bowl) (stream : List Char8) : String × SimBoard Bowl :=
  let invalid := ("error invalid lid command\n", board)
  match word stream with
  | some (action, stream) =>
      if (word stream).isSome then invalid
      else if action = codes ['o', 'p', 'e', 'n'] then
        ("ok\n", { board with lid := board.lid.userOpen })
      else if action = codes ['c', 'l', 'o', 's', 'e'] then
        ("ok\n", { board with lid := board.lid.userClose })
      else invalid
  | none => invalid

def execute (board : SimBoard Bowl) (line : List Char8) : String × SimBoard Bowl :=
  match word line with
  | some (command, stream) =>
      if command = codes ['a', 'd', 'd'] then executeAdd board stream
      else if command = codes ['l', 'i', 'd'] then executeLid board stream
      else ("error unknown command\n", board)
  | none => ("error unknown command\n", board)

/-! The server. -/

def newline : Char8 := code '\n'

/-- The buffer of one call of `recv`. -/
abbrev kBufferSize : ℕ := 256

abbrev kMaxInput : ℕ := 512

/-- A server with the responses it has sent and the lines it has executed. -/
structure SimControlServer where
  listening : Bool := true
  connected : Bool := false
  board : SimBoard Bowl
  input : List Char8 := []
  sent : List String := []
  executed : List (List Char8) := []

/-- What a poll finds at the sockets: a client to accept, what it has sent, and its end. -/
structure Arrival where
  waiting : Bool := false
  chunks : List (Chunk Char8 kBufferSize) := []
  closed : Bool := false

namespace SimControlServer

def acceptPending (server : SimControlServer) (waiting : Bool) : SimControlServer :=
  if server.listening = false ∨ server.connected = true then server
  else if waiting = true then { server with connected := true, input := [] }
  else server

def sendResponse (server : SimControlServer) (response : String) : SimControlServer :=
  { server with sent := server.sent ++ [response] }

/-- A line is executed and answered. -/
def run (server : SimControlServer) (line : List Char8) : SimControlServer :=
  { server with
    board := (execute server.board line).2
    sent := server.sent ++ [(execute server.board line).1]
    executed := server.executed ++ [line] }

def executeLines (server : SimControlServer) : SimControlServer :=
  if newline ∈ server.input then
    executeLines { server.run (server.input.take (server.input.idxOf newline)) with
      input := server.input.drop (server.input.idxOf newline + 1) }
  else server
termination_by server.input.length
decreasing_by
  rename_i h
  have := List.idxOf_lt_length_of_mem h
  rw [List.length_drop]
  omega

def processLines (server : SimControlServer) : SimControlServer :=
  let server := server.executeLines
  if server.input.length > kMaxInput then
    { server.sendResponse "error command too long\n" with input := [] }
  else server

def receive (server : SimControlServer) (chunk : Chunk Char8 kBufferSize) : SimControlServer :=
  processLines { server with input := server.input ++ chunk.val }

def poll (server : SimControlServer) (arrival : Arrival) : SimControlServer :=
  let server := server.acceptPending arrival.waiting
  if server.connected = false then server
  else
    let server := arrival.chunks.foldl receive server
    if arrival.closed = true then { server with connected := false, input := [] } else server

/-! A chunk does to the server what it does to a reader of lines. -/

/-- The server with other bytes kept for later. -/
def holding (server : SimControlServer) (input : List Char8) : SimControlServer :=
  { server with input }

def perform (server : SimControlServer) : Event Char8 → SimControlServer
  | .line line => server.run line
  | .dropped => server.sendResponse "error command too long\n"

theorem executeLines_holding (server : SimControlServer) (input : List Char8) :
    (server.holding input).executeLines =
      ((lines newline input).foldl run server).holding (rest newline input) := by
  induction input using stream_induction newline generalizing server with
  | unended input h =>
    rw [executeLines, if_neg (show newline ∉ (server.holding input).input from h),
      lines_of_not_mem h, rest_of_not_mem h]
    rfl
  | ended line input h ih =>
    have hmem : newline ∈ line ++ newline :: input := by simp
    have hindex : (line ++ newline :: input).idxOf newline = line.length := by
      rw [List.idxOf_append_of_notMem h, List.idxOf_cons_self, Nat.add_zero]
    have hline : (line ++ newline :: input).take line.length = line := List.take_left
    have hlater : (line ++ newline :: input).drop (line.length + 1) = input := by
      rw [← List.drop_drop, List.drop_left]
      rfl
    have hnext : (server.holding (line ++ newline :: input)).executeLines =
        ((server.run ((line ++ newline :: input).take
          ((line ++ newline :: input).idxOf newline))).holding
            ((line ++ newline :: input).drop ((line ++ newline :: input).idxOf newline + 1))).executeLines := by
      rw [executeLines, if_pos (show newline ∈ (server.holding (line ++ newline :: input)).input from hmem)]
      rfl
    rw [hnext, hindex, hline, hlater, ih, lines_ended h, rest_ended h, List.foldl_cons]

theorem foldl_perform_lines (server : SimControlServer) (handed : List (List Char8)) :
    (handed.map Event.line).foldl perform server = handed.foldl run server := by
  rw [List.foldl_map]
  rfl

theorem receive_holding (server : SimControlServer) (input : List Char8)
    (chunk : Chunk Char8 kBufferSize) :
    (server.holding input).receive chunk =
      ((feed newline kMaxInput input chunk.val).1.foldl perform server).holding
        (feed newline kMaxInput input chunk.val).2 := by
  change ((server.holding (input ++ chunk.val)).processLines) = _
  unfold processLines
  rw [executeLines_holding]
  by_cases hover : kMaxInput < (rest newline (input ++ chunk.val)).length
  · have hfed : feed newline kMaxInput input chunk.val =
        ((lines newline (input ++ chunk.val)).map Event.line ++ [.dropped], []) := if_pos hover
    rw [hfed, List.foldl_append, foldl_perform_lines]
    exact if_pos hover
  · have hfed : feed newline kMaxInput input chunk.val =
        ((lines newline (input ++ chunk.val)).map Event.line, rest newline (input ++ chunk.val)) :=
      if_neg hover
    rw [hfed, foldl_perform_lines]
    exact if_neg hover

/-- Run lemma. -/
theorem foldl_receive_holding (server : SimControlServer) (input : List Char8)
    (cut : List (Chunk Char8 kBufferSize)) :
    cut.foldl receive (server.holding input) =
      ((read newline kMaxInput input cut).1.foldl perform server).holding
        (read newline kMaxInput input cut).2 := by
  induction cut generalizing server input with
  | nil => rfl
  | cons chunk later ih => rw [List.foldl_cons, receive_holding, ih, Lines.read, List.foldl_append]

/-! What can be seen of the events. -/

theorem perform_executed (server : SimControlServer) (events : List (Event Char8)) :
    (events.foldl perform server).executed = server.executed ++ handed events := by
  induction events generalizing server with
  | nil => exact (List.append_nil _).symm
  | cons event later ih =>
    rw [List.foldl_cons, ih]
    cases event with
    | line line => exact List.append_assoc _ _ _
    | dropped => rfl

theorem perform_sent (server : SimControlServer) (events : List (Event Char8)) :
    (events.foldl perform server).sent.length = server.sent.length + events.length := by
  induction events generalizing server with
  | nil => rfl
  | cons event later ih =>
    have hone : (server.perform event).sent.length = server.sent.length + 1 := by
      cases event <;> exact List.length_append
    rw [List.foldl_cons, ih, hone, List.length_cons]
    omega

theorem perform_connected (server : SimControlServer) (events : List (Event Char8)) :
    (events.foldl perform server).connected = server.connected := by
  induction events generalizing server with
  | nil => rfl
  | cons event later ih =>
    rw [List.foldl_cons, ih]
    cases event <;> rfl

end SimControlServer

/-! A client that connects and sends a stream. -/

open SimControlServer

/-- What the client and the board see of the server. -/
structure Outcome where
  executed : List (List Char8)
  sent : List String
  board : SimBoard Bowl

def outcome (server : SimControlServer) : Outcome := ⟨server.executed, server.sent, server.board⟩

/-- A fresh server accepts the client; each poll then finds some chunks of what it sends. -/
def serve (board : SimBoard Bowl) (polls : List (List (Chunk Char8 kBufferSize))) :
    SimControlServer :=
  polls.foldl (fun server chunks => server.poll { chunks })
    (SimControlServer.poll { board } { waiting := true })

theorem poll_holding {server : SimControlServer} (h : server.connected = true) (input : List Char8)
    (chunks : List (Chunk Char8 kBufferSize)) :
    (server.holding input).poll { chunks } = chunks.foldl receive (server.holding input) := by
  have haccept : (server.holding input).acceptPending false = server.holding input :=
    if_pos (Or.inr h)
  have hconnected : ¬ (server.holding input).connected = false := by
    change ¬ server.connected = false
    rw [h]
    decide
  unfold poll
  dsimp only
  rw [haccept, if_neg hconnected, if_neg Bool.false_ne_true]

/-- It makes no difference which poll finds a chunk. -/
theorem serve_eq (board : SimBoard Bowl) (polls : List (List (Chunk Char8 kBufferSize))) :
    serve board polls =
      ((read newline kMaxInput [] polls.flatten).1.foldl perform { board, connected := true }).holding
        (read newline kMaxInput [] polls.flatten).2 := by
  have hpolls (server : SimControlServer) (hserver : server.connected = true) (input : List Char8) :
      polls.foldl (fun server chunks => server.poll { chunks }) (server.holding input) =
        polls.flatten.foldl receive (server.holding input) := by
    induction polls generalizing server input with
    | nil => rfl
    | cons chunks later ih =>
      rw [List.foldl_cons, poll_holding hserver, List.flatten_cons, List.foldl_append,
        foldl_receive_holding, ih]
      rw [perform_connected, hserver]
  have hstart : SimControlServer.poll { board } { waiting := true } =
      SimControlServer.holding { board, connected := true } [] := rfl
  rw [serve, hstart, hpolls _ rfl, foldl_receive_holding]

/-- The chunks a stream arrives in make no difference, and only whole lines of it are executed,
exactly when its lines keep within the limit and the rest has a length for which every cut overruns
the limit equally often. -/
theorem chunks_irrelevant_iff (board : SimBoard Bowl) (stream : List Char8) :
    ((∀ polls polls', joined polls.flatten = stream → joined polls'.flatten = stream →
        outcome (serve board polls) = outcome (serve board polls')) ∧
      ∀ polls, joined polls.flatten = stream →
        (serve board polls).executed.Sublist (lines newline stream)) ↔
      Framed newline kMaxInput kBufferSize stream := by
  constructor
  · rintro ⟨hsame, -⟩
    apply framed_of_same (by decide) (by decide)
    intro cut cut' hcut hcut'
    have hequal := hsame [cut] [cut'] (by rwa [List.flatten_singleton]) (by rwa [List.flatten_singleton])
    rw [serve_eq, serve_eq, List.flatten_singleton, List.flatten_singleton] at hequal
    constructor
    · have hexecuted := congrArg Outcome.executed hequal
      change (List.foldl perform _ _).executed = (List.foldl perform _ _).executed at hexecuted
      rwa [perform_executed, perform_executed, List.append_cancel_left_eq] at hexecuted
    · have hsent := congrArg (fun seen => seen.sent.length) hequal
      change (List.foldl perform _ _).sent.length = (List.foldl perform _ _).sent.length at hsent
      rwa [perform_sent, perform_sent, Nat.add_left_cancel_iff] at hsent
  · intro hframed
    have hevents (polls : List (List (Chunk Char8 kBufferSize))) (h : joined polls.flatten = stream) :=
      hframed.events (by decide) h
    constructor
    · intro polls polls' hpolls hpolls'
      rw [serve_eq, serve_eq, hevents polls hpolls, hevents polls' hpolls']
      rfl
    · intro polls hpolls
      rw [serve_eq, hevents polls hpolls]
      change (List.foldl perform _ _).executed.Sublist _
      rw [perform_executed, handed_append, handed_lines, handed_drops, List.append_nil]
      exact List.Sublist.refl _

/-! The end of a line that was dropped. -/

def filler : Chunk Char8 kBufferSize :=
  ⟨List.replicate kBufferSize (code 'x'), by
    rw [List.length_replicate]
    decide⟩

def lidOpen : List Char8 := codes ['l', 'i', 'd', ' ', 'o', 'p', 'e', 'n']

def together : List (Chunk Char8 kBufferSize) :=
  [filler, filler, ⟨code 'x' :: lidOpen ++ [newline], by decide⟩]

def apart : List (Chunk Char8 kBufferSize) :=
  [filler, filler, ⟨[code 'x'], by decide⟩, ⟨lidOpen ++ [newline], by decide⟩]

/-- The same bytes open the lid or do not. -/
theorem chunks_matter :
    joined together = joined apart ∧
      (serve { sensors := {} } [together]).executed = [List.replicate 513 (code 'x') ++ lidOpen] ∧
      (serve { sensors := {} } [together]).board.lid.closed = true ∧
      (serve { sensors := {} } [apart]).executed = [lidOpen] ∧
      (serve { sensors := {} } [apart]).board.lid.closed = false := by
  rw [serve_eq, serve_eq]
  decide +kernel

end Culina.ControlServer
