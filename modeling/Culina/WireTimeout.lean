import Culina.SerialLink
import Culina.Counters

/-!
The wire timeout. A deadline is set when the parser leaves its idle state, not when a
candidate begins, so a candidate that replaces an abandoned one inherits its deadline.
The times are true milliseconds here; the clock shows them modulo its width.
-/
namespace Culina.WireTimeout

open Wire Framing SerialLink Counters

def timeoutMs : ℕ := 50

/-- What the millisecond clock shows at a true time. -/
def shown (time : ℕ) : Millis := BitVec.ofNat 32 time

/-- When the candidate in progress began, and when the parser was last idle before it. -/
structure Ages where
  start : ℕ := 0
  origin : ℕ := 0

/-- One byte read at this time. A byte after which the parser waits for the second sync byte is the
first of a candidate. -/
def Ages.note (ages : Ages) (time : ℕ) (old new : FrameParser) : Ages where
  start := if new.state = .sync1 then time else ages.start
  origin := if old.inProgress = false ∧ new.inProgress = true then time else ages.origin

/-- The bytes that the read loop of one poll takes in. -/
def Ages.read (ages : Ages) (time : ℕ) (parser : FrameParser) : List Byte → Ages
  | [] => ages
  | byte :: rest =>
      match parser.feed byte true with
      | (parser', some _) => ages.note time parser parser'
      | (parser', none) => Ages.read (ages.note time parser parser') time parser' rest

/-- A link with the true time and the ages of its candidate. -/
structure Watched where
  link : Link
  time : ℕ
  ages : Ages := {}

/-- Polls are less than 2³¹ milliseconds apart. -/
inductive Event where
  | receive (bytes : List Byte)
  | poll (elapsed : Fin (2 ^ 31))

namespace Watched

/-- The read loop of a poll that comes this much later. -/
def readLoop (w : Watched) (elapsed : ℕ) : Option Frame × Link :=
  w.link.flushTx.readBytes (shown (w.time + elapsed)) w.link.flushTx.uart.rx

/-- The ages that the read loop leaves. -/
def readAges (w : Watched) (elapsed : ℕ) : Ages :=
  w.ages.read (w.time + elapsed) w.link.flushTx.parser w.link.flushTx.uart.rx

/-- The read loop ends with an unfinished candidate. -/
def Unfinished (w : Watched) (elapsed : ℕ) : Prop :=
  (w.readLoop elapsed).1 = none ∧ (w.readLoop elapsed).2.parser.inProgress = true

/-- The timeout resets the parser. -/
def TimesOut (w : Watched) (elapsed : ℕ) : Prop :=
  w.Unfinished elapsed ∧
    0 < (shown (w.time + elapsed) - (w.readLoop elapsed).2.frameDeadlineMs).toInt

def next (w : Watched) : Event → Watched
  | .receive bytes => { w with link := { w.link with uart := w.link.uart.receive bytes } }
  | .poll elapsed =>
      { link := (w.link.poll (shown (w.time + elapsed))).2
        time := w.time + elapsed
        ages := w.readAges elapsed }

end Watched

/-- A link as constructed, at any time. -/
def booted (accept : ℕ → ℕ → ℕ) (time : ℕ) : Watched := { link := { uart := { accept } }, time }

/-! The read loop. -/

/-- The deadline of a candidate in progress is that of the byte that ended the idle state, and this
byte is not older than `since`. -/
structure Dated (since time : ℕ) (ages : Ages) (link : Link) : Prop where
  deadline : link.parser.inProgress = true →
    link.frameDeadlineMs = shown (ages.origin + timeoutMs)
  origin : link.parser.inProgress = true → since ≤ ages.origin + timeoutMs
  order : link.parser.inProgress = true → ages.origin ≤ ages.start ∧ ages.start ≤ time

theorem dated_of_idle {since time : ℕ} {ages : Ages} {link : Link}
    (h : link.parser.inProgress = false) : Dated since time ages link := by
  refine ⟨?_, ?_, ?_⟩
  · exact fun hbusy => Bool.noConfusion (h.symm.trans hbusy)
  · exact fun hbusy => Bool.noConfusion (h.symm.trans hbusy)
  · exact fun hbusy => Bool.noConfusion (h.symm.trans hbusy)

theorem shown_add_timeout (time : ℕ) : shown time + kFrameTimeoutMs = shown (time + timeoutMs) :=
  (BitVec.ofNat_add time timeoutMs).symm

/-- Only a first sync byte ends the idle state. -/
theorem state_of_leaving {p : FrameParser} {byte : Byte} (hidle : p.inProgress = false)
    (hbusy : (p.feed byte true).1.inProgress = true) : (p.feed byte true).1.state = .sync1 := by
  have hs : p.state = .sync0 := by simpa [FrameParser.inProgress] using hidle
  rw [FrameParser.feed_sync0 byte hs] at hbusy ⊢
  split at hbusy
  · rw [if_pos ‹_›]
  · exact Bool.noConfusion (hidle.symm.trans hbusy)

theorem idle_of_delivered {p : FrameParser} {byte : Byte} {f : Frame}
    (h : (p.feed byte true).2 = some f) : (p.feed byte true).1.inProgress = false := by
  obtain ⟨hs, hcrc, -⟩ := FrameParser.feed_eq_some byte h
  rw [FrameParser.feed_crcHi byte hs, if_neg (not_not.mpr hcrc)]
  rfl

/-- The link after a byte that completes no frame. -/
def fed (link : Link) (now : Millis) (byte : Byte) : Link :=
  { link with
    parser := (link.parser.feed byte true).1
    frameDeadlineMs :=
      if !link.parser.inProgress && (link.parser.feed byte true).1.inProgress then now + kFrameTimeoutMs
      else link.frameDeadlineMs }

theorem Dated.fed {since time : ℕ} {ages : Ages} {link : Link} (h : Dated since time ages link)
    (hsince : since ≤ time + timeoutMs) (byte : Byte) :
    Dated since time (ages.note time link.parser (link.parser.feed byte true).1)
      (WireTimeout.fed link (shown time) byte) := by
  cases hbusy' : (link.parser.feed byte true).1.inProgress with
  | false => exact dated_of_idle hbusy'
  | true =>
    cases hbusy : link.parser.inProgress with
    | false =>
      have hstate := state_of_leaving hbusy hbusy'
      have hnoted : ages.note time link.parser (link.parser.feed byte true).1 = ⟨time, time⟩ := by
        simp [Ages.note, hstate, hbusy, hbusy']
      rw [hnoted]
      refine ⟨fun _ => ?_, fun _ => hsince, fun _ => ⟨le_rfl, le_rfl⟩⟩
      simp only [WireTimeout.fed, hbusy, hbusy', Bool.not_false, Bool.and_self, if_true]
      exact shown_add_timeout time
    | true =>
      obtain ⟨hle, hle'⟩ := h.order hbusy
      have hnoted : ages.note time link.parser (link.parser.feed byte true).1 =
          ⟨if (link.parser.feed byte true).1.state = .sync1 then time else ages.start, ages.origin⟩ := by
        simp [Ages.note, hbusy]
      rw [hnoted]
      refine ⟨fun _ => ?_, fun _ => h.origin hbusy, fun _ => ?_⟩
      · simp only [WireTimeout.fed, hbusy, Bool.not_true, Bool.false_and, Bool.false_eq_true, if_false]
        exact h.deadline hbusy
      · dsimp only
        split
        · exact ⟨hle.trans hle', le_rfl⟩
        · exact ⟨hle, hle'⟩

theorem Dated.readBytes {since time : ℕ} {ages : Ages} {link : Link} (h : Dated since time ages link)
    (hsince : since ≤ time + timeoutMs) (bytes : List Byte) :
    Dated since time (ages.read time link.parser bytes) (link.readBytes (shown time) bytes).2 := by
  induction bytes generalizing link ages with
  | nil => exact ⟨h.deadline, h.origin, h.order⟩
  | cons byte rest ih =>
    have hfed := h.fed hsince byte
    have hidle : ∀ f, (link.parser.feed byte true).2 = some f →
        (link.parser.feed byte true).1.inProgress = false := fun f => idle_of_delivered
    unfold WireTimeout.fed at hfed
    rcases hfeed : link.parser.feed byte true with ⟨parser, _ | frame⟩
    · rw [hfeed] at hfed
      simp only [Ages.read, Link.readBytes, hfeed]
      exact ih hfed
    · rw [hfeed] at hidle
      simp only [Ages.read, Link.readBytes, hfeed]
      exact dated_of_idle (hidle frame rfl)

/-- A read loop that delivers a frame leaves the parser idle. -/
theorem none_of_busy (link : Link) (now : Millis) (bytes : List Byte)
    (hbusy : (link.readBytes now bytes).2.parser.inProgress = true) :
    (link.readBytes now bytes).1 = none := by
  induction bytes generalizing link with
  | nil => rfl
  | cons byte rest ih =>
    have hidle : ∀ f, (link.parser.feed byte true).2 = some f →
        (link.parser.feed byte true).1.inProgress = false := fun f => idle_of_delivered
    rcases hfeed : link.parser.feed byte true with ⟨parser, _ | frame⟩
    · simp only [Link.readBytes, hfeed] at hbusy ⊢
      exact ih _ hbusy
    · rw [hfeed] at hidle
      simp only [Link.readBytes, hfeed] at hbusy
      exact Bool.noConfusion ((hidle frame rfl).symm.trans hbusy)

/-! Polls. -/

namespace Watched

/-- Between polls the candidate in progress is no older than the timeout. -/
def Inv (w : Watched) : Prop := Dated w.time w.time w.ages w.link

theorem loop_dated {w : Watched} (h : w.Inv) (elapsed : ℕ) :
    Dated w.time (w.time + elapsed) (w.readAges elapsed) (w.readLoop elapsed).2 := by
  have hflushed : Dated w.time (w.time + elapsed) w.ages w.link.flushTx := by
    refine ⟨?_, ?_, ?_⟩
    · rw [Link.parser_flushTx, Link.flushTx_frameDeadlineMs]
      exact h.deadline
    · rw [Link.parser_flushTx]
      exact h.origin
    · rw [Link.parser_flushTx]
      intro hbusy
      obtain ⟨hle, hle'⟩ := h.order hbusy
      exact ⟨hle, hle'.trans (Nat.le_add_right _ _)⟩
  exact hflushed.readBytes (by unfold timeoutMs; omega) _

/-- The poll resets an unfinished candidate exactly when its deadline has passed. -/
theorem poll_eq (w : Watched) (elapsed : ℕ) :
    (w.TimesOut elapsed → (w.link.poll (shown (w.time + elapsed))).2 =
        { (w.readLoop elapsed).2 with parser := (w.readLoop elapsed).2.parser.reset }) ∧
      (¬ w.TimesOut elapsed →
        (w.link.poll (shown (w.time + elapsed))).2 = (w.readLoop elapsed).2) := by
  unfold TimesOut Unfinished readLoop Link.poll
  dsimp only
  rcases w.link.flushTx.readBytes (shown (w.time + elapsed)) w.link.flushTx.uart.rx with
    ⟨_ | frame, after⟩
  · dsimp only
    by_cases hlate : after.parser.inProgress = true ∧
        0 < (shown (w.time + elapsed) - after.frameDeadlineMs).toInt
    · rw [if_pos (Bool.and_eq_true_iff.mpr ⟨hlate.1, decide_eq_true hlate.2⟩)]
      exact ⟨fun _ => rfl, fun h => absurd ⟨⟨rfl, hlate.1⟩, hlate.2⟩ h⟩
    · rw [if_neg]
      · exact ⟨fun h => absurd ⟨h.1.2, h.2⟩ hlate, fun _ => rfl⟩
      · intro h
        obtain ⟨hbusy, hpast⟩ := Bool.and_eq_true_iff.mp h
        exact hlate ⟨hbusy, of_decide_eq_true hpast⟩
  · exact ⟨fun h => absurd h.1.1 (Option.some_ne_none frame), fun _ => rfl⟩

/-- The timeout measures from the byte that ended the idle state. -/
theorem timesOut_iff {w : Watched} (h : w.Inv) {elapsed : ℕ} (helapsed : elapsed < 2 ^ 31) :
    w.TimesOut elapsed ↔
      w.Unfinished elapsed ∧ (w.readAges elapsed).origin + timeoutMs < w.time + elapsed := by
  have hdated := loop_dated h elapsed
  refine and_congr_right fun hunfinished => ?_
  have horigin := hdated.origin hunfinished.2
  obtain ⟨hle, hle'⟩ := hdated.order hunfinished.2
  rw [hdated.deadline hunfinished.2, shown, shown]
  have hbehind : (w.readAges elapsed).origin + timeoutMs ≤ w.time + elapsed + 2 ^ 31 := by
    unfold timeoutMs
    omega
  have hahead : w.time + elapsed < (w.readAges elapsed).origin + timeoutMs + 2 ^ 31 := by omega
  rw [toInt_sub_ofNat (w := 31) hbehind hahead]
  omega

theorem inv_next {w : Watched} (h : w.Inv) (event : Event) : (w.next event).Inv := by
  cases event with
  | receive bytes => exact ⟨h.deadline, h.origin, h.order⟩
  | poll elapsed =>
    have hdated := loop_dated h elapsed
    obtain ⟨htimedOut, hkept⟩ := poll_eq w elapsed
    change Dated (w.time + elapsed) (w.time + elapsed) (w.readAges elapsed) _
    by_cases htimesOut : w.TimesOut elapsed
    · rw [next, htimedOut htimesOut]
      exact dated_of_idle rfl
    · rw [next, hkept htimesOut]
      refine ⟨hdated.deadline, ?_, hdated.order⟩
      intro hbusy
      by_contra hlate
      rw [not_le] at hlate
      have hnone := none_of_busy _ _ _ hbusy
      exact htimesOut ((timesOut_iff h elapsed.isLt).mpr ⟨⟨hnone, hbusy⟩, hlate⟩)

theorem inv_run (accept : ℕ → ℕ → ℕ) (time : ℕ) (events : List Event) :
    (events.foldl next (booted accept time)).Inv := by
  suffices h : ∀ w : Watched, w.Inv → (events.foldl next w).Inv from h _ (dated_of_idle rfl)
  induction events with
  | nil => exact fun _ h => h
  | cons event rest ih => exact fun w h => ih _ (inv_next h event)

end Watched

/-! Runs. -/

/-- Whenever a poll of the run resets the parser, the candidate began more than 50 ms ago. -/
def KeepsYoung (w : Watched) (events : List Event) : Prop :=
  ∀ front (elapsed : Fin (2 ^ 31)) back, events = front ++ .poll elapsed :: back →
    (front.foldl Watched.next w).TimesOut elapsed →
      ((front.foldl Watched.next w).readAges elapsed).start + timeoutMs <
        (front.foldl Watched.next w).time + elapsed

/-- Whenever a poll of the run ends with an unfinished candidate that began at most 50 ms ago, the
parser was idle before a byte of the last 50 ms as well. -/
def ChainsYoung (w : Watched) (events : List Event) : Prop :=
  ∀ front (elapsed : Fin (2 ^ 31)) back, events = front ++ .poll elapsed :: back →
    (front.foldl Watched.next w).Unfinished elapsed →
      (front.foldl Watched.next w).time + elapsed ≤
          ((front.foldl Watched.next w).readAges elapsed).start + timeoutMs →
        (front.foldl Watched.next w).time + elapsed ≤
          ((front.foldl Watched.next w).readAges elapsed).origin + timeoutMs

/-- The timeout spares young candidates exactly in the runs where none continues an old chain. -/
theorem keeps_young_iff (accept : ℕ → ℕ → ℕ) (time : ℕ) (events : List Event) :
    KeepsYoung (booted accept time) events ↔ ChainsYoung (booted accept time) events := by
  constructor
  · intro h front elapsed back hsplit hunfinished hyoung
    have hinv := Watched.inv_run accept time front
    by_contra hold
    rw [not_le] at hold
    have hreset := h front elapsed back hsplit
      ((Watched.timesOut_iff hinv elapsed.isLt).mpr ⟨hunfinished, hold⟩)
    omega
  · intro h front elapsed back hsplit htimesOut
    have hinv := Watched.inv_run accept time front
    obtain ⟨hunfinished, hold⟩ := (Watched.timesOut_iff hinv elapsed.isLt).mp htimesOut
    by_contra hyoung
    rw [not_lt] at hyoung
    have hchain := h front elapsed back hsplit hunfinished hyoung
    omega

/-- A sync pair at 0 ms; at 45 ms the byte due as its version is the sync byte of a new frame, the
rest of which is still on its way at 60 ms. -/
def replacedRun : List Event :=
  [.receive [kSync0, kSync1], .poll 0, .receive [kSync0, kSync1, kVersion], .poll 45, .poll 15]

/-- The new frame is dropped 15 ms after its first byte. -/
theorem young_dropped : ¬ KeepsYoung (booted (fun _ _ => 0) 0) replacedRun := by
  intro h
  have hreset := h (replacedRun.take 4) 15 [] rfl (by
    refine ⟨⟨by decide +kernel, by decide +kernel⟩, by decide +kernel⟩)
  revert hreset
  decide +kernel

end Culina.WireTimeout
