import Culina.Packets
import Culina.Programs

/-!
The lid of a turbo pulse. The pulse releases the lid in the last of its phases, and only while it is
ticked; a session ends with the lid released exactly as far as nobody stops it in between.
-/
namespace Culina.TurboRelease

open Wire Ports Client McuClient Cooking CookingController Sessions Programs TurboPulse Runs

variable {K : Type} [LinkPort K]

/-! The session, with what the client has accepted since it began. -/

/-- A request that the client accepted. -/
structure Accepted where
  request : Request
  rpm : Option ℕ
  byTurbo : Bool
deriving DecidableEq

/-- The speed in the latest telemetry. -/
def shownRpm (c : McuClient K) : Option ℕ :=
  if c.store.hasData = true then some c.store.latest.rpm else none

def isTurbo : AnyProgram → Bool
  | .turbo _ => true
  | _ => false

/-- A turbo pulse takes the next tick. -/
def turboNext (c : CookingController K AnyProgram) : Bool :=
  decide (c.state = .running ∧ ¬ c.Alarmed) && c.program.any isTurbo

structure Session (K : Type) where
  app : CookingController (Tap K) AnyProgram
  log : List Accepted := []

def start (link : Tap K) (ota : Option Services.OtaUpdater) : Session K := { app := initial link ota }

/-- A program that begins opens a new log. -/
def next (s : Session K) (event : AppEvent (Tap K) AnyProgram) : Session K :=
  let app := Sessions.apply s.app event
  let accepted (byTurbo : Bool) := (acceptedBetween s.app.mcu app.mcu).map fun request =>
    (⟨request, shownRpm s.app.mcu, byTurbo⟩ : Accepted)
  match event with
  | .tick _ =>
      if s.app.state = .stopping ∧ app.state = .running then { app }
      else { app, log := s.log ++ accepted (turboNext s.app) }
  | .direct _ _ => { app, log := s.log ++ accepted false }
  | _ => { app, log := s.log }

/-- The pulse has the lid locked. -/
def Locks (entry : Accepted) : Prop := entry.byTurbo = true ∧ entry.request.2.1 = MsgId.lidLock

def Slow (entry : Accepted) : Prop := ∃ rpm, entry.rpm = some rpm ∧ rpm < 100

def Unlocks (entry : Accepted) : Prop := entry.request.2.1 = MsgId.lidUnlock ∧ Slow entry

/-- The pulse unlocks a slow motor only, and a session that is done has released the lid. -/
structure Released (s : Session K) : Prop where
  slow : ∀ entry ∈ s.log, entry.byTurbo = true → entry.request.2.1 = MsgId.lidUnlock → Slow entry
  done : s.app.state = .done → AnsweredSince Locks Unlocks s.log

/-- A pulse between its lock and its release. -/
def HoldsLid : Option AnyProgram → Prop
  | some (.turbo program) =>
      program.phase = .spinning ∨ program.phase = .stopping ∨ program.phase = .unlocking
  | _ => False

/-- Nobody stops a pulse between its lock and its release; after a fault `stop` does nothing. -/
def Permitted (s : Session K) : AppEvent (Tap K) AnyProgram → Prop
  | .stop => s.app.state = .faulted ∨ ¬ HoldsLid s.app.program
  | _ => True

/-! The pulse. -/

/-- What the tick of a pulse does: it locks, it releases, or the lid stays as it is. -/
inductive Pulsed (program : TurboPulse) (c : McuClient (Tap K)) (program' : TurboPulse) :
    List Request → Prop
  | locks (phase : program'.phase = .spinning) :
      Pulsed program c program' [bareRequest MsgId.lidLock]
  | releases (slow : ∃ rpm, shownRpm c = some rpm ∧ rpm < 100) (phase : program'.phase = .finished) :
      Pulsed program c program' [bareRequest MsgId.lidUnlock]
  | keeps (requests : List Request)
      (lid : ∀ request ∈ requests, request.2.1 ≠ MsgId.lidLock ∧ request.2.1 ≠ MsgId.lidUnlock)
      (holds : HoldsLid (some (.turbo program')) ↔ HoldsLid (some (.turbo program))) :
      Pulsed program c program' requests

theorem onTick_pulsed (program : TurboPulse) (c : McuClient (Tap K)) (now elapsed : Millis) :
    Pulsed program c (program.onTick c now elapsed).1
      (acceptedBetween c (program.onTick c now elapsed).2) := by
  have hone {id : MsgId} (payload : List Byte)
      (hlid : id ≠ MsgId.lidLock ∧ id ≠ MsgId.lidUnlock) :
      ∀ r ∈ acceptedBetween c (c.request now id payload).2,
        r.2.1 ≠ MsgId.lidLock ∧ r.2.1 ≠ MsgId.lidUnlock := by
    intro r hr
    rw [request_accepted] at hr
    split at hr
    · rw [List.mem_singleton.mp hr]
      exact hlid
    · cases hr
  have hnone : ∀ r ∈ acceptedBetween c c, r.2.1 ≠ MsgId.lidLock ∧ r.2.1 ≠ MsgId.lidUnlock := by
    rw [acceptedBetween_self]
    exact nofun
  unfold onTick
  cases hphase : program.phase with
  | locking =>
    dsimp only
    have haccepted : acceptedBetween c (c.lockLid now true).2 =
        if (c.lockLid now true).1 = .ok then [bareRequest MsgId.lidLock] else [] :=
      request_accepted c now _ _
    by_cases hok : (c.lockLid now true).1 = .ok
    · rw [haccepted, if_pos hok, if_pos hok]
      exact Pulsed.locks rfl
    · rw [haccepted, if_neg hok, if_neg hok]
      exact Pulsed.keeps _ nofun Iff.rfl
  | spinning =>
    have hholds (program' : TurboPulse) (h : program'.phase = .spinning ∨ program'.phase = .stopping) :
        HoldsLid (some (.turbo program')) ↔ HoldsLid (some (.turbo program)) := by
      rcases h with h | h <;> simp [HoldsLid, h, hphase]
    dsimp only
    by_cases hstarted : program.spinStartedMs = 0
    · rw [if_pos hstarted]
      refine Pulsed.keeps _ (hone _ (by decide)) (hholds _ (Or.inl ?_))
      split
      · rfl
      · exact hphase
    · rw [if_neg hstarted]
      refine Pulsed.keeps _ hnone (hholds _ ?_)
      dsimp only
      split
      · exact Or.inr rfl
      · exact Or.inl hphase
  | stopping =>
    refine Pulsed.keeps _ (hone _ (by decide)) ?_
    dsimp only
    split
    · simp [HoldsLid, hphase]
    · exact Iff.rfl
  | unlocking =>
    dsimp only
    by_cases hfast : c.store.hasData = false ∨ c.store.latest.rpm ≥ 100
    · rw [if_pos hfast]
      exact Pulsed.keeps _ hnone Iff.rfl
    · rw [if_neg hfast]
      rw [not_or, Bool.not_eq_false, not_le] at hfast
      have haccepted : acceptedBetween c (c.lockLid now false).2 =
          if (c.lockLid now false).1 = .ok then [bareRequest MsgId.lidUnlock] else [] :=
        request_accepted c now _ _
      dsimp only
      by_cases hok : (c.lockLid now false).1 = .ok
      · rw [haccepted, if_pos hok, if_pos hok]
        exact Pulsed.releases ⟨_, if_pos hfast.1, hfast.2⟩ rfl
      · rw [haccepted, if_neg hok, if_neg hok]
        exact Pulsed.keeps _ nofun Iff.rfl
  | finished => exact Pulsed.keeps _ hnone Iff.rfl

/-! The controller. -/

/-- What holds of the log, and where a pulse that holds the lid can be. -/
structure Inv (s : Session K) : Prop where
  slow : ∀ entry ∈ s.log, entry.byTurbo = true → entry.request.2.1 = MsgId.lidUnlock → Slow entry
  free : ¬ HoldsLid s.app.program → AnsweredSince Locks Unlocks s.log
  held : HoldsLid s.app.program → s.app.state = .running ∨ s.app.state = .faulted ∨
    (s.app.state = .stopping ∧ s.app.startAfterShutdown = true)
  pending : s.app.startAfterShutdown = true → s.app.pendingProgram ≠ none
  stopping : s.app.state = .stopping → s.app.faultShutdown = false
  faulted : s.app.state = .faulted → s.app.faultShutdown = true

omit [LinkPort K] in
theorem inv_start (link : Tap K) (ota : Option Services.OtaUpdater) : Inv (start link ota) :=
  ⟨nofun, fun _ => answeredSince_nil, nofun, nofun, nofun, nofun⟩

omit [LinkPort K] in
theorem Inv.released {s : Session K} (h : Inv s) : Released s := by
  refine ⟨h.slow, fun hdone => h.free fun hholds => ?_⟩
  rcases h.held hholds with hstate | hstate | ⟨hstate, -⟩
  all_goals
    rw [hdone] at hstate
    cases hstate

omit [LinkPort K] in
/-- Requests that are not the pulse's change nothing about the log. -/
theorem Inv.log {s : Session K} (h : Inv s) (requests : List Request) (rpm : Option ℕ) :
    Inv { s with log := s.log ++ requests.map fun request => ⟨request, rpm, false⟩ } := by
  have hnew {entry : Accepted} (hentry : entry ∈ requests.map fun request =>
      (⟨request, rpm, false⟩ : Accepted)) : entry.byTurbo = false := by
    obtain ⟨request, -, rfl⟩ := List.mem_map.mp hentry
    rfl
  refine ⟨fun entry hentry hturbo => ?_, fun hfree => ?_, h.held, h.pending, h.stopping, h.faulted⟩
  · rcases List.mem_append.mp hentry with hentry | hentry
    · exact h.slow entry hentry hturbo
    · exact Bool.noConfusion ((hnew hentry).symm.trans hturbo)
  · exact (h.free hfree).append fun entry hentry hlocks =>
      Bool.noConfusion ((hnew hentry).symm.trans hlocks.1)

/-- What the session keeps while the lid does not move. -/
structure SameSession (c c' : CookingController (Tap K) AnyProgram) : Prop where
  state : c'.state = c.state
  program : HoldsLid c'.program ↔ HoldsLid c.program
  startAfterShutdown : c'.startAfterShutdown = c.startAfterShutdown
  pendingProgram : c'.pendingProgram = c.pendingProgram
  faultShutdown : c'.faultShutdown = c.faultShutdown

omit [LinkPort K] in
theorem Inv.keep {s : Session K} (h : Inv s) {app : CookingController (Tap K) AnyProgram}
    (same : SameSession s.app app) : Inv { s with app } := by
  obtain ⟨hstate, hprogram, hstart, hpending, hfault⟩ := same
  refine ⟨h.slow, fun hfree => h.free (hprogram.not.mp hfree), fun hholds => ?_, ?_, ?_, ?_⟩
  · rw [hstate, hstart]
    exact h.held (hprogram.mp hholds)
  · rw [hstart, hpending]
    exact h.pending
  · rw [hstate, hfault]
    exact h.stopping
  · rw [hstate, hfault]
    exact h.faulted

omit [LinkPort K] in
/-- A shutdown by fault, or one by a program that does not hold the lid. -/
theorem Inv.beginShutdown {s : Session K} (h : Inv s) (faulted : Bool)
    (hfree : faulted = false → ¬ HoldsLid s.app.program) :
    Inv { s with app := s.app.beginShutdown faulted } := by
  refine ⟨h.slow, h.free, fun hholds => ?_, nofun, ?_, ?_⟩
  · cases faulted with
    | true => exact Or.inr (Or.inl rfl)
    | false => exact absurd hholds (hfree rfl)
  · cases faulted with
    | true => exact nofun
    | false => exact fun _ => rfl
  · cases faulted with
    | true => exact fun _ => rfl
    | false => exact nofun

/-- The stopping sequence: it goes on, begins the next program or comes to rest. -/
theorem Inv.runStoppingSequence {s : Session K} (h : Inv s)
    (hstopping : s.app.state = .stopping ∨ s.app.state = .faulted) (response : Option Frame)
    (now : Millis) :
    if s.app.state = .stopping ∧ (s.app.runStoppingSequence response now).state = .running then
      Inv ({ app := s.app.runStoppingSequence response now } : Session K)
    else Inv { s with app := s.app.runStoppingSequence response now } := by
  have hacknowledged : SameSession s.app (s.app.acknowledge response) := by
    have hack := acknowledge_acknowledged s.app response
    generalize s.app.acknowledge response = c' at hack
    cases hack <;> exact ⟨rfl, Iff.rfl, rfl, rfl, rfl⟩
  have hrearmed : SameSession (s.app.acknowledge response) (s.app.acknowledge response).rearm := by
    have hrearm := rearm_rearmed (s.app.acknowledge response)
    generalize (s.app.acknowledge response).rearm = c' at hrearm
    cases hrearm <;> exact ⟨rfl, Iff.rfl, rfl, rfl, rfl⟩
  have hkept := (h.keep hacknowledged).keep hrearmed
  have hstate : (s.app.acknowledge response).rearm.state = s.app.state :=
    hrearmed.state.trans hacknowledged.state
  unfold CookingController.runStoppingSequence
  generalize (s.app.acknowledge response).rearm = c at hkept hstate
  have hproceed := proceed_proceeded c now
  generalize c.proceed now = c' at hproceed
  rw [← hstate] at hstopping ⊢
  have hmoving {state : SessionState} (hne : state ≠ .running) :
      ¬ (c.state = .stopping ∧ state = .running) := fun hboth => hne hboth.2
  have hnotRunning : c.state ≠ .running := by
    rcases hstopping with hstopping | hstopping <;> rw [hstopping] <;> exact nofun
  cases hproceed with
  | waits _ _ =>
    rw [if_neg (hmoving hnotRunning)]
    exact hkept
  | heater _ _ _ =>
    rw [if_neg (hmoving hnotRunning)]
    exact hkept.keep ⟨rfl, Iff.rfl, rfl, rfl, rfl⟩
  | motor _ _ _ _ =>
    rw [if_neg (hmoving hnotRunning)]
    exact hkept.keep ⟨rfl, Iff.rfl, rfl, rfl, rfl⟩
  | begins program _ _ _ _ unfaulted =>
    have hstopping : c.state = .stopping := by
      rcases hstopping with hstopping | hfaulted
      · exact hstopping
      · exact Bool.noConfusion (unfaulted.symm.trans (hkept.faulted hfaulted))
    rw [if_pos ⟨hstopping, rfl⟩]
    exact ⟨nofun, fun _ => answeredSince_nil, fun _ => Or.inl rfl, nofun, nofun, nofun⟩
  | rests _ _ unstarted =>
    cases hfault : c.faultShutdown with
    | true =>
      rw [if_pos rfl]
      dsimp only
      rw [if_neg (@hmoving .faulted nofun)]
      have hfaulted : c.state = .faulted := by
        rcases hstopping with hstopping | hfaulted
        · exact Bool.noConfusion (hfault.symm.trans (hkept.stopping hstopping))
        · exact hfaulted
      exact hkept.keep ⟨hfaulted.symm, Iff.rfl, rfl, rfl, hfault.symm⟩
    | false =>
      rw [if_neg Bool.false_ne_true]
      dsimp only
      rw [if_neg (@hmoving .done nofun)]
      have hidle : c.startAfterShutdown = false := by
        by_contra hstart
        rw [Bool.not_eq_false] at hstart
        exact hkept.pending hstart (unstarted hstart hfault)
      have hfree : ¬ HoldsLid c.program := by
        intro hholds
        rcases hkept.held hholds with hrunning | hfaulted | ⟨-, hstart⟩
        · exact hnotRunning hrunning
        · exact Bool.noConfusion (hfault.symm.trans (hkept.faulted hfaulted))
        · exact Bool.noConfusion (hidle.symm.trans hstart)
      exact ⟨hkept.slow, hkept.free, fun hholds => absurd hholds hfree, hkept.pending, nofun, nofun⟩

/-- A tick of the program, before the controller looks whether it is finished. -/
theorem Inv.onTick {s : Session K} (h : Inv s) (hrunning : s.app.state = .running)
    {program : AnyProgram} (hprogram : s.app.program = some program) (now elapsed : Millis) :
    Inv ({
      app := { s.app with
        program := some (program.onTick s.app.mcu now elapsed).1
        mcu := (program.onTick s.app.mcu now elapsed).2 }
      log := s.log ++ (acceptedBetween s.app.mcu (program.onTick s.app.mcu now elapsed).2).map
        fun request => ⟨request, shownRpm s.app.mcu, isTurbo program⟩ } : Session K) := by
  have hother {program' : AnyProgram} (hbefore : ¬ HoldsLid (some program))
      (hafter : ¬ HoldsLid (some program')) (mcu : McuClient (Tap K)) (requests : List Request) :
      Inv ({
        app := { s.app with program := some program', mcu }
        log := s.log ++ requests.map fun request => ⟨request, shownRpm s.app.mcu, false⟩ } :
          Session K) := by
    have hsame : SameSession s.app { s.app with program := some program', mcu } :=
      ⟨rfl, by rw [hprogram]; exact iff_of_false hafter hbefore, rfl, rfl, rfl⟩
    exact (h.keep hsame).log requests _
  cases program with
  | turbo program =>
    have hpulsed := onTick_pulsed program s.app.mcu now elapsed
    unfold AnyProgram.onTick
    dsimp only [Prod.map, id_eq, isTurbo]
    generalize acceptedBetween s.app.mcu (program.onTick s.app.mcu now elapsed).2 = requests
      at hpulsed ⊢
    refine ⟨fun entry hentry hturbo hunlock => ?_, fun hfree => ?_, fun _ => Or.inl hrunning,
      h.pending, h.stopping, h.faulted⟩
    · rcases List.mem_append.mp hentry with hentry | hentry
      · exact h.slow entry hentry hturbo hunlock
      · obtain ⟨request, hrequest, rfl⟩ := List.mem_map.mp hentry
        cases hpulsed with
        | locks _ =>
          rw [List.mem_singleton.mp hrequest] at hunlock
          exact absurd hunlock (by decide : MsgId.lidLock ≠ MsgId.lidUnlock)
        | releases slow _ => exact slow
        | keeps _ lid _ => exact absurd hunlock (lid request hrequest).2
    · cases hpulsed with
      | locks phase => exact absurd (Or.inl phase) hfree
      | releases slow _ =>
        exact AnsweredSince.snoc (Or.inr ⟨rfl, slow⟩) fun hlocks =>
          absurd hlocks.2 (by decide : MsgId.lidUnlock ≠ MsgId.lidLock)
      | keeps _ lid holds =>
        have hbefore : ¬ HoldsLid s.app.program := by
          rw [hprogram]
          exact holds.not.mp hfree
        refine (h.free hbefore).append fun entry hentry hlocks => ?_
        obtain ⟨request, hrequest, rfl⟩ := List.mem_map.mp hentry
        exact (lid request hrequest).1 hlocks.2
  | manual program => exact hother id id _ _
  | dough program => exact hother id id _ _
  | sousVide program => exact hother id id _ _
  | steam program => exact hother id id _ _
  | recipe program => exact hother id id _ _

/-- A program that is finished does not hold the lid. -/
theorem free_of_finished {program : AnyProgram} {elapsed : Millis}
    (h : program.finished elapsed = true) : ¬ HoldsLid (some program) := by
  cases program with
  | turbo program =>
    have hphase : program.phase = .finished := of_decide_eq_true h
    simp [HoldsLid, hphase]
  | _ => exact nofun

theorem Inv.runProgram {s : Session K} (h : Inv s) (hrunning : s.app.state = .running)
    {program : AnyProgram} (hprogram : s.app.program = some program) (now : Millis) :
    Inv ({
      app := s.app.runProgram program now
      log := s.log ++ (acceptedBetween s.app.mcu (s.app.runProgram program now).mcu).map
        fun request => ⟨request, shownRpm s.app.mcu, isTurbo program⟩ } : Session K) := by
  have hticked := h.onTick hrunning hprogram now (now - s.app.startedMs)
  unfold CookingController.runProgram
  dsimp only [Program.onTick, Program.onStop, Program.finished]
  by_cases hfinished :
      (program.onTick s.app.mcu now (now - s.app.startedMs)).1.finished (now - s.app.startedMs) = true
  · rw [if_pos hfinished]
    exact hticked.beginShutdown false fun _ => free_of_finished hfinished
  · rw [if_neg hfinished]
    exact hticked

/-- A tick in which the pulse does not run. -/
theorem next_tick_quiet {s : Session K} {now : Millis} (hquiet : turboNext s.app = false)
    (h : if s.app.state = .stopping ∧ (s.app.tick10ms now).state = .running then
        Inv ({ app := s.app.tick10ms now } : Session K)
      else Inv { s with app := s.app.tick10ms now }) : Inv (next s (.tick now)) := by
  unfold next
  dsimp only [Sessions.apply]
  rw [hquiet]
  by_cases hbegins : s.app.state = .stopping ∧ (s.app.tick10ms now).state = .running
  · rw [if_pos hbegins] at h ⊢
    exact h
  · rw [if_neg hbegins] at h ⊢
    exact h.log _ _

theorem Inv.tick {s : Session K} (h : Inv s) (now : Millis) : Inv (next s (.tick now)) := by
  have hsensed : Inv { s with app := s.app.sense.2 } := h.keep ⟨rfl, Iff.rfl, rfl, rfl, rfl⟩
  by_cases halarmed : s.app.Alarmed
  · have halarmed' : s.app.sense.2.Alarmed := by
      rw [Alarmed, sense_mcu]
      exact halarmed
    have hreact : s.app.sense.2.react = s.app.sense.2.beginShutdown true := if_pos halarmed'
    have hshut : Inv { s with app := (s.app.sense.2.beginShutdown true).stepOta } :=
      (hsensed.beginShutdown true fun hfalse => Bool.noConfusion hfalse).keep ⟨rfl, Iff.rfl, rfl, rfl, rfl⟩
    have hstopped := hshut.runStoppingSequence (Or.inr rfl) s.app.sense.1 now
    rw [if_neg fun hbegins => SessionState.noConfusion hbegins.1] at hstopped
    refine next_tick_quiet (by simp [turboNext, halarmed]) ?_
    have hfaulted := (tick10ms_alarmed_state halarmed now).1
    rw [if_neg fun hbegins => SessionState.noConfusion (hfaulted.symm.trans hbegins.2), tick10ms_eq,
      hreact, advance_stopping (Or.inr rfl)]
    exact hstopped
  · have hkept : Inv { s with app := s.app.sense.2.stepOta } :=
      hsensed.keep ⟨rfl, Iff.rfl, rfl, rfl, rfl⟩
    have htick := tick10ms_quiet halarmed now
    have hstopping (h : s.app.state = .stopping ∨ s.app.state = .faulted) :
        Inv (next s (.tick now)) := by
      have h' : s.app.sense.2.stepOta.state = .stopping ∨ s.app.sense.2.stepOta.state = .faulted := h
      have hadvance : s.app.tick10ms now =
          s.app.sense.2.stepOta.runStoppingSequence s.app.sense.1 now :=
        htick.trans (advance_stopping h' s.app.sense.1 now)
      refine next_tick_quiet (by rcases h with h | h <;> simp [turboNext, h]) ?_
      rw [hadvance]
      exact hkept.runStoppingSequence h s.app.sense.1 now
    have hresting (hstill : s.app.tick10ms now = s.app.sense.2.stepOta)
        (hquiet : turboNext s.app = false) (hstate : s.app.state ≠ .stopping) :
        Inv (next s (.tick now)) := by
      refine next_tick_quiet hquiet ?_
      rw [if_neg fun hbegins => hstate hbegins.1, hstill]
      exact hkept
    cases hstate : s.app.state with
    | stopping => exact hstopping (Or.inl hstate)
    | faulted => exact hstopping (Or.inr hstate)
    | idle =>
      have hstate' : s.app.sense.2.stepOta.state = .idle := hstate
      refine hresting ?_ (by simp [turboNext, hstate]) (by rw [hstate]; decide)
      simp [htick, advance, hstate']
    | done =>
      have hstate' : s.app.sense.2.stepOta.state = .done := hstate
      refine hresting ?_ (by simp [turboNext, hstate]) (by rw [hstate]; decide)
      simp [htick, advance, hstate']
    | running =>
      have hstate' : s.app.sense.2.stepOta.state = .running := hstate
      cases hprogram : s.app.program with
      | none =>
        have hprogram' : s.app.sense.2.stepOta.program = none := hprogram
        refine hresting ?_ (by simp [turboNext, hprogram]) (by rw [hstate]; decide)
        simp [htick, advance, hstate', hprogram']
      | some program =>
        have hprogram' : s.app.sense.2.stepOta.program = some program := hprogram
        have hturbo : turboNext s.app = isTurbo program := by
          simp [turboNext, hstate, halarmed, hprogram]
        have hadvance : s.app.tick10ms now = s.app.sense.2.stepOta.runProgram program now := by
          simp [htick, advance, hstate', hprogram']
        have hmcu : s.app.sense.2.stepOta.mcu = { s.app.mcu with responseReady := false } :=
          sense_mcu s.app
        have hshown : shownRpm s.app.sense.2.stepOta.mcu = shownRpm s.app.mcu := by rw [hmcu]; rfl
        have haccepted (c : McuClient (Tap K)) :
            acceptedBetween s.app.sense.2.stepOta.mcu c = acceptedBetween s.app.mcu c := by
          rw [hmcu]
          rfl
        have hplayed := hkept.runProgram hstate' hprogram' now
        dsimp only at hplayed
        rw [hshown, haccepted] at hplayed
        unfold next
        dsimp only [Sessions.apply]
        rw [if_neg fun hbegins => SessionState.noConfusion (hstate.symm.trans hbegins.1), hturbo,
          hadvance]
        exact hplayed

/-- Step lemma. -/
theorem next_inv {s : Session K} (h : Inv s) {event : AppEvent (Tap K) AnyProgram}
    (hpermitted : Permitted s event) : Inv (next s event) := by
  cases event with
  | link link => exact h.keep ⟨rfl, Iff.rfl, rfl, rfl, rfl⟩
  | poll now => exact h.keep ⟨rfl, Iff.rfl, rfl, rfl, rfl⟩
  | tick now => exact h.tick now
  | direct now request =>
    have hkept : SameSession s.app (Sessions.direct s.app request now) :=
      ⟨rfl, Iff.rfl, rfl, rfl, rfl⟩
    exact (h.keep hkept).log _ _
  | start program =>
    change Inv { s with app := (s.app.startProgram program).2 }
    unfold startProgram
    cases program with
    | none => exact h
    | some program =>
      dsimp only
      split
      · exact h
      · exact ⟨h.slow, h.free, fun _ => Or.inr (Or.inr ⟨rfl, rfl⟩), nofun, fun _ => rfl, nofun⟩
  | stop =>
    change Inv { s with app := s.app.stop }
    unfold stop
    split_ifs with hpending hrunning
    · have hfree : ¬ HoldsLid s.app.program := by
        rcases hpermitted with hfaulted | hfree
        · exact SessionState.noConfusion (hpending.1.symm.trans hfaulted)
        · exact hfree
      exact ⟨h.slow, h.free, fun hholds => absurd hholds hfree, nofun, h.stopping, h.faulted⟩
    · exact h.beginShutdown false fun _ => hpermitted.resolve_left hrunning.2
    · exact h
  | userNext =>
    refine h.keep ⟨rfl, ?_, rfl, rfl, rfl⟩
    change HoldsLid (s.app.program.map AnyProgram.userNext) ↔ _
    cases s.app.program with
    | none => exact Iff.rfl
    | some program => cases program <;> exact Iff.rfl
  | verify image expectedCrc => exact h.keep ⟨rfl, Iff.rfl, rfl, rfl, rfl⟩

/-- Run lemma. -/
theorem foldl_inv {s : Session K} (h : Inv s) (events : List (AppEvent (Tap K) AnyProgram))
    (hpermitted : Along Permitted next s events) : Inv (events.foldl next s) := by
  induction events generalizing s with
  | nil => exact h
  | cons event rest ih => exact ih (next_inv h hpermitted.1) hpermitted.2

/-- While nobody stops a pulse between its lock and its release, a session that locked the lid has
released it before it is done. -/
theorem turbo_release (link : Tap K) (ota : Option Services.OtaUpdater)
    (events : List (AppEvent (Tap K) AnyProgram))
    (hpermitted : Along Permitted next (start link ota) events) :
    Released (events.foldl next (start link ota)) :=
  (foldl_inv (inv_start link ota) events hpermitted).released

/-! Two runs on a frame-level link. -/

open Packets in
/-- The last of the requests so far is answered, after the frames. -/
def answered (frames : List Frame) (requests : List Request) (now : Millis) :
    List (AppEvent (Tap FrameLink) AnyProgram) :=
  let number := requests.length - 1
  let id := (requests.getLastD (bareRequest MsgId.ping)).2.1
  [.link {
      link := {
        sends := requests.length
        inbox := frames ++ [Frame.ofBytes .response (BitVec.ofNat 8 number) id []]
        stamp := number }
      queued := requests },
    .poll now]

def lockRequests : List Request :=
  [bareRequest MsgId.heaterOff, bareRequest MsgId.motorStop, bareRequest MsgId.lidLock]

open Packets in
/-- A pulse of 10 ms begins after a shutdown and locks the lid. -/
def lockRun : List (AppEvent (Tap FrameLink) AnyProgram) :=
  [.start (some (.turbo (ofMillis 10))), .tick 10] ++ answered [] (lockRequests.take 1) 11 ++
    [.tick 20] ++ answered [] (lockRequests.take 2) 21 ++ [.tick 30, .tick 40] ++
    answered [] lockRequests 41

def pulseRequests : List Request :=
  lockRequests ++ [(.request, MsgId.motorSetTarget, putU16 10700 ++ [kRampBurst]),
    bareRequest MsgId.motorStop, bareRequest MsgId.lidUnlock, bareRequest MsgId.heaterOff,
    bareRequest MsgId.motorStop]

open Packets in
/-- The pulse spins, stops and, the motor at rest, unlocks the lid; a shutdown follows. -/
def pulseRun : List (AppEvent (Tap FrameLink) AnyProgram) :=
  lockRun ++ [.tick 50] ++ answered [] (pulseRequests.take 4) 51 ++ [.tick 60, .tick 70] ++
    answered [Frame.ofBytes .telemetry 0 MsgId.telemetry (List.replicate kTelemetryPayloadSize 0)]
      (pulseRequests.take 5) 71 ++
    [.tick 80] ++ answered [] (pulseRequests.take 6) 81 ++ [.tick 90] ++
    answered [] (pulseRequests.take 7) 91 ++ [.tick 100] ++ answered [] pulseRequests 101 ++
    [.tick 110]

open Packets in
theorem turbo_release_pulse :
    Along Permitted next (start { link := ({} : FrameLink) } none) pulseRun ∧
      (pulseRun.foldl next (start { link := {} } none)).app.state = .done ∧
      Released (pulseRun.foldl next (start { link := {} } none)) := by
  have hpermitted : Along Permitted next (start { link := ({} : FrameLink) } none) pulseRun := by
    refine along_of_forall ?_ _
    simp [pulseRun, lockRun, answered, Permitted]
  exact ⟨hpermitted, by decide +kernel, turbo_release _ _ pulseRun hpermitted⟩

open Packets in
/-- The user stops the pulse; the shutdown is answered to the end. -/
def stopRun : List (AppEvent (Tap FrameLink) AnyProgram) :=
  lockRun ++ [.stop, .tick 50] ++ answered [] (lockRequests ++ [bareRequest MsgId.heaterOff]) 51 ++
    [.tick 60] ++
    answered [] (lockRequests ++ [bareRequest MsgId.heaterOff, bareRequest MsgId.motorStop]) 61 ++
    [.tick 70]

open Packets in
/-- The stopped session is done with the lid still locked. -/
theorem turbo_release_stopped :
    ¬ ∀ (link : Tap FrameLink) (ota : Option Services.OtaUpdater)
      (events : List (AppEvent (Tap FrameLink) AnyProgram)),
        Released (events.foldl next (start link ota)) := by
  intro h
  have hreleased := h { link := {} } none stopRun
  have hdone : (stopRun.foldl next (start { link := {} } none)).app.state = .done := by decide +kernel
  have hlog : (stopRun.foldl next (start { link := {} } none)).log =
      [] ++ ⟨bareRequest MsgId.lidLock, none, true⟩ ::
        [⟨bareRequest MsgId.heaterOff, none, false⟩, ⟨bareRequest MsgId.motorStop, none, false⟩] := by
    decide +kernel
  obtain ⟨entry, hentry, hunlock, -⟩ := hreleased.done hdone _ _ _ hlog ⟨rfl, rfl⟩
  rcases List.mem_pair.mp hentry with rfl | rfl
  · exact absurd hunlock (by decide)
  · exact absurd hunlock (by decide)

end Culina.TurboRelease
