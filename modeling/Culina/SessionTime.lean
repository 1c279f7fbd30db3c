import Culina.Programs
import Culina.ShutdownTime

/-!
Sessions in time. Left to itself, a session that is stopped is over within fifty milliseconds, and one that
cooks for a given time within a tenth of a second of that time, with heater and motor off; a fault only
ends it sooner.
-/
namespace Culina.SessionTime

open Wire Drives Ports Commands Safety SafetyMcu Supervision SerialLink WholeFrames Heartbeat
open Lid Plant MainLoop Client McuClient Cooking CookingController Sessions Programs Simulator Lockstep Device RemoteCalls
open ShutdownTime Runs

variable {P : Type} [Program Link P] {s s' : SystemSim P} {frames : List Frame}

/-! What leaves the session alone. -/

/-- Time passes, or the user fills the bowl, moves the lid, answers a recipe or verifies an image. -/
def Leaves : SystemSim.Action P → Prop
  | .stepMs | .touch _ | .userNext | .verify _ _ => True
  | .direct _ | .start _ | .stop => False

def isStepMs : SystemSim.Action P → Bool
  | .stepMs => true
  | _ => false

/-- What all of this but time keeps. -/
structure Spares (s s' : SystemSim P) : Prop where
  machine : s'.rig.machine = s.rig.machine
  appDivider : s'.appDivider = s.appDivider
  mcu : s'.app.mcu = s.app.mcu
  state : s'.app.state = s.app.state
  heaterSent : s'.app.shutdownHeaterSent = s.app.shutdownHeaterSent
  heaterDone : s'.app.shutdownHeaterDone = s.app.shutdownHeaterDone
  motorSent : s'.app.shutdownMotorSent = s.app.shutdownMotorSent
  motorDone : s'.app.shutdownMotorDone = s.app.shutdownMotorDone
  faultShutdown : s'.app.faultShutdown = s.app.faultShutdown
  pending : s'.app.pendingProgram = s.app.pendingProgram
  startedMs : s'.app.startedMs = s.app.startedMs
  program : s'.app.program = s.app.program ∨ s'.app.program = s.app.program.map (Program.userNext Link)

theorem leaves_spares {action : SystemSim.Action P} (hleaves : Leaves action) (htime : isStepMs action = false) :
    Spares s (s.next action) := by
  cases action with
  | stepMs => exact Bool.noConfusion htime
  | touch _ | verify _ _ => exact ⟨rfl, rfl, rfl, rfl, rfl, rfl, rfl, rfl, rfl, rfl, rfl, Or.inl rfl⟩
  | userNext => exact ⟨rfl, rfl, rfl, rfl, rfl, rfl, rfl, rfl, rfl, rfl, rfl, Or.inr rfl⟩
  | direct _ | start _ | stop => exact hleaves.elim

theorem Spares.off (h : Spares s s') {drive : Drive} (hoff : Off s drive) : Off s' drive := by
  rw [Off, h.machine]
  exact hoff

theorem Spares.commanded (h : Spares s s') {drive : Drive} (hcommanded : Commanded s drive) :
    Commanded s' drive := by
  cases hcommanded with
  | asking out =>
    rw [← h.mcu] at out
    exact Commanded.asking out
  | answered taken off =>
    rw [← h.mcu] at taken
    exact Commanded.answered taken (h.off off)

theorem Spares.shutting (h : Spares s s') {phase : Phase} (hshutting : Shutting s phase) : Shutting s' phase := by
  obtain ⟨hstate, ⟨hheaterSent, hheaterDone, hmotorSent, hmotorDone⟩, hheater, hmotor⟩ := hshutting
  refine ⟨?_, ⟨h.heaterSent.trans hheaterSent, h.heaterDone.trans hheaterDone, h.motorSent.trans hmotorSent,
    h.motorDone.trans hmotorDone⟩, fun hphase => h.commanded (hheater hphase),
    fun hphase => (hmotor hphase).imp h.commanded h.off⟩
  rw [h.state]
  exact hstate

theorem Spares.calm (h : Spares s s') (hcalm : Calm s) : Calm s' := by
  refine ⟨?_, ?_, fun drive => h.off (hcalm.off drive), ?_⟩
  · rw [h.state]
    exact hcalm.state
  · rw [h.state, h.faultShutdown]
    exact hcalm.faulted
  · rw [h.mcu]
    exact hcalm.unasked

/-! How long it takes. -/

/-- Programs that run for a time given in advance, in milliseconds. -/
structure Timing (lasts : P → ℕ → Prop) : Prop where
  onTick {program : P} {d : ℕ} (timed : lasts program d) (c : McuClient Link) (now elapsed : Millis) :
    lasts (Program.onTick program c now elapsed).1 d
  userNext {program : P} {d : ℕ} (timed : lasts program d) : lasts (Program.userNext Link program) d
  finished {program : P} {d : ℕ} (timed : lasts program d) (c : McuClient Link) (elapsed : Millis) :
    Program.finished program c elapsed = decide (d ≤ elapsed.toNat)
  short {program : P} {d : ℕ} (timed : lasts program d) : d + 10 < 2 ^ 32

/-- The ticks of the controller that the sequence still takes: one to open it, one for each answer, and two
more as long as an alarm could make it start over. -/
def ticks (state : SessionState) (phase : Phase) : ℕ :=
  (match phase with
    | .opening => 3
    | .heater => 2
    | .motor => 1) + if state = .faulted then 0 else 2

/-- The session is over within `n` milliseconds: the sequence is under way, for a program that waits for it
or for none, or a program is running. -/
inductive Due (lasts : P → ℕ → Prop) (s : SystemSim P) (n : ℕ) : Prop
  | shutting (phase : Phase) (h : Shutting s phase) (pending : s.app.pendingProgram = none)
      (bound : 10 * ticks s.app.state phase ≤ n + s.appDivider)
  | starting (phase : Phase) (h : Shutting s phase) (program : P) (d : ℕ)
      (pending : s.app.pendingProgram = some program) (timed : lasts program d)
      (bound : 10 * ticks s.app.state phase + d + 60 ≤ n + s.appDivider)
  | running (program : P) (d started : ℕ) (state : s.app.state = .running) (active : s.app.program = some program)
      (timed : lasts program d) (startedMs : s.app.startedMs = Machine.now started)
      (since : started + s.appDivider ≤ s.rig.machine.clock)
      (ticked : s.rig.machine.clock < started + d + s.appDivider ∨ s.rig.machine.clock = started + s.appDivider)
      (bound : started + d + 60 ≤ n + s.rig.machine.clock)

variable {lasts : P → ℕ → Prop} {n : ℕ}

omit [Program Link P] in
theorem ticks_pos (state : SessionState) (phase : Phase) : 0 < ticks state phase := by
  cases phase <;> simp [ticks]

omit [Program Link P] in
theorem Due.pos (h : Due lasts s 0) (hdivider : s.appDivider < 10) : False := by
  cases h with
  | shutting phase _ _ bound =>
    have := ticks_pos s.app.state phase
    omega
  | starting phase _ _ _ _ _ bound =>
    have := ticks_pos s.app.state phase
    omega
  | running _ _ _ _ _ _ _ since ticked bound => omega

theorem Due.spares (htiming : Timing lasts) (h : Due lasts s n) (hspares : Spares s s') : Due lasts s' n := by
  cases h with
  | shutting phase h pending bound =>
    rw [← hspares.state, ← hspares.appDivider] at bound
    exact Due.shutting phase (hspares.shutting h) (hspares.pending.trans pending) bound
  | starting phase h program d pending timed bound =>
    rw [← hspares.state, ← hspares.appDivider] at bound
    exact Due.starting phase (hspares.shutting h) program d (hspares.pending.trans pending) timed bound
  | running program d started state active timed startedMs since ticked bound =>
    rw [← hspares.machine] at since ticked bound
    rw [← hspares.appDivider] at since ticked
    have hstate := hspares.state.trans state
    have hstartedMs := hspares.startedMs.trans startedMs
    rcases hspares.program with hsame | hnext
    · exact Due.running program d started hstate (hsame.trans active) timed hstartedMs since ticked bound
    · rw [active] at hnext
      exact Due.running _ d started hstate hnext (htiming.userNext timed) hstartedMs since ticked bound

/-! The tick of a running program. -/

/-- A program whose time has come gives way to the shutdown; before that it goes on. -/
theorem runProgram_timed (htiming : Timing lasts) (app : CookingController Link P) {program : P} {d : ℕ}
    (timed : lasts program d) (now : Millis) :
    let app' := app.runProgram program now
    (d ≤ (now - app.startedMs).toNat ∧ app'.state = .stopping ∧ InPhase app' .opening ∧
        app'.pendingProgram = none) ∨
      ((now - app.startedMs).toNat < d ∧ app'.state = app.state ∧ app'.startedMs = app.startedMs ∧
        ∃ program', app'.program = some program' ∧ lasts program' d) := by
  have hticked := htiming.onTick timed app.mcu now (now - app.startedMs)
  have hfinished := htiming.finished hticked (Program.onTick program app.mcu now (now - app.startedMs)).2
    (now - app.startedMs)
  unfold runProgram
  dsimp only
  rw [hfinished]
  by_cases hover : d ≤ (now - app.startedMs).toNat
  · rw [if_pos (decide_eq_true hover)]
    exact Or.inl ⟨hover, rfl, ⟨rfl, rfl, rfl, rfl⟩, rfl⟩
  · rw [if_neg (by simpa using hover)]
    exact Or.inr ⟨not_le.mp hover, rfl, rfl, _, rfl, hticked⟩

/-! The millisecond. -/

theorem stepMs_clock (s : SystemSim P) : s.stepMs.rig.machine.clock = s.rig.machine.clock + 1 := by
  rw [stepMs_machine]
  rfl

/-- Whatever was due, an alarm leaves two ticks of the shutdown. -/
theorem due_alarmed (hlinked : Linked s frames) (hinStep : InStep s) (hlate : 10 ≤ s.appDivider + 1)
    (halarmed : s.polled.Alarmed) (hn : 20 ≤ n) : Due lasts s.stepMs n := by
  obtain ⟨hshutting, hstate, -, hpending, -⟩ := stepMs_alarmed hlinked hinStep hlate halarmed
  refine Due.shutting .heater hshutting hpending ?_
  rw [hstate, (stepMs_late hlate).2]
  simpa [ticks] using hn

/-- A shutdown moves on by one tick. -/
theorem shutting_stepMs {phase : Phase} (h : Shutting s phase) (hlinked : Linked s frames) (hinStep : InStep s) :
    (s.stepMs.appDivider = s.appDivider + 1 ∧ Shutting s.stepMs phase ∧ s.stepMs.app.state = s.app.state ∧
        s.stepMs.app.pendingProgram = s.app.pendingProgram) ∨
      (10 ≤ s.appDivider + 1 ∧ s.stepMs.appDivider = 0 ∧
        ((s.polled.Alarmed ∧ 3 ≤ ticks s.app.state phase) ∨
          (∃ phase', Shutting s.stepMs phase' ∧ ticks s.stepMs.app.state phase' + 1 = ticks s.app.state phase ∧
            s.stepMs.app.pendingProgram = s.app.pendingProgram) ∨
          Calm s.stepMs ∨
          ∃ program, s.app.pendingProgram = some program ∧ s.stepMs.app.state = .running ∧
            s.stepMs.app.program = some program ∧
            s.stepMs.app.startedMs = s.ticked.board.sensors.nowMs)) := by
  rcases Nat.lt_or_ge (s.appDivider + 1) 10 with hearly | hlate
  · have hshutting := h.early hlinked hinStep hearly
    rw [stepMs_early hearly] at hshutting ⊢
    exact Or.inl ⟨rfl, hshutting, rfl, rfl⟩
  · refine Or.inr ⟨hlate, (stepMs_late hlate).2, ?_⟩
    by_cases halarmed : s.polled.Alarmed
    · have hstate : s.app.state ≠ .faulted := halarmed.1
      refine Or.inl ⟨halarmed, ?_⟩
      unfold ticks
      rw [if_neg hstate]
      cases phase <;> decide
    · have hgoes := h.late hlinked hinStep hlate halarmed
      cases hgoes with
      | opens later state pending | turns later state pending =>
        refine Or.inr (Or.inl ⟨_, later, ?_, pending⟩)
        rw [state]
        dsimp only [ticks]
        omega
      | rests calm => exact Or.inr (Or.inr (Or.inl calm))
      | begins program pending state begun started =>
        exact Or.inr (Or.inr (Or.inr ⟨program, pending, state, begun, started⟩))

/-- Step lemma for the millisecond. -/
theorem Due.stepMs (htiming : Timing lasts) (h : Due lasts s (n + 1)) (hlinked : Linked s frames)
    (hinStep : InStep s) : Due lasts s.stepMs n ∨ Calm s.stepMs := by
  have hdivider := hinStep.divider
  have hnow : s.ticked.board.sensors.nowMs = Machine.now (s.rig.machine.clock + 1) :=
    (pass_paced hinStep.paced hinStep.divider s.appToMcu).nowMs
  cases h with
  | shutting phase h pending bound =>
    rcases shutting_stepMs h hlinked hinStep with ⟨hnext, hshutting, hstate, hsame⟩ | ⟨hlate, hnext, hlater⟩
    · refine Or.inl (Due.shutting phase hshutting (hsame.trans pending) ?_)
      rw [hstate, hnext]
      omega
    · rcases hlater with ⟨halarmed, hticks⟩ | ⟨phase', hshutting, hticks, hsame⟩ | hcalm | ⟨program, hprogram, -⟩
      · exact Or.inl (due_alarmed hlinked hinStep hlate halarmed (by omega))
      · refine Or.inl (Due.shutting phase' hshutting (hsame.trans pending) ?_)
        rw [hnext]
        omega
      · exact Or.inr hcalm
      · rw [pending] at hprogram
        cases hprogram
  | starting phase h program d pending timed bound =>
    rcases shutting_stepMs h hlinked hinStep with ⟨hnext, hshutting, hstate, hsame⟩ | ⟨hlate, hnext, hlater⟩
    · refine Or.inl (Due.starting phase hshutting program d (hsame.trans pending) timed ?_)
      rw [hstate, hnext]
      omega
    · rcases hlater with ⟨halarmed, hticks⟩ | ⟨phase', hshutting, hticks, hsame⟩ | hcalm |
        ⟨program', hprogram, hstate, hbegun, hstarted⟩
      · exact Or.inl (due_alarmed hlinked hinStep hlate halarmed (by omega))
      · refine Or.inl (Due.starting phase' hshutting program d (hsame.trans pending) timed ?_)
        rw [hnext]
        omega
      · exact Or.inr hcalm
      · rw [pending] at hprogram
        cases hprogram
        have hpos := ticks_pos s.app.state phase
        refine Or.inl (Due.running program d (s.rig.machine.clock + 1) hstate hbegun timed (hstarted.trans hnow) ?_ ?_ ?_)
        · rw [stepMs_clock, hnext]
        · rw [stepMs_clock, hnext]
          exact Or.inr rfl
        · rw [stepMs_clock]
          omega
  | running program d started state active timed startedMs since ticked bound =>
    rcases Nat.lt_or_ge (s.appDivider + 1) 10 with hearly | hlate
    · have hclock := stepMs_clock s
      rw [stepMs_early hearly] at hclock ⊢
      have hnext : (uncontrolled s).appDivider = s.appDivider + 1 := rfl
      refine Or.inl (Due.running program d started state active timed startedMs ?_ ?_ ?_)
      · rw [hclock, hnext]
        omega
      · rw [hclock, hnext]
        omega
      · rw [hclock]
        omega
    · by_cases halarmed : s.polled.Alarmed
      · exact Or.inl (due_alarmed hlinked hinStep hlate halarmed (by omega))
      · obtain ⟨happ, hnext⟩ := stepMs_late hlate
        have hshort := htiming.short timed
        have hruns : s.stepMs.app = (sensed s.polled).runProgram program s.ticked.board.sensors.nowMs := by
          have hstate : (sensed s.polled).state = .running := state
          have hprogram : (sensed s.polled).program = some program := active
          rw [happ, tick10ms_quiet halarmed]
          change (sensed s.polled).advance _ _ = _
          simp [advance, hstate, hprogram]
        have helapsed : (s.ticked.board.sensors.nowMs - (sensed s.polled).startedMs).toNat =
            s.rig.machine.clock + 1 - started := by
          have hstarted : (sensed s.polled).startedMs = Machine.now started := startedMs
          rw [hnow, hstarted, ← shown_zero, ← shown_zero]
          exact shown_sub (by omega) (by omega)
        have htimed := runProgram_timed htiming (sensed s.polled) timed s.ticked.board.sensors.nowMs
        dsimp only at htimed
        rw [helapsed, ← hruns] at htimed
        rcases htimed with ⟨hover, hstate, hflags, hpending⟩ | ⟨hunder, hstate, hstarted, program', hactive, htimed⟩
        · refine Or.inl (Due.shutting .opening (shutting_opening hstate hflags) hpending ?_)
          rw [hstate, hnext]
          change 10 * 5 ≤ n + 0
          omega
        · refine Or.inl (Due.running program' d started (hstate.trans state) hactive htimed
            (hstarted.trans startedMs) ?_ ?_ ?_)
          · rw [stepMs_clock, hnext]
            omega
          · rw [stepMs_clock, hnext]
            omega
          · rw [stepMs_clock]
            omega

/-! Runs. -/

/-- What the user may do without touching the session. -/
def Undisturbed (s : SystemSim P) (action : SystemSim.Action P) : Prop := s.Allowed action ∧ Leaves action

/-- Run lemma. -/
theorem calm_of_due (htiming : Timing lasts) (h : Operated s) (hdue : Due lasts s n)
    {actions : List (SystemSim.Action P)} (hactions : Along Undisturbed SystemSim.next s actions)
    (hlong : n ≤ actions.countP isStepMs) :
    Operated (actions.foldl SystemSim.next s) ∧ Calm (actions.foldl SystemSim.next s) := by
  refine Along.reaches (fun n s => Operated s ∧ Due lasts s n) (fun s => Operated s ∧ Calm s) ?_ ?_ ?_ ?_
    (Or.inl ⟨h, hdue⟩) hactions hlong
  · rintro s ⟨hs, hdue⟩
    exact hdue.pos (inStep_of_reachable hs).divider
  · rintro n s action ⟨hallowed, -⟩ htime ⟨hs, hdue⟩
    cases action with
    | stepMs =>
      obtain ⟨frames, hlinked⟩ := linked_of_operated hs
      have hnext := hs.next .stepMs hallowed
      exact (hdue.stepMs htiming hlinked (inStep_of_reachable hs)).imp (And.intro hnext) (And.intro hnext)
    | _ => exact Bool.noConfusion htime
  · rintro n s action ⟨hallowed, hleaves⟩ htime ⟨hs, hdue⟩
    exact ⟨hs.next action hallowed, hdue.spares htiming (leaves_spares hleaves htime)⟩
  · rintro s action ⟨hallowed, hleaves⟩ ⟨hs, hcalm⟩
    refine ⟨hs.next action hallowed, ?_⟩
    cases htime : isStepMs action with
    | false => exact (leaves_spares hleaves htime).calm hcalm
    | true =>
      cases action with
      | stepMs =>
        obtain ⟨frames, hlinked⟩ := linked_of_operated hs
        exact hcalm.stepMs hlinked (inStep_of_reachable hs)
      | _ => exact Bool.noConfusion htime

/-- Power at the end of a tick belongs to an enabled controller. -/
theorem enabled_of_powered {H : Type} [Board H] {m : Machine H} (h : Reachable Machine.Booted Machine.Ticked m)
    (hpower : 0 < m.mcu.powerW) : m.mcu.handler.pid.enabled = true := by
  refine h.keeps (fun m => 0 < m.mcu.powerW → m.mcu.handler.pid.enabled = true) ?_ ?_ hpower
  · rintro m ⟨uart, board, clock, rfl⟩ hpower
    exact absurd hpower (lt_irrefl _)
  · intro m input m' _ hticked hpower
    have hadvance : m' = m.advance input := hticked
    rw [hadvance, Machine.advance_mcu] at hpower ⊢
    exact (tick1ms_powerW _ hpower).2.1

/-- The session is over, the heater gets no power and the motor no duty. -/
structure AtRest (s : SystemSim P) : Prop where
  state : s.app.state = .done ∨ s.app.state = .faulted
  heater : s.rig.board.sensors.heater.watts = 0
  motor : s.rig.board.sensors.motor.duty = 0

theorem atRest_of_calm (h : Operated s) (hcalm : Calm s) : AtRest s := by
  have hsound := (inStep_of_reachable h).paced.sound
  have hheater : s.rig.machine.mcu.handler.pid.enabled = false := hcalm.off .heater
  have hmotor : s.rig.machine.mcu.handler.motor.Stopped := hcalm.off .motor
  refine ⟨hcalm.state, ?_, hsound.duty.trans hmotor.2.2⟩
  refine le_antisymm (not_lt.mp fun hpower => ?_) hsound.bounds.watts.1
  rw [hsound.watts] at hpower
  exact Bool.noConfusion (hheater.symm.trans (enabled_of_powered (machine_of_operated h) hpower))

theorem atRest_of_due (htiming : Timing lasts) (h : Operated s) (hdue : Due lasts s n)
    {actions : List (SystemSim.Action P)} (hactions : Along Undisturbed SystemSim.next s actions)
    (hlong : n ≤ actions.countP isStepMs) : AtRest (actions.foldl SystemSim.next s) := by
  obtain ⟨hoperated, hcalm⟩ := calm_of_due htiming h hdue hactions hlong
  exact atRest_of_calm hoperated hcalm

/-- A stop takes effect within fifty milliseconds, whatever else happens, and lasts until the user asks for
something else. -/
theorem stop_in_time (h : Operated s) (hstopping : s.app.state ≠ .stopping) (hfaulted : s.app.state ≠ .faulted)
    {actions : List (SystemSim.Action P)}
    (hactions : Along Undisturbed SystemSim.next (s.next .stop) actions)
    (hlong : 50 ≤ actions.countP isStepMs) : AtRest (actions.foldl SystemSim.next (s.next .stop)) := by
  have hstop : s.app.stop = s.app.beginShutdown false := by
    unfold CookingController.stop
    rw [if_neg fun h => hstopping h.1, if_pos ⟨hstopping, hfaulted⟩]
  have hafter : (s.next .stop).app = s.app.beginShutdown false := hstop
  have hnever : Timing fun (_ : P) (_ : ℕ) => False :=
    ⟨fun h => h.elim, fun h => h.elim, fun h => h.elim, fun h => h.elim⟩
  refine atRest_of_due hnever (h.next .stop trivial) (Due.shutting .opening ?_ ?_ ?_) hactions hlong
  · refine shutting_opening ?_ ?_
    · rw [hafter]
      rfl
    · rw [hafter]
      exact ⟨rfl, rfl, rfl, rfl⟩
  · rw [hafter]
    rfl
  · rw [hafter]
    exact Nat.le_add_right _ _

theorem stop_in_time_asking : 0 < (asking.next .stepMs).rig.board.sensors.heater.watts ∧
    AtRest ((List.replicate 50 SystemSim.Action.stepMs).foldl SystemSim.next
      ((asking.next .stepMs).next .stop)) := by
  refine ⟨by decide +kernel, stop_in_time (asking_operated.next .stepMs trivial) (by decide +kernel)
    (by decide +kernel) ?_ (by decide)⟩
  refine along_of_forall (fun action haction s => ?_) _
  rw [List.eq_of_mem_replicate haction]
  exact ⟨trivial, trivial⟩

/-! Programs for a given time. -/

def durationMs : AnyProgram → Option Millis
  | .manual program => some program.durationMs
  | .dough program => some program.durationMs
  | .sousVide program => some program.durationMs
  | .steam program => some program.durationMs
  | .turbo _ => none
  | .recipe _ => none

/-- The last ten milliseconds are left to a tick in which the time is over. -/
def Lasts (program : AnyProgram) (d : ℕ) : Prop :=
  ∃ duration, durationMs program = some duration ∧ duration.toNat = d ∧ d + 10 < 2 ^ 32

/-- Ticking keeps the time. -/
theorem onTick_durationMs (program : AnyProgram) (c : McuClient Link) (now elapsed : Millis)
    {duration : Millis} (h : durationMs program = some duration) :
    durationMs (program.onTick c now elapsed).1 = some duration := by
  cases program with
  | manual program =>
    refine (congrArg some ?_).trans h
    change (program.onTick c now).1.durationMs = _
    unfold ManualMode.onTick
    split_ifs <;> rfl
  | dough program =>
    refine (congrArg some ?_).trans h
    change (program.onTick c now elapsed).1.durationMs = _
    unfold DoughMode.onTick
    dsimp only
    split_ifs <;> rfl
  | sousVide program =>
    refine (congrArg some ?_).trans h
    change (program.onTick c now).1.durationMs = _
    unfold SousVideMode.onTick
    dsimp only
    split_ifs <;> rfl
  | steam program =>
    refine (congrArg some ?_).trans h
    change (program.onTick c now).1.durationMs = _
    unfold SteamMode.onTick
    dsimp only
    split_ifs <;> rfl
  | turbo _ | recipe _ => cases h

theorem finished_durationMs {program : AnyProgram} {duration : Millis} (h : durationMs program = some duration)
    (elapsed : Millis) : program.finished elapsed = decide (duration.toNat ≤ elapsed.toNat) := by
  cases program with
  | manual _ | dough _ | sousVide _ | steam _ =>
    cases h
    rfl
  | turbo _ | recipe _ => cases h

theorem lasts_timing : Timing Lasts := by
  refine ⟨?_, ?_, ?_, ?_⟩
  · rintro program d ⟨duration, hduration, hd⟩ c now elapsed
    exact ⟨duration, onTick_durationMs program c now elapsed hduration, hd⟩
  · rintro program d ⟨duration, hduration, hd⟩
    refine ⟨duration, ?_, hd⟩
    cases program with
    | recipe _ => cases hduration
    | manual _ | dough _ | sousVide _ | steam _ | turbo _ => exact hduration
  · rintro program d ⟨duration, hduration, rfl, -⟩ c elapsed
    exact finished_durationMs hduration elapsed
  · rintro program d ⟨-, -, -, hshort⟩
    exact hshort

/-- A program for a given time that is left to itself is over a tenth of a second behind it at the latest. -/
theorem cooking_in_time {s : SystemSim AnyProgram} (h : Operated s) (hfree : ¬ s.app.Engaged)
    {program : AnyProgram} {d : ℕ} (hlasts : Lasts program d) {actions : List (SystemSim.Action AnyProgram)}
    (hactions : Along Undisturbed SystemSim.next (s.next (.start (some program))) actions)
    (hlong : d + 110 ≤ actions.countP isStepMs) :
    AtRest (actions.foldl SystemSim.next (s.next (.start (some program)))) := by
  have hafter : (s.next (.start (some program))).app =
      { s.app.beginShutdown false with pendingProgram := some program, startAfterShutdown := true } := by
    change (s.app.startProgram (some program)).2 = _
    unfold startProgram
    dsimp only
    rw [if_neg hfree]
  refine atRest_of_due lasts_timing (h.next (.start (some program)) trivial)
    (Due.starting .opening ?_ program d ?_ hlasts ?_) hactions hlong
  · refine shutting_opening ?_ ?_
    · rw [hafter]
      rfl
    · rw [hafter]
      exact ⟨rfl, rfl, rfl, rfl⟩
  · rw [hafter]
  · have hticks : ticks (s.next (.start (some program))).app.state .opening = 5 := by
      rw [hafter]
      rfl
    rw [hticks]
    omega

/-- Ten minutes at 60 °C. -/
def soup : AnyProgram := .manual (ManualMode.ofSeconds 600 2 600)

def atIdle : SystemSim AnyProgram := SystemSim.start (fun _ => 0) (fun _ => 0)

theorem cooking_in_time_soup : Lasts soup 600000 ∧
    AtRest ((List.replicate 600110 SystemSim.Action.stepMs).foldl SystemSim.next
      (atIdle.next (.start (some soup)))) := by
  have hlasts : Lasts soup 600000 := ⟨600000, by decide, by decide, by decide⟩
  refine ⟨hlasts, cooking_in_time (Reachable.init ⟨_, _, rfl⟩) (by decide +kernel) hlasts ?_ ?_⟩
  · refine along_of_forall (fun action haction s => ?_) _
    rw [List.eq_of_mem_replicate haction]
    exact ⟨trivial, trivial⟩
  · rw [List.countP_replicate]
    exact le_rfl

end Culina.SessionTime
