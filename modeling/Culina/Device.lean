import Culina.BladeSpeed
import Culina.BowlTemperature
import Culina.Lockstep

/-!
The device as a whole. Every run of the simulator is at once a run of its safety processor, a run of
its application, and one of the world in which both meet; what holds of each of them holds of it.
-/
namespace Culina.Device

open Wire Ports Safety SafetyMcu Supervision SerialLink Lid Plant MainLoop Machine Runs
open Client McuClient Cooking CookingController Sessions Simulator Lockstep BladeSpeed BowlTemperature

variable {P : Type} [Program Link P] {s : SystemSim P}

/-- A run of the simulator. -/
def Operated (s : SystemSim P) : Prop :=
  Reachable SystemSim.Started (Guarded SystemSim.Allowed SystemSim.next) s

/-- The safety processor runs by itself. -/
theorem machine_of_operated (h : Operated s) : Reachable Booted Ticked s.rig.machine := by
  refine Reachable.keeps h (fun s => Reachable Booted Ticked s.rig.machine) ?_ ?_
  · rintro s ⟨scaleNoise, tempNoise, rfl⟩
    exact Reachable.init ⟨_, _, 0, rfl⟩
  · rintro s action _ hs ⟨-, rfl⟩
    cases action with
    | stepMs =>
      have hticked : Reachable Booted Ticked s.ticked.machine :=
        Reachable.step hs (show Ticked s.rig.machine (s.rig.input ⟨s.appToMcu, []⟩) _ from rfl)
      change Reachable Booted Ticked s.stepMs.rig.machine
      unfold SystemSim.stepMs
      split <;> exact hticked
    | _ => exact hs

/-- So does the application. -/
theorem app_of_operated (h : Operated s) : AppReachable (fun _ _ => True) s.app := by
  refine Reachable.keeps h (fun s => AppReachable (fun _ _ => True) s.app) ?_ ?_
  · rintro s ⟨scaleNoise, tempNoise, rfl⟩
    exact appReachable_initial _ _
  · rintro s action _ hs ⟨-, rfl⟩
    cases action with
    | stepMs =>
      have hpolled : AppReachable (fun _ _ => True) s.polled :=
        (Reachable.next hs (.link (heard s.app.mcu s.mcuToApp).link) trivial).next
          (.poll s.ticked.board.sensors.nowMs) trivial
      change AppReachable (fun _ _ => True) s.stepMs.app
      unfold SystemSim.stepMs
      split
      · exact Reachable.next hpolled (.tick s.ticked.board.sensors.nowMs) trivial
      · exact hpolled
    | touch _ => exact hs
    | direct request => exact Reachable.next hs (.direct s.nowMs request) trivial
    | start program => exact Reachable.next hs (.start program) trivial
    | stop => exact Reachable.next hs .stop trivial
    | userNext => exact Reachable.next hs .userNext trivial
    | verify image expectedCrc => exact Reachable.next hs (.verify image expectedCrc) trivial

/-! Board and safety processor under the simulator. -/

/-- A property of the rig that a pass, the user and the watchdog keep holds in every run. -/
theorem rig_keeps (h : Operated s) (inv : Rig → Prop)
    (hstart : ∀ rig, Rig.Started rig → inv rig)
    (hpass : ∀ rig arrivals, Rig.Sound rig → inv rig → inv (rig.pass arrivals))
    (hserved : ∀ rig board, inv rig → Served rig.board board → inv { rig with board })
    (hfed : ∀ rig, inv rig → inv (fed rig)) : inv s.rig := by
  refine (Reachable.keeps h (fun s => InStep s ∧ inv s.rig) ?_ ?_).2
  · rintro s hs
    refine ⟨started_inStep hs, hstart _ ?_⟩
    obtain ⟨scaleNoise, tempNoise, rfl⟩ := hs
    exact ⟨_, _, _, 0, le_rfl, by norm_num, rfl⟩
  · rintro s action _ ⟨hs, hinv⟩ ⟨hallowed, rfl⟩
    refine ⟨next_inStep hs action hallowed, ?_⟩
    cases action with
    | stepMs =>
      have hticked := hpass s.rig ⟨s.appToMcu, []⟩ hs.paced.sound hinv
      change inv s.stepMs.rig
      unfold SystemSim.stepMs
      split
      · exact hfed _ hticked
      · exact hticked
    | touch touch =>
      exact hserved _ _ hinv (Touch.apply_served hallowed hs.paced.sound.bounds.mass)
    | _ => exact hinv

theorem slow_of_operated (h : Operated s) : Slow s.rig := by
  refine rig_keeps h Slow (fun _ hstart => (started_capped hstart).slow) (fun _ arrivals _ hs => pass_slow hs arrivals)
    (fun _ _ hs hserved => hs.served hserved) fun rig hs => ⟨fed_sound hs.sound, hs.unlocked⟩

theorem bounded_of_operated (h : Operated s) {level : ℚ} (hlevel : 165 ≤ level) : Bounded level s.rig := by
  refine rig_keeps h (Bounded level) (fun _ hstart => started_bounded hlevel hstart)
    (fun _ arrivals hsound hs => pass_bounded hlevel hsound hs arrivals) ?_ ?_
  · intro rig board hs hserved hnoise
    have hsame : board.sensors.tempSensor.noise = rig.board.sensors.tempSensor.noise := by
      obtain ⟨trueMassG, viscosity, -, -, hsensors⟩ := hserved.sensors
      rw [hsensors]
    exact (hs fun n => (congrFun hsame n) ▸ hnoise n).served hserved
  · intro rig hs hnoise
    obtain ⟨hsound, hnoise, hheating, hceiling⟩ := hs hnoise
    exact ⟨fed_sound hsound, hnoise, hheating, hceiling⟩

/-- Whatever the user does with the device and its application, the link is never lost, the watchdog
of the application never trips, the blade exceeds 6400 RPM under a locked lid only, and the bowl stays
below the cutoff up to noise and one millisecond of full power. -/
theorem device_safe (h : Operated s) :
    s.rig.machine.mcu.fault ≠ .linkLost ∧ s.rig.board.sensors.watchdog.tripped = false ∧
      (s.rig.board.lid.locked = false → s.rig.board.sensors.motor.rpm ≤ 6400) ∧
      ∀ noise : ℚ, 0 ≤ noise → (∀ n, -noise ≤ s.rig.board.sensors.tempSensor.noise n) →
        20 ≤ s.rig.board.sensors.thermal.temperatureC ∧
          s.rig.board.sensors.thermal.temperatureC ≤ 165 + noise + 19 / 20000 := by
  have hinStep := inStep_of_reachable h
  obtain ⟨w, hw⟩ := hinStep.matched
  have hfault := hw.inv.supplied.fault
  rw [hw.mcu] at hfault
  refine ⟨hfault, hinStep.paced.untripped, fun hunlocked => ((slow_of_operated h).unlocked hunlocked).1,
    fun noise hnoise hbound => ?_⟩
  have hceiling := bounded_of_operated h (show 165 ≤ 165 + noise by linarith) fun n => by
    have := hbound n
    linarith
  have hbounds := hinStep.paced.sound.bounds
  exact ⟨hbounds.warm, hceiling.ceiling⟩

/-! A bowl that is heated. -/

def quiet : SystemSim ManualMode := SystemSim.start (fun _ => 0) (fun _ => 0)

/-- The user asks for 100 °C. -/
def asking : SystemSim ManualMode := quiet.next (.direct (.setHeater 1000))

theorem quiet_operated : Operated quiet := Reachable.init ⟨_, _, rfl⟩

theorem asking_operated : Operated asking := quiet_operated.next (.direct (.setHeater 1000)) trivial

theorem device_safe_asking : 0 < (asking.next .stepMs).rig.board.sensors.heater.watts ∧
    (asking.next .stepMs).rig.machine.mcu.fault ≠ .linkLost :=
  ⟨by decide +kernel, (device_safe (asking_operated.next .stepMs trivial)).1⟩

end Culina.Device
