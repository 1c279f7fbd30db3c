import Culina.Simulator

/-!
The simulator as a world of two processors. Its millisecond is a run of that world in which every
frame is delivered at once, so what holds of the world holds of the simulator: the link is never lost.
The watchdog of the application is fed every ten milliseconds and never trips.
-/
namespace Culina.Lockstep

open Wire Drives Ports Safety SafetyMcu Supervision SerialLink WholeFrames Counters Heartbeat
open LinkLoss Lid Plant MainLoop Client McuClient Cooking CookingController Simulator Runs

/-! What the client writes goes under way. -/

theorem shown_zero (time : ℕ) : shown 0 time = Machine.now time := by
  rw [shown, Machine.now, Nat.zero_add]

section Worlds

variable {H : Type} [Board H] {w w' w'' : World H}

/-- The client has written these bytes, and the rest of the world has stood still. -/
structure Writes (w w' : World H) (bytes : List Byte) : Prop where
  mcu : w'.mcu = w.mcu
  clocks : w'.clientStart = w.clientStart ∧ w'.mcuStart = w.mcuStart ∧ w'.time = w.time
  ticked : w'.ticked = w.ticked
  arrived : w'.arrived = w.arrived
  wire : w'.client.link.uart.wire = w.client.link.uart.wire ++ bytes
  flights : w'.flights.flatMap Flight.bytes = w.flights.flatMap Flight.bytes ++ bytes
  sentAt : ∀ flight ∈ w'.flights, flight ∈ w.flights ∨ flight.sentAt = w.time

omit [Board H] in
theorem Writes.trans {bytes bytes' : List Byte} (h : Writes w w' bytes) (h' : Writes w' w'' bytes') :
    Writes w w'' (bytes ++ bytes') := by
  refine ⟨h'.mcu.trans h.mcu, ⟨h'.clocks.1.trans h.clocks.1, h'.clocks.2.1.trans h.clocks.2.1,
    h'.clocks.2.2.trans h.clocks.2.2⟩, h'.ticked.trans h.ticked, h'.arrived.trans h.arrived, ?_, ?_,
    fun flight hflight => ?_⟩
  · rw [h'.wire, h.wire, List.append_assoc]
  · rw [h'.flights, h.flights, List.append_assoc]
  · rcases h'.sentAt flight hflight with hold | hnew
    · exact h.sentAt flight hold
    · exact Or.inr (hnew.trans h.clocks.2.2)

omit [Board H] in
theorem launch_writes {client : McuClient Link} {bytes : List Byte}
    (hwire : client.link.uart.wire = w.client.link.uart.wire ++ bytes) :
    Writes w (w.launch client) bytes ∧ (w.launch client).client = client ∧
      (w.launch client).polled = w.polled := by
  have hdrop : client.link.uart.wire.drop w.client.link.uart.wire.length = bytes := by
    rw [hwire, List.drop_left]
  unfold World.launch
  rw [hdrop]
  by_cases hempty : bytes = []
  · subst hempty
    exact ⟨⟨rfl, ⟨rfl, rfl, rfl⟩, rfl, rfl, hwire, (List.append_nil _).symm, fun _ => Or.inl⟩, rfl, rfl⟩
  · dsimp only
    rw [if_neg hempty]
    refine ⟨⟨rfl, ⟨rfl, rfl, rfl⟩, rfl, rfl, hwire, ?_, fun flight hflight => ?_⟩, rfl, rfl⟩
    · rw [List.flatMap_append, List.flatMap_singleton]
    · rcases List.mem_append.mp hflight with hold | hnew
      · exact Or.inl hold
      · rw [List.mem_singleton.mp hnew]
        exact Or.inr rfl

theorem launched_wire {c c' : McuClient Link} {time : ℕ} {last last' : Option ℕ}
    (h : Launched c time last c' last') :
    ∃ bytes, c'.link.uart.wire = c.link.uart.wire ++ bytes := by
  cases h with
  | nothing wire => exact ⟨[], by rw [wire, List.append_nil]⟩
  | frame f _ _ wire => exact ⟨_, wire⟩

/-- The world in which the client has been called. -/
theorem calls_writes {c : McuClient Link} (hinv : World.Inv w)
    (h : Calls (shown w.clientStart w.time) w.client c) :
    ∃ w' bytes, World.Inv w' ∧ w'.client = c ∧ w'.polled = w.polled ∧ Writes w w' bytes := by
  induction h with
  | refl =>
    exact ⟨w, [], hinv, rfl, rfl, rfl, ⟨rfl, rfl, rfl⟩, rfl, rfl, (List.append_nil _).symm,
      (List.append_nil _).symm, fun _ => Or.inl⟩
  | request _ id payload ih =>
    obtain ⟨w', bytes, hinv', rfl, hpolled, hwrites⟩ := ih
    obtain ⟨hclientStart, -, htime⟩ := hwrites.clocks
    rw [← hclientStart, ← htime]
    obtain ⟨last', hlaunched, -⟩ := request_timely hinv'.client id payload
    obtain ⟨bytes', hwire⟩ := launched_wire hlaunched
    obtain ⟨hwrites', hclient, hpolled'⟩ := launch_writes hwire
    exact ⟨_, _, World.inv_next hinv' (.request id payload) trivial, hclient, hpolled'.trans hpolled,
      hwrites.trans hwrites'⟩
  | takeResponse _ ih =>
    obtain ⟨w', bytes, hinv', rfl, hpolled, hwrites⟩ := ih
    refine ⟨_, bytes, World.inv_next hinv' .takeResponse trivial, takeResponse_snd _, hpolled, ?_⟩
    refine ⟨hwrites.mcu, hwrites.clocks, hwrites.ticked, hwrites.arrived, ?_, hwrites.flights, hwrites.sentAt⟩
    change w'.client.takeResponse.2.link.uart.wire = _
    rw [takeResponse_snd]
    exact hwrites.wire
  | clearCommandStatus _ ih =>
    obtain ⟨w', bytes, hinv', rfl, hpolled, hwrites⟩ := ih
    exact ⟨_, bytes, World.inv_next hinv' .clearCommandStatus trivial, rfl, hpolled,
      hwrites.mcu, hwrites.clocks, hwrites.ticked, hwrites.arrived, hwrites.wire, hwrites.flights,
      hwrites.sentAt⟩
  | clearFault _ ih =>
    obtain ⟨w', bytes, hinv', rfl, hpolled, hwrites⟩ := ih
    exact ⟨_, bytes, World.inv_next hinv' .clearFault trivial, rfl, hpolled,
      hwrites.mcu, hwrites.clocks, hwrites.ticked, hwrites.arrived, hwrites.wire, hwrites.flights,
      hwrites.sentAt⟩

/-- The world in which all that is under way has arrived. -/
theorem deliver_all (hinv : World.Inv w) : ∃ w', World.Inv w' ∧ w'.flights = [] ∧
    w'.client = w.client ∧ w'.clientStart = w.clientStart ∧ w'.mcuStart = w.mcuStart ∧ w'.time = w.time ∧
    w'.mcu = { w.mcu with
      link := { w.mcu.link with uart := w.mcu.link.uart.receive (w.flights.flatMap Flight.bytes) } } := by
  generalize hflights : w.flights = flights
  induction flights generalizing w with
  | nil =>
    refine ⟨w, hinv, hflights, rfl, rfl, rfl, rfl, ?_⟩
    simp [Uart.receive]
  | cons flight rest ih =>
    have hnext := World.inv_next hinv .deliver trivial
    have hdelivered : w.next .deliver = { w with
        flights := rest
        arrived := w.arrived ++ [flight]
        mcu :=
          { w.mcu with
            link := { w.mcu.link with uart := w.mcu.link.uart.receive flight.bytes } } } := by
      simp only [World.next, hflights]
    rw [hdelivered] at hnext
    obtain ⟨w', hinv', hempty, hclient, hclientStart, hmcuStart, htime, hmcu⟩ := ih hnext rfl
    refine ⟨w', hinv', hempty, hclient, hclientStart, hmcuStart, htime, ?_⟩
    rw [hmcu]
    simp [Uart.receive]

/-- The world in which the client has polled. -/
theorem poll_writes (hinv : World.Inv w) {c : McuClient Link}
    (hpoll : c = w.client.poll (shown w.clientStart w.time)) :
    ∃ w' bytes, World.Inv w' ∧ w'.client = c ∧ w'.polled = true ∧ Writes w w' bytes := by
  subst hpoll
  obtain ⟨last', hlaunched, -⟩ := poll_timely hinv.client.weaken
  obtain ⟨bytes, hwire⟩ := launched_wire hlaunched
  obtain ⟨hwrites, hclient, -⟩ := launch_writes hwire
  exact ⟨_, bytes, World.inv_next hinv .poll trivial, hclient, rfl, hwrites.mcu, hwrites.clocks,
    hwrites.ticked, hwrites.arrived, hwrites.wire, hwrites.flights, hwrites.sentAt⟩

omit [Board H] in
/-- Construction counts as the end of a millisecond. -/
theorem booted_served (h : World.Booted w) : World.Inv { w with polled := true, ticked := true } := by
  obtain ⟨hsupervised, hfault, hheld, hcarries, hinTime, hpast, hspaced⟩ := (World.inv_booted h).supplied
  obtain ⟨accept, board, clientStart, mcuStart, rfl⟩ := h
  refine ⟨⟨⟨fun _ _ => le_rfl, rfl, rfl⟩, Nat.zero_le _, ?_, ?_⟩,
    ⟨hsupervised, hfault, hheld, hcarries, hinTime, hpast, hspaced⟩⟩
  · exact fun t ht => nomatch ht
  · exact fun hwaiting => nomatch hwaiting

/-- A world between two milliseconds, with the machine in it and the bytes under way. -/
structure Between (w : World H) (c : McuClient Link) (m : Machine H) (bytes : List Byte) : Prop where
  inv : World.Inv w
  client : w.client = c
  mcu : w.mcu = m.mcu
  clocks : w.clientStart = 0 ∧ w.mcuStart = 0 ∧ w.time = m.clock
  served : w.polled = true ∧ w.ticked = true
  arrived : w.arrived = []
  flights : w.flights.flatMap Flight.bytes = bytes
  fresh : ∀ flight ∈ w.flights, flight.sentAt = w.time

omit [Board H] in
theorem Between.writes {m : Machine H} {c c' : McuClient Link} {bytes bytes' : List Byte}
    (h : Between w c m bytes) (hinv : World.Inv w') (hclient : w'.client = c')
    (hpolled : w'.polled = w.polled) (hwrites : Writes w w' bytes') :
    Between w' c' m (bytes ++ bytes') ∧ c'.link.uart.wire = c.link.uart.wire ++ bytes' := by
  refine ⟨⟨hinv, hclient, hwrites.mcu.trans h.mcu, ?_, ?_, hwrites.arrived.trans h.arrived, ?_, ?_⟩, ?_⟩
  · obtain ⟨hclientStart, hmcuStart, htime⟩ := hwrites.clocks
    rw [hclientStart, hmcuStart, htime]
    exact h.clocks
  · rw [hpolled, hwrites.ticked]
    exact h.served
  · rw [hwrites.flights, h.flights]
  · intro flight hflight
    rw [hwrites.clocks.2.2]
    rcases hwrites.sentAt flight hflight with hold | hnew
    · exact h.fresh flight hold
    · exact hnew
  · rw [← hclient, hwrites.wire, h.client]

/-- The machine in the world takes its tick on all that was under way. -/
theorem Between.tick {m : Machine H} {c : McuClient Link} {bytes : List Byte} (h : Between w c m bytes)
    (board : H) : ∃ w', World.Inv w' ∧ w'.client = c ∧ w'.mcu = (m.advance ⟨1, bytes, board⟩).mcu ∧
      (w'.clientStart = 0 ∧ w'.mcuStart = 0 ∧ w'.time = m.clock + 1) ∧ w'.ticked = true ∧
      w'.arrived = [] ∧ w'.flights = [] := by
  obtain ⟨hclientStart, hmcuStart, htime⟩ := h.clocks
  have helapsed := World.inv_next h.inv .elapse ⟨h.served.1, h.served.2, fun flight hflight => by
    rw [h.fresh flight hflight]
    omega⟩
  obtain ⟨w₁, hinv₁, hempty, hclient₁, hclientStart₁, hmcuStart₁, htime₁, hmcu₁⟩ := deliver_all helapsed
  change w₁.clientStart = w.clientStart at hclientStart₁
  change w₁.mcuStart = w.mcuStart at hmcuStart₁
  change w₁.time = w.time + 1 at htime₁
  have harrive : w₁.arrive board = m.arrive ⟨1, bytes, board⟩ := by
    unfold World.arrive Machine.arrive
    rw [hmcu₁, ← h.mcu, ← h.flights]
    rfl
  refine ⟨_, World.inv_next hinv₁ (.tick board) trivial, hclient₁.trans h.client, ?_,
    ⟨hclientStart₁.trans hclientStart, hmcuStart₁.trans hmcuStart, htime₁.trans (congrArg (· + 1) htime)⟩,
    rfl, rfl, hempty⟩
  change (w₁.arrive board).tick1ms (shown w₁.mcuStart w₁.time) = _
  rw [harrive, Machine.advance_mcu, hmcuStart₁, hmcuStart, shown_zero, htime₁, htime]

/-- A whole millisecond: the machine takes its tick, and the client hears and polls. -/
theorem Between.millisecond {m : Machine H} {c : McuClient Link} {bytes : List Byte} (h : Between w c m bytes)
    (board : H) (incoming : List Byte) : ∃ w' bytes',
      Between w' ((heard c incoming).poll (Machine.now (m.clock + 1))) (m.advance ⟨1, bytes, board⟩) bytes' ∧
      ((heard c incoming).poll (Machine.now (m.clock + 1))).link.uart.wire = c.link.uart.wire ++ bytes' := by
  obtain ⟨w₁, hinv₁, hclient₁, hmcu₁, ⟨hclientStart₁, hmcuStart₁, htime₁⟩, hticked₁, harrived₁, hflights₁⟩ :=
    h.tick board
  have hheard : (w₁.next (.hear incoming)).client = heard c incoming := by
    rw [← hclient₁]
    rfl
  have hpoll : (heard c incoming).poll (Machine.now (m.clock + 1)) = (w₁.next (.hear incoming)).client.poll
      (shown (w₁.next (.hear incoming)).clientStart (w₁.next (.hear incoming)).time) := by
    change _ = (w₁.next (.hear incoming)).client.poll (shown w₁.clientStart w₁.time)
    rw [hheard, hclientStart₁, shown_zero, htime₁]
  obtain ⟨w', bytes', hinv', hclient', hpolled', hwrites⟩ :=
    poll_writes (World.inv_next hinv₁ (.hear incoming) trivial) hpoll
  refine ⟨w', bytes', ⟨hinv', hclient', hwrites.mcu.trans hmcu₁, ?_, ⟨hpolled', hwrites.ticked.trans hticked₁⟩,
    hwrites.arrived.trans harrived₁, ?_, ?_⟩, ?_⟩
  · obtain ⟨hclientStart, hmcuStart, htime⟩ := hwrites.clocks
    exact ⟨hclientStart.trans hclientStart₁, hmcuStart.trans hmcuStart₁, htime.trans htime₁⟩
  · rw [hwrites.flights]
    change w₁.flights.flatMap _ ++ bytes' = bytes'
    rw [hflights₁]
    rfl
  · intro flight hflight
    rw [hwrites.clocks.2.2]
    rcases hwrites.sentAt flight hflight with hold | hnew
    · change flight ∈ w₁.flights at hold
      rw [hflights₁] at hold
      exact absurd hold List.not_mem_nil
    · exact hnew
  · rw [← hclient', hwrites.wire, hheard]
    rfl

end Worlds

/-! The clock and the watchdog of the simulator. -/

variable {P : Type}

/-- The board and the safety processor have had the same milliseconds, and the watchdog was fed in the
last of them in which the controller ran. -/
structure Paced (rig : Rig) (appDivider : ℕ) : Prop where
  sound : Rig.Sound rig
  nowUs : rig.board.sensors.nowUs = 1000 * rig.machine.clock
  untripped : rig.board.sensors.watchdog.tripped = false
  fed : rig.board.sensors.watchdog.armed = true → ∃ fedAt, fedAt + appDivider = rig.machine.clock ∧
    rig.board.sensors.watchdog.lastFeedMs = Machine.now fedAt

theorem Paced.nowMs {rig : Rig} {appDivider : ℕ} (h : Paced rig appDivider) :
    rig.board.sensors.nowMs = Machine.now rig.machine.clock := by
  rw [Models.nowMs, h.nowUs, Nat.mul_div_cancel_left _ (by norm_num)]
  rfl

/-- Within its timeout the watchdog does not trip. -/
theorem check_recent {watchdog : Watchdog} {fedAt clock : ℕ} (hle : fedAt ≤ clock) (hrecent : clock ≤ fedAt + 500)
    (hfed : watchdog.armed = true → watchdog.lastFeedMs = Machine.now fedAt) :
    watchdog.check (Machine.now clock) = watchdog := by
  unfold Watchdog.check
  rw [if_neg]
  intro htrips
  rw [Bool.and_eq_true, decide_eq_true_eq] at htrips
  obtain ⟨harmed, hlate⟩ := htrips
  rw [hfed harmed, ← shown_zero, ← shown_zero, gt_iff_lt, BitVec.lt_def, shown_sub hle (by omega)] at hlate
  have htimeout : Watchdog.kTimeoutMs.toNat = 500 := rfl
  omega

/-- A millisecond of board and safety processor. -/
theorem pass_paced {rig : Rig} {appDivider : ℕ} (h : Paced rig appDivider) (hdivider : appDivider < 10)
    (rx : List Byte) : Paced (rig.pass ⟨rx, []⟩) (appDivider + 1) := by
  have hdriven := Rig.pass_driven h.sound ⟨rx, []⟩
  have hsound := Rig.pass_sound h.sound ⟨rx, []⟩
  have hclock : (rig.pass ⟨rx, []⟩).machine.clock = rig.machine.clock + 1 := rfl
  have hnowUs : (rig.stepped ⟨rx, []⟩).sensors.nowUs = 1000 * (rig.machine.clock + 1) := by
    change rig.board.sensors.nowUs + 1000 = _
    rw [h.nowUs]
    omega
  have hwatchdog : (rig.stepped ⟨rx, []⟩).sensors.watchdog = rig.board.sensors.watchdog := by
    change rig.board.sensors.watchdog.check (BitVec.ofNat 32 ((rig.board.sensors.nowUs + 1000) / 1000)) = _
    rw [h.nowUs, show 1000 * rig.machine.clock + 1000 = 1000 * (rig.machine.clock + 1) by ring,
      Nat.mul_div_cancel_left _ (by norm_num)]
    cases harmed : rig.board.sensors.watchdog.armed with
    | false =>
      exact check_recent le_rfl (Nat.le_add_right _ _) fun h => Bool.noConfusion (harmed.symm.trans h)
    | true =>
      obtain ⟨fedAt, hfedAt, hlast⟩ := h.fed harmed
      exact check_recent (show fedAt ≤ _ by omega) (by omega) fun _ => hlast
  refine ⟨hsound, ?_, ?_, ?_⟩
  · rw [hdriven.nowUs, hclock, hnowUs]
  · rw [hdriven.watchdog, hwatchdog]
    exact h.untripped
  · rw [hdriven.watchdog, hwatchdog, hclock]
    intro harmed
    obtain ⟨fedAt, hfedAt, hlast⟩ := h.fed harmed
    exact ⟨fedAt, by omega, hlast⟩

theorem fed_sound {rig : Rig} (h : Rig.Sound rig) : Rig.Sound (fed rig) :=
  ⟨h.supervised, ⟨h.bounds.motor, h.bounds.watts, h.bounds.sensor, h.bounds.mass, h.bounds.ambient,
    h.bounds.warm⟩, h.duty, h.turning, h.watts⟩

theorem fed_paced {rig : Rig} {appDivider : ℕ} (h : Paced rig appDivider) : Paced (fed rig) 0 :=
  ⟨fed_sound h.sound, h.nowUs, h.untripped, fun _ => ⟨rig.machine.clock, rfl, h.nowMs⟩⟩

theorem touched_paced {rig : Rig} {appDivider : ℕ} {touch : Touch} (h : Paced rig appDivider)
    (hfits : touch.Fits rig.board) : Paced { rig with board := touch.apply rig.board } appDivider := by
  have hserved := Touch.apply_served hfits h.sound.bounds.mass
  have hsound := h.sound.served hserved
  obtain ⟨trueMassG, viscosity, -, -, hsensors⟩ := hserved.sensors
  refine ⟨hsound, ?_, ?_, ?_⟩
  · rw [hsensors]
    exact h.nowUs
  · rw [hsensors]
    exact h.untripped
  · rw [hsensors]
    exact h.fed

/-! The simulator in its world. -/

/-- A simulator between two milliseconds is such a world. -/
def Matched (s : SystemSim P) : Prop := ∃ w, Between w s.app.mcu s.rig.machine s.appToMcu

/-- What the user has the application do is done by its client. -/
theorem command_matched {s : SystemSim P} (h : Matched s) {app : CookingController Link P}
    (hcalls : Calls (Machine.now s.rig.machine.clock) s.app.mcu app.mcu) :
    Matched (s.command app) ∧ ∃ bytes, app.mcu.link.uart.wire = s.app.mcu.link.uart.wire ++ bytes := by
  obtain ⟨w, hw⟩ := h
  rw [← hw.client, ← hw.clocks.2.2, ← shown_zero, ← hw.clocks.1] at hcalls
  obtain ⟨w', bytes, hinv, hclient, hpolled, hwrites⟩ := calls_writes hw.inv hcalls
  obtain ⟨hbetween, hwire⟩ := hw.writes hinv hclient hpolled hwrites
  refine ⟨⟨w', ?_⟩, bytes, hwire⟩
  have hsent : sentBetween s.app app = bytes := by
    rw [sentBetween, hwire, List.drop_left]
  change Between w' app.mcu s.rig.machine (s.appToMcu ++ sentBetween s.app app)
  rw [hsent]
  exact hbetween

/-- A millisecond without the controller. -/
def uncontrolled (s : SystemSim P) : SystemSim P where
  rig := s.ticked
  app := s.polled
  appDivider := s.appDivider + 1
  appToMcu := sentBetween s.app s.polled

theorem uncontrolled_matched {s : SystemSim P} (h : Matched s) (hpaced : Paced s.rig s.appDivider)
    (hdivider : s.appDivider < 10) : Matched (uncontrolled s) ∧
      ∃ bytes, s.polled.mcu.link.uart.wire = s.app.mcu.link.uart.wire ++ bytes := by
  obtain ⟨w, hw⟩ := h
  have hnow : s.ticked.board.sensors.nowMs = Machine.now (s.rig.machine.clock + 1) :=
    (pass_paced hpaced hdivider s.appToMcu).nowMs
  have hpolled : s.polled.mcu = (heard s.app.mcu s.mcuToApp).poll (Machine.now (s.rig.machine.clock + 1)) := by
    rw [← hnow]
    rfl
  obtain ⟨w', bytes, hbetween, hwire⟩ := hw.millisecond (s.rig.stepped ⟨s.appToMcu, []⟩) s.mcuToApp
  rw [← hpolled] at hbetween hwire
  have hsent : sentBetween s.app s.polled = bytes := by
    rw [sentBetween, hwire, List.drop_left]
  refine ⟨⟨w', ?_⟩, bytes, hwire⟩
  change Between w' s.polled.mcu (s.rig.pass ⟨s.appToMcu, []⟩).machine (sentBetween s.app s.polled)
  rw [hsent, Rig.pass_eq]
  exact hbetween

/-- What holds of a simulator between two milliseconds. -/
structure InStep (s : SystemSim P) : Prop where
  matched : Matched s
  paced : Paced s.rig s.appDivider
  divider : s.appDivider < 10

theorem InStep.nowMs {s : SystemSim P} (h : InStep s) : s.nowMs = Machine.now s.rig.machine.clock :=
  h.paced.nowMs

theorem started_inStep {s : SystemSim P} (h : SystemSim.Started s) : InStep s := by
  obtain ⟨scaleNoise, tempNoise, rfl⟩ := h
  have hrig : Rig.Started (Rig.start (fun _ len => len) scaleNoise tempNoise 0) :=
    ⟨_, _, _, 0, le_rfl, by norm_num, rfl⟩
  refine ⟨?_, ⟨Rig.started_sound hrig, rfl, rfl, fun harmed => Bool.noConfusion harmed⟩, show 0 < 10 by decide⟩
  exact ⟨_, booted_served ⟨fun _ len => len, _, 0, 0, rfl⟩, rfl, rfl, ⟨rfl, rfl, rfl⟩, ⟨rfl, rfl⟩, rfl, rfl,
    fun _ hflight => absurd hflight List.not_mem_nil⟩

theorem sentBetween_append {a b c : CookingController Link P} {first second : List Byte}
    (hfirst : b.mcu.link.uart.wire = a.mcu.link.uart.wire ++ first)
    (hsecond : c.mcu.link.uart.wire = b.mcu.link.uart.wire ++ second) :
    sentBetween a b ++ sentBetween b c = sentBetween a c := by
  rw [sentBetween, sentBetween, sentBetween, hsecond, List.drop_left, hfirst, List.drop_left,
    List.append_assoc, List.drop_left]

/-- Step lemma for the millisecond. -/
theorem stepMs_inStep [Program Link P] {s : SystemSim P} (h : InStep s) : InStep s.stepMs := by
  have hdivider := h.divider
  obtain ⟨hmatched, bytes, hwire⟩ := uncontrolled_matched h.matched h.paced hdivider
  have hpaced : Paced s.ticked (s.appDivider + 1) := pass_paced h.paced hdivider s.appToMcu
  unfold SystemSim.stepMs
  split
  · have hcalls := tick10ms_calls s.polled s.ticked.board.sensors.nowMs
    dsimp only
    generalize s.polled.tick10ms s.ticked.board.sensors.nowMs = app at hcalls ⊢
    rw [hpaced.nowMs] at hcalls
    obtain ⟨⟨w, hw⟩, bytes', hwire'⟩ := command_matched hmatched hcalls
    refine ⟨⟨w, ?_⟩, fed_paced hpaced, show 0 < 10 by decide⟩
    change Between w app.mcu s.ticked.machine (sentBetween s.app s.polled ++ sentBetween s.polled app) at hw
    rw [sentBetween_append hwire hwire'] at hw
    exact hw
  · exact ⟨hmatched, hpaced, show s.appDivider + 1 < 10 by omega⟩

theorem command_inStep {s : SystemSim P} (h : InStep s) {app : CookingController Link P}
    (hcalls : Calls s.nowMs s.app.mcu app.mcu) : InStep (s.command app) := by
  rw [h.nowMs] at hcalls
  exact ⟨(command_matched h.matched hcalls).1, h.paced, h.divider⟩

/-- Step lemma. -/
theorem next_inStep [Program Link P] {s : SystemSim P} (h : InStep s) (action : SystemSim.Action P)
    (hallowed : s.Allowed action) : InStep (s.next action) := by
  have hstep := next_step s action
  generalize s.next action = s' at hstep
  cases hstep with
  | stepMs => exact stepMs_inStep h
  | touch touch =>
    obtain ⟨w, hw⟩ := h.matched
    exact ⟨⟨w, hw.inv, hw.client, hw.mcu, hw.clocks, hw.served, hw.arrived, hw.flights, hw.fresh⟩,
      touched_paced h.paced hallowed, h.divider⟩
  | command _ app calls => exact command_inStep h calls

theorem inStep_of_reachable [Program Link P] {s : SystemSim P}
    (h : Reachable SystemSim.Started (Guarded SystemSim.Allowed SystemSim.next) s) : InStep s := by
  refine h.keeps InStep (fun _ => started_inStep) ?_
  rintro s action _ hs ⟨hallowed, rfl⟩
  exact next_inStep hs action hallowed

end Culina.Lockstep
