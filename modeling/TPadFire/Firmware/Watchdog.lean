import TPadFire.Firmware.Tasks

/-!
# The keep-alive timer

`main` gives up a connection when no keep-alive message has come for 10 s. It reads the time off the
core timer, which is set to zero at a keep-alive message and when `main` opens its channel.

`watched` runs the loop with a clock next to it that has counted since then (`Loop.clock`); the
keep-alive messages are read off the calls that the ADB layer makes of `ADBCallback`. In every run,
`main` stays connected in an iteration exactly when a device is attached and the clock is within the
limit (`watchdog`). The core timer has 32 bits: an iteration so long that the clock passes `2 ^ 32`
can hide from `main` that the time has run out.
-/

namespace TPadFire.Firmware

/-! ## The clock -/

namespace Loop

variable {m m' : Loop} {e : Env} {l : List (Call × Loop)} {k : ℕ}

/-- The clock after an iteration: the counts since the last keep-alive message, or since `main` has
opened its channel. -/
def clock (e : Env) (m m' : Loop) (k : ℕ) : ℕ :=
  if m.state ≠ .connected ∧ m'.state = .connected then 0
  else (if m.keptAlive e then 0 else k + e.elapsed) + e.later

/-- What holds between two iterations, if the clock is at `k`. -/
structure Watched (m : Loop) (k : ℕ) : Prop where
  ours : m.Ours
  timer : m.state = .connected → m.dev.coreTimer = k % 2 ^ 32

theorem watched_bootLoop : Watched bootLoop 0 where
  ours := ours_bootLoop
  timer h := by cases h

/-- The switch of `main` sets the core timer to zero when it comes to `STATE_CONNECTED`, and leaves
the rest of the device alone. -/
theorem dev_mainSwitch (hs : m.mainSwitch = some (l, m')) :
    m'.dev = if m.state ≠ .connected ∧ m'.state = .connected then writeCoreTimer 0 m.dev
      else m.dev := by
  cases switched hs with
  | opens hstate =>
    exact (if_pos ⟨fun h => (by cases hstate.symm.trans h), rfl⟩).symm
  | init | attach | gone | expires => exact (if_neg fun h => MainState.noConfusion h.2).symm
  | wait hstate | connect hstate | full hstate =>
    exact (if_neg fun h => by cases hstate.symm.trans h.2).symm
  | stays hstate => exact (if_neg fun h => h.1 hstate).symm

/-- The switch of `main` in `STATE_CONNECTED` looks at the link and at the core timer. -/
theorem mainSwitch_connected (hstate : m.state = .connected) (hs : m.mainSwitch = some (l, m')) :
    m'.conn = m.conn ∧
      (m'.state = .connected ↔ m.attached = true ∧ m.dev.coreTimer ≤ keepAliveLimit) := by
  cases switched hs with
  | gone _ _ hdet =>
    exact ⟨rfl, iff_of_false MainState.noConfusion fun h => by cases h.1.symm.trans hdet⟩
  | expires _ _ _ hexp =>
    exact ⟨rfl, iff_of_false MainState.noConfusion fun h => absurd hexp (not_lt.2 h.2)⟩
  | stays _ _ hatt htime => exact ⟨rfl, iff_of_true hstate ⟨hatt, not_lt.1 htime⟩⟩
  | init h | attach h | wait h | connect h | full h | opens h => cases hstate.symm.trans h

/-- The core timer counts as the clock does. -/
theorem Watched.counted (hm : m.Watched k) (hstate : m.state = .connected) :
    m.counted e = ((if m.keptAlive e then 0 else k + e.elapsed) + e.later) % 2 ^ 32 := by
  unfold Loop.counted
  rw [hm.timer hstate]
  split_ifs
  · rfl
  · omega

/-- **An iteration** in `STATE_CONNECTED` looks at the clock. -/
theorem Watched.step (hm : m.Watched k) (hs : loop.step m e m') :
    m'.Watched (clock e m m' k) ∧ (m.state = .connected →
      (m'.state = .connected ↔
        m'.attached = true ∧ clock e m m' k % 2 ^ 32 ≤ keepAliveLimit)) := by
  obtain ⟨m₁, l, h₁, h₂⟩ := loop_step_iff.1 hs
  obtain ⟨hstate₁, -, -⟩ := connectionTasks_frame h₁
  obtain ⟨hours, htimer⟩ := hm.ours.connectionTasks h₁
  have hours' := hours.mainSwitch h₂
  by_cases hstate : m.state = .connected
  · obtain ⟨hconn, hiff⟩ := mainSwitch_connected (hstate₁.trans hstate) h₂
    have hdev : m'.dev = m₁.dev :=
      (dev_mainSwitch h₂).trans (if_neg fun h => h.1 (hstate₁.trans hstate))
    have hclock : clock e m m' k = (if m.keptAlive e then 0 else k + e.elapsed) + e.later :=
      if_neg fun h => h.1 hstate
    have hcount : m'.dev.coreTimer = clock e m m' k % 2 ^ 32 := by
      rw [hdev, htimer, hm.counted hstate, hclock]
    refine ⟨⟨hours', fun _ => hcount⟩, fun _ => ?_⟩
    unfold attached
    rw [hiff, ← hcount, hdev, hconn]
    rfl
  · refine ⟨⟨hours', fun hstate' => ?_⟩, fun h => absurd h hstate⟩
    rw [dev_mainSwitch h₂, if_pos ⟨fun h => hstate (hstate₁.symm.trans h), hstate'⟩]
    unfold clock
    rw [if_pos ⟨hstate, hstate'⟩]
    rfl

end Loop

/-- The loop with the clock next to it. -/
def watched : Lts (Loop × ℕ) Env :=
  ⟨fun s e s' => loop.step s.1 e s'.1 ∧ s'.2 = Loop.clock e s.1 s'.1 s.2⟩

/-- **The keep-alive timer**: in every run of the loop, `main` stays in `STATE_CONNECTED` in an
iteration if and only if at its end a device is attached and no more than 10 s have been counted
since the last keep-alive message, or since the channel was opened, up to the wrap of the core
timer. -/
theorem watchdog {es : List Env} {m m' : Loop} {k k' : ℕ} {e : Env}
    (hr : watched.Run (bootLoop, 0) es (m, k)) (hs : watched.step (m, k) e (m', k'))
    (hstate : m.state = .connected) :
    m'.state = .connected ↔ m'.attached = true ∧ k' % 2 ^ 32 ≤ keepAliveLimit := by
  have hm : m.Watched k := by
    refine hr.invariant (I := fun s => s.1.Watched s.2) ?_ Loop.watched_bootLoop
    rintro s e s' hs ⟨hstep, hclock⟩
    rw [hclock]
    exact (hs.step hstep).1
  obtain ⟨hstep, hclock⟩ := hs
  dsimp only at hstep hclock
  rw [hclock]
  exact (hm.step hstep).2 hstate

/-- An iteration of the loop with the clock, computed. -/
def watch (e : Env) (s : Loop × ℕ) : Option (Loop × ℕ) :=
  (s.1.iterate e).map fun r => (r.2, Loop.clock e s.1 r.2 s.2)

theorem watched_step_of_watch (e : Env) (s s' : Loop × ℕ) (h : watch e s = some s') :
    watched.step s e s' := by
  obtain ⟨⟨l, m'⟩, hstep, rfl⟩ := Option.map_eq_some_iff.1 h
  exact ⟨⟨l, hstep⟩, rfl⟩

/-- The channel is opened, and 9 s later a keep-alive message comes. -/
def aliveRun : List Env :=
  attachRun ++ [connectEnv, briefly (Adb.smooth none), briefly (Adb.smooth none),
    briefly (received (Adb.Message.header ⟨Adb.adbOkay, 9, 256, []⟩).toBytes),
    briefly (Adb.smooth none),
    briefly (received (Adb.Message.header ⟨Adb.adbWrte, 9, 256, [commandAlive]⟩).toBytes),
    ⟨180000000, .quiet, received [commandAlive], false, 0⟩]

/-- Another 9 s later, `main` is still connected. -/
theorem watchdog_alive : ∃ m m' k', watched.Run (bootLoop, 0) aliveRun (m, 0) ∧
    watched.step (m, 0) ⟨180000000, .quiet, Adb.smooth none, false, 0⟩ (m', k') ∧
    k' = 180000000 ∧ m'.state = .connected := by
  have hrun : (Lts.perform watch (fun _ _ => ([] : List Unit)) aliveRun (bootLoop, 0)).bind
      (fun r => (watch ⟨180000000, .quiet, Adb.smooth none, false, 0⟩ r.1).map fun s' =>
        (r.1.1.state, r.1.2, s'.1.attached, s'.2)) =
      some (.connected, 0, true, 180000000) := by
    decide +kernel
  obtain ⟨⟨⟨m, k⟩, es⟩, hm, hlast⟩ := Option.bind_eq_some_iff.1 hrun
  obtain ⟨⟨m', k'⟩, hstep, heq⟩ := Option.map_eq_some_iff.1 hlast
  simp only [Prod.mk.injEq] at heq
  obtain ⟨hstate, rfl, hatt, rfl⟩ := heq
  have hr := (Lts.emits_of_perform (M := watched) watched_step_of_watch hm).run
  have hs := watched_step_of_watch _ _ _ hstep
  exact ⟨m, m', _, hr, hs, rfl, (watchdog hr hs hstate).2 ⟨hatt, by decide⟩⟩

end TPadFire.Firmware
