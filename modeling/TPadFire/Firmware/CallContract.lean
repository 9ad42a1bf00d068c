import TPadFire.Firmware.Tasks

/-!
# The calls of the ADB layer

The layer asks of its client to call its functions only while a device is attached, and `ADBWrite`
only on a channel that is idle with no data pending; the assertion in `ADBWrite` that says so is
compiled out. `main` writes its greeting right after `ADBOpen`, before the channel has been opened,
and it reads `ADBConnected` and `ADBChannelReady` also after a detach.

So `main` keeps to the contract only as long as it opens no channel. `callContract_iff` says in
which runs that is: those in which no device goes, and none connects, while `main` is in
`STATE_CONNECTING`. It never comes to `STATE_CONNECTED` in them (`Unasked`).
-/

namespace TPadFire.Firmware

namespace Loop

/-- The call is within the contract of the ADB layer. -/
def Call.Allowed (m : Loop) : Call → Prop
  | .adbWrite h => m.attached = true ∧ (m.conn.adb.channels h).state = .idle ∧
      (m.conn.adb.channels h).data = none
  | .adbConnected | .adbOpen | .adbChannelReady _ => m.attached = true

/-- An iteration that `main` does not begin in `STATE_CONNECTING`, or in which the device stays
attached and the layer does not come to be connected. -/
def Unopened (m : Loop) (e : Env) : Prop :=
  m.state = .connecting → m.Stays e ∧ ¬ m.conn.adb.Connects e.transfers

/-- What holds between two iterations if no channel has been opened yet. -/
structure Unasked (m : Loop) : Prop where
  empty : m.taken = ∅
  state : m.state ≠ .connected
  /-- `main` has seen the device, and so have the layers below. -/
  ready : m.state = .connecting → m.conn.link = .running ∧ m.conn.adbState ≠ .disconnected

theorem unasked_bootLoop : Unasked bootLoop where
  empty := Set.eq_empty_iff_forall_notMem.2 fun _ h => h rfl
  state := MainState.noConfusion
  ready h := MainState.noConfusion h

variable {m m₁ m' : Loop} {e : Env} {l : List (Call × Loop)}

/-! ## The calls -/

/-- The calls of the switch are allowed unless `main` opens a channel or there is no device. -/
theorem mainSwitch_allowed_iff (hs : m.mainSwitch = some (l, m')) :
    (∀ c ∈ l, c.1.Allowed c.2) ↔
      (m.state = .connecting → m.attached = true ∧ (m.connected = true → m.taken = Set.univ)) ∧
      (m.state = .connected → m.attached = true) := by
  cases switched hs with
  | init hstate | attach hstate | wait hstate => simp [hstate]
  | connect hstate hconn => simp [hstate, hconn, Call.Allowed]
  | full hstate _ hfull => simp [hstate, hfull, Call.Allowed]
  | @opens hstate hconn h a hopen =>
    obtain ⟨hfree, -, hstart⟩ := Adb.Layer.taken_adbOpen hopen
    refine iff_of_false (fun hall => ?_) fun hcond => ?_
    · have hwrite := hall _ (List.mem_cons_of_mem _ (List.mem_cons_of_mem _
        (List.mem_singleton_self _)))
      cases hstart.symm.trans hwrite.2.1
    · exact hfree (Set.eq_univ_iff_forall.1 ((hcond.1 hstate).2 hconn) h)
  | gone hstate _ hatt =>
    refine iff_of_false (fun hall => ?_) fun hcond => ?_
    · cases hatt.symm.trans (hall _ (List.mem_singleton_self _))
    · cases hatt.symm.trans (hcond.2 hstate)
  | expires hstate _ hatt | stays hstate _ hatt => simp [hstate, hatt, Call.Allowed]

/-- **The calls of an iteration**, as long as no channel has been opened. -/
theorem Unasked.allowed_iff (hm : m.Unasked) (h : loop.step m e m') :
    (∀ c ∈ m.calls e, c.1.Allowed c.2) ↔ m.Unopened e := by
  obtain ⟨m₁, l, h₁, h₂⟩ := loop_step_iff.1 h
  obtain ⟨hstate, -, -⟩ := connectionTasks_frame h₁
  have hcalls : m.calls e = l := by
    rw [calls, iterate, h₁, Option.bind_some, h₂]
    rfl
  have hroom : m₁.taken ≠ Set.univ := by
    rw [taken_eq_empty_connectionTasks hm.empty h₁]
    exact Set.empty_ne_univ
  rw [hcalls, mainSwitch_allowed_iff h₂, hstate]
  refine (and_iff_left fun hs => absurd hs hm.state).trans (forall_congr' fun hs => ?_)
  obtain ⟨hlink, hready⟩ := hm.ready hs
  obtain ⟨hstays, htasks⟩ := stays_iff hlink hready h₁
  rw [hstays]
  refine and_congr_right fun hstay => ?_
  rw [← (htasks hstay).2.2]
  exact ⟨fun hc hconn => hroom (hc hconn), fun hn hconn => absurd hconn hn⟩

/-- **The step lemma**: an iteration that opens no channel leaves `main` without one. -/
theorem unasked_step (hm : m.Unasked) (h : loop.step m e m') (ho : m.Unopened e) : m'.Unasked := by
  obtain ⟨m₁, l, h₁, h₂⟩ := loop_step_iff.1 h
  obtain ⟨hstate, -, -⟩ := connectionTasks_frame h₁
  have hempty := taken_eq_empty_connectionTasks hm.empty h₁
  have hstays (hs : m₁.state = .connecting) : m₁.attached = true ∧ m₁.connected ≠ true := by
    obtain ⟨hlink, hready⟩ := hm.ready (hstate.symm.trans hs)
    obtain ⟨hstay, hconn⟩ := ho (hstate.symm.trans hs)
    obtain ⟨hatt, htasks⟩ := stays_iff hlink hready h₁
    exact ⟨hatt.2 hstay, fun hc => hconn ((htasks hstay).2.2.1 hc)⟩
  have hready (hatt : m₁.attached = true) :
      m₁.conn.link = .running ∧ m₁.conn.adbState ≠ .disconnected :=
    ⟨Adb.Connection.attached_iff.1 hatt, ready_of_attached h₁ hatt⟩
  cases switched h₂ with
  | init => exact ⟨hempty, MainState.noConfusion, fun hs => MainState.noConfusion hs⟩
  | attach _ hatt => exact ⟨hempty, MainState.noConfusion, fun _ => hready hatt⟩
  | wait hs =>
    exact ⟨hempty, fun h => (by cases hs.symm.trans h), fun h => by cases hs.symm.trans h⟩
  | connect hs =>
    exact ⟨hempty, fun h => (by cases hs.symm.trans h), fun _ => hready (hstays hs).1⟩
  | full hs hconn | opens hs hconn => exact absurd hconn (hstays hs).2
  | gone hs | expires hs | stays hs => exact absurd (hstate.symm.trans hs) hm.state

end Loop

open Loop in
/-- **The contract of the ADB layer.** In every run of the loop, all calls are within the contract
exactly when in every iteration that `main` begins in `STATE_CONNECTING` the device stays attached
and the layer does not come to be connected. -/
theorem callContract_iff (es : List Env) :
    loop.Always (fun m e _ => ∀ c ∈ m.calls e, c.1.Allowed c.2) bootLoop es ↔
      loop.Always (fun m e _ => m.Unopened e) bootLoop es :=
  Lts.always_iff_always (fun _ _ _ hm h => hm.allowed_iff h)
    (fun _ _ _ hm h ho => unasked_step hm h ho) unasked_bootLoop es

/-- When a device has connected, `main` opens a channel and writes to it at once. -/
theorem callContract_write :
    ¬ loop.Always (fun m e _ => ∀ c ∈ m.calls e, c.1.Allowed c.2) bootLoop
      (attachRun ++ [connectEnv]) := by
  intro h
  have hrun : ((Loop.iterates attachRun bootLoop).bind fun m => (m.iterate connectEnv).map fun r =>
      r.1.map fun c => (c.1, (c.2.conn.adb.channels 0).state)) =
      some [(.adbConnected, .free), (.adbOpen, .free), (.adbWrite 0, .start)] := by
    decide +kernel
  obtain ⟨m, hm, hlast⟩ := Option.bind_eq_some_iff.1 hrun
  obtain ⟨⟨l, m'⟩, hstep, heq⟩ := Option.map_eq_some_iff.1 hlast
  have hall := h.of_run (Loop.run_of_iterates hm) ⟨l, hstep⟩
  rw [Loop.calls, hstep, Option.map_some, Option.getD_some] at hall
  have hmem : (Loop.Call.adbWrite 0, Adb.ChanState.start) ∈
      l.map fun c => (c.1, (c.2.conn.adb.channels 0).state) := by
    rw [heq]
    decide
  obtain ⟨⟨c, m₂⟩, hc, hcall⟩ := List.mem_map.1 hmem
  obtain ⟨rfl, hstart⟩ := Prod.mk.inj hcall
  have hidle := (hall _ hc).2.1
  cases hstart.symm.trans hidle

end TPadFire.Firmware
