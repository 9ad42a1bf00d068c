import TPadFire.Firmware.Tasks

/-!
# The channel table and the state of `main`

`main` opens a channel and then takes the connection to be up until the device is detached or no
keep-alive message has come for 10 s. It does not close the channel when the time runs out, and its
callback does not tell it when the remote end closes it. So the channel table and the state of
`main` can part: a timeout with the channel still open leaves it taken when the next one is opened
(`channelTable_leaks`), and an `ADB_CLSE` leaves `main` connected without a channel.

`channelTable_iff` says that these are the only ways: in every run the two agree exactly when `main`
opens a channel only into an empty table, and no packet closes its channel while it stays connected.
-/

namespace TPadFire.Firmware

open Adb (Handle)

namespace Loop

/-- The channel table agrees with the state of `main`: at most one entry is taken, and if `main` is
connected, that of its channel is. -/
def TableAgrees (m : Loop) : Prop :=
  m.taken.Subsingleton ∧ (m.state = .connected → ∃ h, m.h = some h ∧ h ∈ m.taken)

/-- An iteration in which the device stays attached, and in which
- if `main` is connecting and the layer is connected, or the packet that arrives is an `ADB_CNXN`,
  that packet closes every entry of the channel table that is taken;
- if `main` is connected and the time does not run out, the packet that arrives does not close its
  channel. -/
def Orderly (m : Loop) (e : Env) : Prop :=
  m.attached = true → m.Stays e →
    (m.state = .connecting → m.conn.adb.Connects e.transfers →
      ∀ h ∈ m.taken, m.conn.adb.Closes e.transfers h) ∧
    (m.state = .connected → m.counted e ≤ keepAliveLimit → ∀ h, m.h = some h →
      ¬ m.conn.adb.Closes e.transfers h)

/-- What holds between two iterations. -/
structure Linked (m : Loop) : Prop where
  agrees : m.attached = true → m.TableAgrees
  /-- The layers below have seen that the device is attached. -/
  ready : m.attached = true → m.conn.adbState ≠ .disconnected
  /-- They have seen that it was detached, and so has `main`, before it is attached again. -/
  reset : m.conn.link = .configuring → m.conn.adbState = .disconnected ∧ m.state ≠ .connected
  /-- Without a device, `main` does not come to opening a channel. -/
  stale : m.attached = false → m.state = .connecting → m.connected = false
  ours : m.Ours

theorem linked_bootLoop : Linked bootLoop where
  agrees h := absurd h (by decide)
  ready h := absurd h (by decide)
  reset h := absurd h (by decide)
  stale _ h := absurd h (by decide)
  ours := ours_bootLoop

variable {m m₁ m' : Loop} {e : Env} {l : List (Call × Loop)}

theorem attached_iff : m.attached = true ↔ m.conn.link = .running := Adb.Connection.attached_iff

theorem subsingleton_ne_univ {s : Set Handle} (h : s.Subsingleton) : s ≠ Set.univ := by
  rintro rfl
  exact absurd (h (Set.mem_univ 0) (Set.mem_univ 1)) (by decide)

/-- A table that loses entries still agrees on how many are taken. -/
theorem TableAgrees.subsingleton_diff (h : m.TableAgrees) (s : Set Handle) :
    (m.taken \ s).Subsingleton :=
  h.1.anti Set.sdiff_subset

/-! ## The tasks -/

/-- The tasks with a device that stays attached. -/
theorem Linked.tasks_attached (hm : Linked m) (h : m.connectionTasks e = some m₁)
    (ha : m.attached = true) (ha₁ : m₁.attached = true) :
    m₁.taken = m.taken \ {h | m.conn.adb.Closes e.transfers h} ∧
      m₁.conn.adbState ≠ .disconnected := by
  obtain ⟨hstays, htasks⟩ := stays_iff (attached_iff.1 ha) (hm.ready ha) h
  obtain ⟨hready, htaken, -⟩ := htasks (hstays.1 ha₁)
  exact ⟨htaken, hready⟩

/-- The tasks with a device that has just been attached. -/
theorem Linked.tasks_attach (hm : Linked m) (h : m.connectionTasks e = some m₁)
    (ha : m.attached = false) (ha₁ : m₁.attached = true) :
    m₁.taken = ∅ ∧ m₁.connected = false ∧ m₁.conn.adbState ≠ .disconnected ∧
      m.state ≠ .connected := by
  obtain ⟨-, -, d, d', hc⟩ := connectionTasks_frame h
  have hlink := attached_iff.1 ha₁
  rcases Adb.Connection.connectionTasks_cases hc with ⟨-, hne, -, -⟩ | ⟨hrun, -, hcase⟩
  · exact absurd hlink hne
  · have hconf : m.conn.link = .configuring := by
      refine (Adb.Connection.usbHostTasks_eq_running hrun).resolve_left fun hr => ?_
      cases (attached_iff.2 hr).symm.trans ha
    obtain ⟨hdis, hstate⟩ := hm.reset hconf
    rcases hcase with ⟨-, hinit, hadb⟩ | ⟨hs, -⟩
    · refine ⟨?_, ?_, by rw [hinit]; decide, hstate⟩
      · rw [taken, hadb]
        exact Adb.Layer.taken_init _
      · rw [connected, hadb]
        rfl
    · exact absurd hdis hs

/-- The tasks that leave no device: `main` can then open a channel only if the device has been there
until now. -/
theorem Linked.tasks_detached (hm : Linked m) (h : m.connectionTasks e = some m₁)
    (ha₁ : m₁.attached = false) :
    (m₁.conn.link = .configuring → m₁.conn.adbState = .disconnected ∧ m.attached = false) ∧
    (m.state = .connecting → m₁.connected = true → m.attached = true ∧ m₁.taken ≠ Set.univ) := by
  obtain ⟨-, -, d, d', hc⟩ := connectionTasks_frame h
  have hnot : m₁.conn.link ≠ .running := fun hr => by cases (attached_iff.2 hr).symm.trans ha₁
  rcases Adb.Connection.connectionTasks_cases hc with ⟨hlink, -, hdis, hadb⟩ | ⟨hrun, hlink, hcase⟩
  · constructor
    · intro hconf
      refine ⟨hdis, ?_⟩
      rw [hlink] at hconf
      exact Bool.eq_false_iff.2 fun ha =>
        Adb.Connection.usbHostTasks_eq_configuring hconf (attached_iff.1 ha)
    · intro hstate hconn
      have hsame : m₁.connected = m.connected := by rw [connected, connected, hadb]
      have htaken : m₁.taken = m.taken := by rw [taken, taken, hadb]
      have ha : m.attached = true := by
        by_contra hne
        rw [hsame, hm.stale (Bool.eq_false_iff.2 hne) hstate] at hconn
        exact Bool.noConfusion hconn
      exact ⟨ha, htaken ▸ subsingleton_ne_univ (hm.agrees ha).1⟩
  · have hdet : m₁.conn.link = .detached := hlink.resolve_left hnot
    refine ⟨fun hconf => (by cases hdet.symm.trans hconf), ?_⟩
    intro _ hconn
    rcases hcase with ⟨-, -, hadb⟩ | ⟨hs, -, htaken | ⟨-, hconn'⟩⟩
    · rw [connected, hadb] at hconn
      exact Bool.noConfusion hconn
    · have ha : m.attached = true := by
        rcases Adb.Connection.usbHostTasks_eq_running hrun with hr | hconf
        · exact attached_iff.2 hr
        · exact absurd (hm.reset hconf).1 hs
      refine ⟨ha, ?_⟩
      rw [taken, htaken]
      exact subsingleton_ne_univ ((hm.agrees ha).subsingleton_diff _)
    · cases hconn.symm.trans hconn'

/-! ## The switch -/

/-- The switch of `main` leaves the link and the state of the connection layer alone. -/
theorem mainSwitch_frame (h : m₁.mainSwitch = some (l, m')) :
    m'.conn.link = m₁.conn.link ∧ m'.conn.adbState = m₁.conn.adbState ∧
      (m'.state ≠ .connected → m'.connected = m₁.connected) := by
  cases switched h with
  | opens => exact ⟨rfl, rfl, fun hne => absurd rfl hne⟩
  | init | attach | wait | connect | full | gone | expires | stays => exact ⟨rfl, rfl, fun _ => rfl⟩

theorem mainSwitch_attached (h : m₁.mainSwitch = some (l, m')) : m'.attached = m₁.attached := by
  rw [attached, attached, Adb.Connection.attached, Adb.Connection.attached, (mainSwitch_frame h).1]

/-- With a connection and room in the table, `main` opens a channel. -/
theorem mainSwitch_opens (h : m₁.mainSwitch = some (l, m')) (hs : m₁.state = .connecting)
    (hconn : m₁.connected = true) (hroom : m₁.taken ≠ Set.univ) :
    ∃ h, h ∉ m₁.taken ∧ m'.h = some h ∧ m'.taken = insert h m₁.taken := by
  cases switched h with
  | opens _ _ hopen =>
    obtain ⟨hfree, htaken, -⟩ := Adb.Layer.taken_adbOpen hopen
    exact ⟨_, hfree, rfl, (Adb.Layer.taken_adbWrite _ hello _).trans htaken⟩
  | connect _ hnot => cases hconn.symm.trans hnot
  | full _ _ hfull => exact absurd hfull hroom
  | init hs' | attach hs' | wait hs' | gone hs' | expires hs' | stays hs' => cases hs.symm.trans hs'

/-- Otherwise it leaves the table alone. -/
theorem mainSwitch_keeps (h : m₁.mainSwitch = some (l, m'))
    (hnot : ¬ (m₁.state = .connecting ∧ m₁.connected = true)) : m'.taken = m₁.taken := by
  cases switched h with
  | opens hs hconn => exact absurd ⟨hs, hconn⟩ hnot
  | init | attach | wait | connect | full | gone | expires | stays => rfl

/-- While the device is attached and the time has not run out, `main` stays connected. -/
theorem mainSwitch_stays (h : m₁.mainSwitch = some (l, m')) (hs : m₁.state = .connected)
    (htime : ¬ m₁.timeout) (ha : m₁.attached = true) : m'.state = .connected ∧ m'.h = m₁.h := by
  cases switched h with
  | stays => exact ⟨hs, rfl⟩
  | gone _ _ hdet => cases ha.symm.trans hdet
  | expires _ _ _ hexp => exact absurd hexp htime
  | init hs' | attach hs' | wait hs' | connect hs' | full hs' | opens hs' =>
    cases hs.symm.trans hs'

/-- How `main` can have become connected, or stayed so. -/
theorem connected_of_mainSwitch (h : m₁.mainSwitch = some (l, m')) (hs : m'.state = .connected) :
    (m₁.state = .connecting ∧ m₁.connected = true) ∨
    (m₁.state = .connected ∧ m'.h = m₁.h ∧ m₁.attached = true ∧ ¬ m₁.timeout) := by
  cases switched h with
  | opens hc hconn => exact .inl ⟨hc, hconn⟩
  | stays hc _ ha htime => exact .inr ⟨hc, rfl, ha, htime⟩
  | init | attach | gone | expires => cases hs
  | wait hc | connect hc | full hc => cases hc.symm.trans hs

/-- How `main` can be about to open a channel. -/
theorem connecting_of_mainSwitch (h : m₁.mainSwitch = some (l, m')) (hs : m'.state = .connecting) :
    m₁.attached = true ∨ m₁.connected = false ∨
      (m₁.state = .connecting ∧ m₁.connected = true ∧ m₁.taken = Set.univ) := by
  cases switched h with
  | attach _ ha => exact .inl ha
  | connect _ hconn => exact .inr (.inl hconn)
  | full hc hconn hfull => exact .inr (.inr ⟨hc, hconn, hfull⟩)
  | init | opens | gone | expires => cases hs
  | wait hc | stays hc => cases hc.symm.trans hs

/-! ## One iteration -/

/-- While the device stays attached, the table agrees with `main` after an iteration exactly when
the iteration is orderly. -/
theorem Linked.agrees_attached (hm : Linked m) (h₁ : m.connectionTasks e = some m₁)
    (h₂ : m₁.mainSwitch = some (l, m')) (ha : m.attached = true) (ha₁ : m₁.attached = true) :
    m'.TableAgrees ↔
      (m₁.state = .connecting → m₁.connected = true → m₁.taken = ∅) ∧
      (m₁.state = .connected → ¬ m₁.timeout → ∀ h, m₁.h = some h →
        ¬ m.conn.adb.Closes e.transfers h) := by
  obtain ⟨htaken, -⟩ := hm.tasks_attached h₁ ha ha₁
  obtain ⟨hstate, hh, -⟩ := connectionTasks_frame h₁
  have hsub : m₁.taken.Subsingleton := htaken ▸ (hm.agrees ha).subsingleton_diff _
  by_cases hopen : m₁.state = .connecting ∧ m₁.connected = true
  · -- A channel is opened: the table was empty, or it now has two entries.
    obtain ⟨hs, hconn⟩ := hopen
    obtain ⟨h, hfree, hh', htaken'⟩ := mainSwitch_opens h₂ hs hconn (subsingleton_ne_univ hsub)
    constructor
    · intro hagree
      refine ⟨fun _ _ => ?_, fun hs' => by cases hs.symm.trans hs'⟩
      rw [Set.eq_empty_iff_forall_notMem]
      intro k hk
      have hkh : k = h := hagree.1 (htaken' ▸ Set.mem_insert_of_mem h hk)
        (htaken' ▸ Set.mem_insert h m₁.taken)
      exact hfree (hkh ▸ hk)
    · intro horder
      rw [horder.1 hs hconn, insert_empty_eq] at htaken'
      exact ⟨htaken' ▸ Set.subsingleton_singleton,
        fun _ => ⟨h, hh', htaken' ▸ Set.mem_singleton h⟩⟩
  · have hkeep : m'.taken = m₁.taken := mainSwitch_keeps h₂ hopen
    by_cases hstay : m₁.state = .connected ∧ ¬ m₁.timeout
    · -- `main` stays connected: its entry is still taken unless a packet has closed it.
      obtain ⟨hs, htime⟩ := hstay
      obtain ⟨hs', hh'⟩ := mainSwitch_stays h₂ hs htime ha₁
      obtain ⟨h, hh₀, hmem⟩ := (hm.agrees ha).2 (hstate.symm.trans hs)
      have hh₁ : m₁.h = some h := hh.trans hh₀
      have hmem₁ : h ∈ m'.taken ↔ ¬ m.conn.adb.Closes e.transfers h := by
        rw [hkeep, htaken]
        exact ⟨And.right, fun hn => ⟨hmem, hn⟩⟩
      constructor
      · intro hagree
        refine ⟨fun hc => (by cases hs.symm.trans hc), fun _ _ k hk => ?_⟩
        obtain ⟨k', hk', hmem'⟩ := hagree.2 hs'
        obtain rfl := Option.some.inj (hh₁.symm.trans hk)
        obtain rfl := Option.some.inj (hh₁.symm.trans (hh'.symm.trans hk'))
        exact hmem₁.1 hmem'
      · intro horder
        exact ⟨hkeep ▸ hsub, fun _ => ⟨h, hh'.trans hh₁, hmem₁.2 (horder.2 hs htime h hh₁)⟩⟩
    · refine iff_of_true ⟨hkeep ▸ hsub, fun hs' => ?_⟩
        ⟨fun hs hconn => absurd ⟨hs, hconn⟩ hopen, fun hs htime => absurd ⟨hs, htime⟩ hstay⟩
      rcases connected_of_mainSwitch h₂ hs' with hc | ⟨hs, -, -, htime⟩
      · exact absurd hc hopen
      · exact absurd ⟨hs, htime⟩ hstay

/-- After an iteration in which a device was attached, the table is empty and `main` is not
connected. -/
theorem Linked.agrees_attach (hm : Linked m) (h₁ : m.connectionTasks e = some m₁)
    (h₂ : m₁.mainSwitch = some (l, m')) (ha : m.attached = false) (ha₁ : m₁.attached = true) :
    m'.TableAgrees := by
  obtain ⟨htaken, hconn, -, hne⟩ := hm.tasks_attach h₁ ha ha₁
  obtain ⟨hstate, -, -⟩ := connectionTasks_frame h₁
  have hopen : ¬ (m₁.state = .connecting ∧ m₁.connected = true) :=
    fun hc => by cases hconn.symm.trans hc.2
  refine ⟨?_, fun hs' => ?_⟩
  · rw [mainSwitch_keeps h₂ hopen, htaken]
    exact Set.subsingleton_empty
  · rcases connected_of_mainSwitch h₂ hs' with hc | ⟨hs, -⟩
    · exact absurd hc hopen
    · exact absurd (hstate.symm.trans hs) hne

/-- The step property and the step condition agree. -/
theorem Linked.agrees_iff (hm : Linked m) (h : loop.step m e m') :
    (m.attached = true → m'.attached = true → m'.TableAgrees) ↔ m.Orderly e := by
  obtain ⟨m₁, l, h₁, h₂⟩ := loop_step_iff.1 h
  rw [mainSwitch_attached h₂]
  refine forall_congr' fun ha => ?_
  obtain ⟨hstate, hh, -⟩ := connectionTasks_frame h₁
  obtain ⟨hstays, htasks⟩ := stays_iff (attached_iff.1 ha) (hm.ready ha) h₁
  rw [hstays]
  refine forall_congr' fun hstay => ?_
  obtain ⟨-, htaken, hconn⟩ := htasks hstay
  rw [hm.agrees_attached h₁ h₂ ha (hstays.2 hstay), hstate, hh, timeout, not_lt,
    (hm.ours.connectionTasks h₁).2]
  refine and_congr_left' (forall_congr' fun _ => ?_)
  have hempty : m₁.taken = ∅ ↔ ∀ h ∈ m.taken, m.conn.adb.Closes e.transfers h := by
    rw [htaken]
    exact Set.sdiff_eq_empty
  rw [hconn, hempty]

/-- **The step lemma**: an orderly iteration keeps `main` and the layers below linked. -/
theorem linked_step (hm : Linked m) (h : loop.step m e m') (ho : m.Orderly e) : Linked m' := by
  have hagree := (hm.agrees_iff h).2 ho
  obtain ⟨m₁, l, h₁, h₂⟩ := loop_step_iff.1 h
  obtain ⟨hstate, -, -⟩ := connectionTasks_frame h₁
  obtain ⟨hlink, hadb, hconn⟩ := mainSwitch_frame h₂
  have hatt := mainSwitch_attached h₂
  constructor
  case agrees =>
    intro ha'
    rcases Bool.eq_false_or_eq_true m.attached with ha | ha
    · exact hagree ha ha'
    · exact hm.agrees_attach h₁ h₂ ha (hatt ▸ ha')
  case ready =>
    intro ha'
    rw [hadb]
    rcases Bool.eq_false_or_eq_true m.attached with ha | ha
    · exact (hm.tasks_attached h₁ ha (hatt ▸ ha')).2
    · exact (hm.tasks_attach h₁ ha (hatt ▸ ha')).2.2.1
  case reset =>
    intro hconf
    rw [hlink] at hconf
    have ha₁ : m₁.attached = false :=
      Bool.eq_false_iff.2 fun ha => by cases (attached_iff.1 ha).symm.trans hconf
    obtain ⟨hdis, hopen⟩ := hm.tasks_detached h₁ ha₁
    refine ⟨hadb.trans (hdis hconf).1, fun hs' => ?_⟩
    rcases connected_of_mainSwitch h₂ hs' with ⟨hs, hc⟩ | ⟨-, -, ha, -⟩
    · cases (hopen (hstate.symm.trans hs) hc).1.symm.trans (hdis hconf).2
    · cases ha.symm.trans ha₁
  case stale =>
    intro ha' hs'
    have ha₁ : m₁.attached = false := hatt ▸ ha'
    rw [hconn (by rw [hs']; decide)]
    rcases connecting_of_mainSwitch h₂ hs' with ha | hc | ⟨hs, hc, hfull⟩
    · cases ha.symm.trans ha₁
    · exact hc
    · exact absurd hfull ((hm.tasks_detached h₁ ha₁).2 (hstate.symm.trans hs) hc).2
  case ours => exact (hm.ours.connectionTasks h₁).1.mainSwitch h₂

end Loop

open Loop in
/-- **The channel table and the state of `main`.** In every run of the loop, the table agrees with
`main` at the end of every iteration during which the device stays attached, exactly when every
iteration is orderly. -/
theorem channelTable_iff (es : List Env) :
    loop.Always (fun m _ m' => m.attached = true → m'.attached = true → m'.TableAgrees) bootLoop
      es ↔ loop.Always (fun m e _ => m.Orderly e) bootLoop es :=
  Lts.always_iff_always (fun _ _ _ hm h => hm.agrees_iff h) (fun _ _ _ hm h => linked_step hm h)
    linked_bootLoop es

/-! ## A timeout with the channel open -/

/-- The device connects and accepts the channel that `main` has opened. -/
def openRun : List Env :=
  attachRun ++ [connectEnv, briefly started, briefly started,
    briefly ⟨true, some true, true, none⟩,
    briefly (received [0x4f, 0x4b, 0x41, 0x59, 5, 0, 0, 0, 0, 1, 0, 0, 0, 0, 0, 0, 0, 0, 0, 0, 0xb0,
      0xb4, 0xbe, 0xa6])]

/-- 15 s pass without a message, and `main` is about to connect again. -/
def timeoutRun : List Env :=
  [⟨300000000, .quiet, started, false, 0⟩, briefly started, briefly started]

/-- After a timeout with the channel open, the next iteration opens a second channel beside it. -/
theorem channelTable_leaks :
    ¬ loop.Always (fun m _ m' => m.attached = true → m'.attached = true → m'.TableAgrees) bootLoop
      (openRun ++ timeoutRun ++ [briefly started]) := by
  intro h
  have hrun : ((Loop.iterates (openRun ++ timeoutRun) bootLoop).bind fun m =>
      (m.iterate (briefly started)).map fun r => (m.attached, r.2.attached,
        (r.2.conn.adb.channels 0).state, (r.2.conn.adb.channels 1).state)) =
      some (true, true, .waitReady, .start) := by
    decide +kernel
  obtain ⟨m, hm, hlast⟩ := Option.bind_eq_some_iff.1 hrun
  obtain ⟨⟨l, m'⟩, hstep, heq⟩ := Option.map_eq_some_iff.1 hlast
  simp only [Prod.mk.injEq] at heq
  obtain ⟨ha, ha', h0, h1⟩ := heq
  have hagree := h.of_run (Loop.run_of_iterates hm) ⟨l, hstep⟩ ha ha'
  have h0' : (0 : Handle) ∈ m'.taken := by
    rw [Loop.taken, Adb.Layer.mem_taken, h0]
    decide
  have h1' : (1 : Handle) ∈ m'.taken := by
    rw [Loop.taken, Adb.Layer.mem_taken, h1]
    decide
  exact absurd (hagree.1 h0' h1') (by decide)

end TPadFire.Firmware
