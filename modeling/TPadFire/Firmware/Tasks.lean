import TPadFire.Adb.Outcome
import TPadFire.Firmware.Main

/-!
# The tasks of an iteration

What `main` finds when it comes to its switch, `ConnectionTasks` has left: whether the device is
still attached (`Loop.Stays`) and what the core timer has counted to (`Loop.counted`) are decided by
the state before the iteration and what happens in it. The timer is set to zero if one of the
packets that are handled is a keep-alive message, which is read off the calls that the ADB layer
makes of `ADBCallback`.
-/

namespace TPadFire.Firmware

open Adb (Notice)

/-! ## The callbacks -/

/-- `ADBCallback` is called with a keep-alive message. -/
def isAlive (n : Notice) : Bool :=
  match n.data with
  | some (data, dataLen) => 1 ≤ dataLen ∧ dataLen ≤ 5 ∧ data 0 = commandAlive
  | none => false

/-- The entry of the channel table calls `ADBCallback`, or nothing. -/
def Ours (c : Adb.Channel Device) : Prop := ∀ f, c.recvFunc = some f → f = callback

theorem ours_change {c c' : Adb.Channel Device} (h : Adb.Change c c') (hc : Ours c) : Ours c' := by
  unfold Ours at hc ⊢
  cases h with
  | sent _ => rwa [Adb.Channel.recvFunc_sent]
  | okay arg0 =>
    unfold Adb.Layer.okayChannel
    split_ifs
    · exact hc
    · exact hc
    · exact hc
  | acked => exact hc
  | freed => exact hc
  | cleared => exact fun f hf => by cases hf

/-- A keep-alive message sets the core timer to zero, and any other leaves it alone. -/
theorem coreTimer_adbCallback {data : RecvBuffer} {n : ℕ} {d d' : Device}
    (h : adbCallback data n d = .returned d') :
    d'.coreTimer = if 1 ≤ n ∧ n ≤ 5 ∧ data 0 = commandAlive then 0 else d.coreTimer := by
  rcases adbCallback_cases h with ⟨h5, -, rfl⟩ | ⟨-, -, hid, z, -, -, rfl⟩ | ⟨-, -, hid, rfl⟩ |
    ⟨h1, h5, hid, rfl⟩ | ⟨-, hnot, rfl⟩
  · rw [if_neg fun h => by omega]
    obtain ⟨t, m, e, ht⟩ := handleTexture_frame (rawData data) (n - 1) d
    rw [ht]
  · rw [if_neg fun h => absurd (hid.symm.trans h.2.2) (by decide)]
  · rw [if_neg fun h => absurd (hid.symm.trans h.2.2) (by decide), handleMag_eq]
  · rw [if_pos ⟨h1, h5, hid⟩]
    rfl
  · rw [if_neg fun h => hnot ⟨h.1, h.2.1, .inr (.inr h.2.2)⟩]

theorem coreTimer_notify {a : Adb.Layer Device} (ha : ∀ h, Ours (a.channels h)) {n : Notice}
    {d d' : Device} (h : a.notify d n = some d') :
    d'.coreTimer = if isAlive n then 0 else d.coreTimer := by
  obtain ⟨f, hf, hcall⟩ := Option.bind_eq_some_iff.1 h
  rw [ha n.handle f hf] at hcall
  unfold callback at hcall
  unfold isAlive
  cases hdata : n.data with
  | none =>
    simp only [hdata, Option.map_none, Option.getD_none, Nat.zero_lt_one, if_true,
      Option.some.injEq] at hcall
    rw [hcall]
    rfl
  | some r =>
    simp only [hdata, Option.map_some, Option.getD_some] at hcall
    cases hout : adbCallback r.1 r.2 d with
    | returned d₁ =>
      rw [hout] at hcall
      obtain rfl := Option.some.inj hcall
      rw [coreTimer_adbCallback hout]
      simp only [decide_eq_true_eq]
    | trapped d₁ =>
      rw [hout] at hcall
      cases hcall

/-- The callbacks of a call of `ADBTasks`. -/
theorem coreTimer_notifyAll {a : Adb.Layer Device} (ha : ∀ h, Ours (a.channels h))
    {ns : List Notice} {d d' : Device} (h : a.notifyAll ns d = some d') :
    d'.coreTimer = if ns.any isAlive then 0 else d.coreTimer := by
  induction ns generalizing d with
  | nil =>
    obtain rfl := Option.some.inj h
    rfl
  | cons n ns ih =>
    unfold Adb.Layer.notifyAll at h ih
    rw [List.foldlM_cons] at h
    obtain ⟨d₁, h₁, hrest⟩ := Option.bind_eq_some_iff.1 h
    rw [ih hrest, coreTimer_notify ha h₁, List.any_cons]
    cases isAlive n <;> cases ns.any isAlive <;> rfl

/-! ## The tasks -/

theorem ours_adbOpen {a a' : Adb.Layer Device} {h : Adb.Handle}
    (ha : ∀ k, Ours (a.channels k)) (hopen : a.adbOpen channelName callback = (some h, a')) :
    ∀ k, Ours (a'.channels k) := by
  obtain ⟨-, rfl⟩ := Adb.Layer.adbOpen_eq_some hopen
  intro k
  by_cases hk : k = h
  · rw [hk, Adb.Layer.channels_setChannel]
    exact fun f hf => (Option.some.inj hf).symm
  · rw [Adb.Layer.channels_setChannel_of_ne hk]
    exact ha k

namespace Loop

variable {m m' : Loop} {e : Env} {l : List (Call × Loop)}

/-- The device stays attached in the iteration: the USB host does not see it detached, and neither
`ADBTasks` nor the tasks of the accessory interface fail. -/
def Stays (m : Loop) (e : Env) : Prop := m.conn.Stays e.usb e.transfers e.accessoryFails

/-- A keep-alive message is handled in the iteration. -/
def keptAlive (e : Env) (m : Loop) : Bool := (m.conn.notices e.usb e.transfers).any isAlive

/-- What the core timer will have counted to when it is read in the iteration. -/
def counted (e : Env) (m : Loop) : ℕ :=
  ((if m.keptAlive e then 0 else m.dev.coreTimer + e.elapsed) + e.later) % 2 ^ 32

/-- The entries of the channel table call `ADBCallback`, or nothing. -/
def Ours (m : Loop) : Prop := ∀ h, Firmware.Ours (m.conn.adb.channels h)

theorem ours_bootLoop : Ours bootLoop := fun _ _ hf => by cases hf

/-- **What `main` finds** after the tasks with a device attached. -/
theorem stays_iff (hlink : m.conn.link = .running) (hready : m.conn.adbState ≠ .disconnected)
    (hr : m.connectionTasks e = some m') :
    (m'.attached = true ↔ m.Stays e) ∧ (m.Stays e → m'.conn.adbState ≠ .disconnected ∧
      m'.taken = m.taken \ {h | m.conn.adb.Closes e.transfers h} ∧
      (m'.connected = true ↔ m.conn.adb.Connects e.transfers)) := by
  obtain ⟨-, -, d, d', hc⟩ := connectionTasks_frame hr
  obtain ⟨hstays, htasks⟩ := Adb.Connection.stays_iff hlink hready hc
  exact ⟨Adb.Connection.attached_iff.trans hstays, htasks⟩

/-- The layers below have seen a device that is attached after the tasks. -/
theorem ready_of_attached (hr : m.connectionTasks e = some m') (hatt : m'.attached = true) :
    m'.conn.adbState ≠ .disconnected := by
  obtain ⟨-, -, d, d', hc⟩ := connectionTasks_frame hr
  have hlink := Adb.Connection.attached_iff.1 hatt
  rcases Adb.Connection.connectionTasks_cases hc with ⟨-, hne, -⟩ | ⟨-, -, ⟨-, hs, -⟩ | ⟨-, hs, -⟩⟩
  · exact absurd hlink hne
  · rw [hs]
    exact Adb.AdbState.noConfusion
  · exact hs

/-- The tasks open no channel. -/
theorem taken_eq_empty_connectionTasks (hm : m.taken = ∅) (hr : m.connectionTasks e = some m') :
    m'.taken = ∅ := by
  obtain ⟨-, -, d, d', hc⟩ := connectionTasks_frame hr
  have hfree (h : Adb.Handle) : (m.conn.adb.channels h).state = .free :=
    not_not.1 (Set.eq_empty_iff_forall_notMem.1 hm h)
  have hkept (c c' : Adb.Channel Device) (hchange : Adb.Change c c') (hf : c.state = .free) :
      c'.state = .free := by
    cases hchange with
    | sent hne => exact absurd hf hne
    | okay arg0 => exact (Adb.Layer.okayChannel_free arg0 c).2 hf
    | acked => exact hf
    | freed | cleared => rfl
  exact Set.eq_empty_iff_forall_notMem.2 fun h hne =>
    hne ((Adb.Connection.connectionTasks_notices hkept hfree hc).2 h)

/-- The core timer when `ConnectionTasks` has ended and time has passed. -/
theorem Ours.connectionTasks (hm : m.Ours) (hr : m.connectionTasks e = some m') :
    m'.Ours ∧ m'.dev.coreTimer = m.counted e := by
  obtain ⟨⟨c, d⟩, hc, rfl⟩ := Option.map_eq_some_iff.1 hr
  obtain ⟨hnotify, hours⟩ :=
    Adb.Connection.connectionTasks_notices (fun _ _ => ours_change) hm hc
  refine ⟨hours, ?_⟩
  have htimer := coreTimer_notifyAll hm hnotify
  unfold countOn counted keptAlive
  dsimp only
  rw [htimer]
  split_ifs
  · rfl
  · unfold countOn
    dsimp only
    omega

theorem Ours.mainSwitch (hm : m.Ours) (hs : m.mainSwitch = some (l, m')) : m'.Ours := by
  cases switched hs with
  | init | attach | wait | connect | full | gone | expires | stays => exact hm
  | @opens _ _ h a hopen =>
    intro k
    have hk := ours_adbOpen hm hopen k
    unfold Adb.Layer.adbWrite
    by_cases heq : k = h
    · subst heq
      rw [Adb.Layer.channels_setChannel]
      exact hk
    · rw [Adb.Layer.channels_setChannel_of_ne heq]
      exact hk

end Loop

end TPadFire.Firmware
