import TPadFire.Adb.Channels

/-!
# The connection layer

`ConnectionTasks` of `connection.c`, as far as the ADB interface goes. The USB host is its link to
the Android device: after a detach or a reset it takes at least two calls of `USBHostTasks`, which
advances one state at a time, before an interface is attached again. The accessory interface shares
the device, and an error of its tasks resets it too. Nothing of the Bluetooth stack, nor of the file
transfers that `main` does not begin, touches this state.

`connectionTasks_cases` says what a call can have done.
-/

namespace TPadFire.Adb

/-- How far the USB host has come with the Android device. -/
inductive Link
  | detached
  | configuring
  | running
  deriving DecidableEq, Repr

/-- What a call of `USBHostTasks` sees. -/
inductive UsbEvent
  | quiet
  /-- The next step of attaching a device is done. -/
  | progress
  | detach
  deriving DecidableEq, Repr

/-- `USBHostTasks` -/
def usbHostTasks : UsbEvent → Link → Link
  | .quiet, link => link
  | .progress, .detached => .configuring
  | .progress, .configuring => .running
  | .progress, .running => .running
  | .detach, _ => .detached

/-- `ADB_STATE` -/
inductive AdbState
  | disconnected
  | initializing
  | initialized
  deriving DecidableEq, Repr

/-- The globals of the connection layer, with those of the ADB layer. -/
structure Connection (δ : Type*) where
  link : Link
  adbState : AdbState
  adb : Layer δ

namespace Connection

variable {δ : Type*}

/-- `ADBAttached` -/
def attached (c : Connection δ) : Bool :=
  match c.link with
  | .running => true
  | .detached | .configuring => false

/-- `USBHostAndroidReset` -/
def androidReset (c : Connection δ) : Connection δ := { c with link := .detached }

/-- `ConnADBTasks` -/
def connADBTasks (t : Transfers) (c : Connection δ) (d : δ) : Option (Connection δ × δ) :=
  if c.attached then
    match c.adbState with
    | .disconnected => some ({ c with adb := c.adb.init, adbState := .initializing }, d)
    | .initializing | .initialized =>
      (c.adb.tasks c.attached t d).map fun (res, adb, d) =>
        let c := { c with adb := adb }
        if res = -1 then (c.androidReset, d)
        else if res = 1 then ({ c with adbState := .initialized }, d)
        else if res = 0 then ({ c with adbState := .initializing }, d)
        else (c, d)
  else some ({ c with adbState := .disconnected }, d)

/-- `ConnAccessoryTasks`, given whether the accessory's tasks fail. -/
def connAccessoryTasks (fails : Bool) (c : Connection δ) : Connection δ :=
  if fails ∧ c.attached then c.androidReset else c

/-- `ConnectionTasks` -/
def connectionTasks (usb : UsbEvent) (t : Transfers) (fails : Bool) (c : Connection δ) (d : δ) :
    Option (Connection δ × δ) :=
  (connADBTasks t { c with link := usbHostTasks usb c.link } d).map fun r =>
    (r.1.connAccessoryTasks fails, r.2)

theorem attached_iff {c : Connection δ} : c.attached = true ↔ c.link = .running := by
  unfold attached
  split <;> simp_all

/-- A device that is attached stays so unless it is detached. -/
theorem usbHostTasks_running_iff {usb : UsbEvent} {c : Connection δ}
    (hlink : c.link = .running) :
    usbHostTasks usb c.link = .running ↔ usb ≠ .detach := by
  rw [hlink]
  cases usb with
  | quiet | progress => exact iff_of_true rfl UsbEvent.noConfusion
  | detach => exact iff_of_false Link.noConfusion fun h => h rfl

/-- A device that was attached and still is has been so for the whole call. -/
theorem usbHostTasks_eq_running {usb : UsbEvent} {link : Link}
    (h : usbHostTasks usb link = .running) : link = .running ∨ link = .configuring := by
  cases usb <;> cases link <;> simp_all [usbHostTasks]

/-- A link that is being set up was not up. -/
theorem usbHostTasks_eq_configuring {usb : UsbEvent} {link : Link}
    (h : usbHostTasks usb link = .configuring) : link ≠ .running := by
  cases usb <;> cases link <;> simp_all [usbHostTasks]

theorem connAccessoryTasks_cases (fails : Bool) (c : Connection δ) :
    c.connAccessoryTasks fails = c ∨
      (c.link = .running ∧ c.connAccessoryTasks fails = { c with link := .detached }) := by
  unfold connAccessoryTasks
  split_ifs with h
  · exact .inr ⟨attached_iff.1 h.2, rfl⟩
  · exact .inl rfl

theorem connAccessoryTasks_false (c : Connection δ) : c.connAccessoryTasks false = c :=
  if_neg fun h => Bool.false_ne_true h.1

theorem adb_connAccessoryTasks (fails : Bool) (c : Connection δ) :
    (c.connAccessoryTasks fails).adb = c.adb := by
  rcases connAccessoryTasks_cases fails c with heq | ⟨-, heq⟩
  · rw [heq]
  · rw [heq]

theorem adbState_connAccessoryTasks (fails : Bool) (c : Connection δ) :
    (c.connAccessoryTasks fails).adbState = c.adbState := by
  rcases connAccessoryTasks_cases fails c with heq | ⟨-, heq⟩
  · rw [heq]
  · rw [heq]

/-- **What a call of `ConnADBTasks` does**: with no device it takes note of that; with a new one it
initialises the ADB layer; else the layer does its tasks, and the device is reset if they fail. -/
theorem connADBTasks_cases {t : Transfers} {c c' : Connection δ} {d d' : δ}
    (h : c.connADBTasks t d = some (c', d')) :
    (c.link ≠ .running ∧ c' = { c with adbState := .disconnected } ∧ d' = d) ∨
    (c.link = .running ∧ c.adbState = .disconnected ∧
      c' = { c with adb := c.adb.init, adbState := .initializing } ∧ d' = d) ∨
    (c.link = .running ∧ c.adbState ≠ .disconnected ∧ c'.adbState ≠ .disconnected ∧
      ∃ r, c.adb.tasks true t d = some (r, c'.adb, d') ∧
        c'.link = if r = -1 then .detached else .running) := by
  unfold connADBTasks at h
  by_cases hl : c.link = .running
  · rw [if_pos (attached_iff.2 hl), attached_iff.2 hl] at h
    cases hs : c.adbState with
    | disconnected =>
      simp only [hs] at h
      obtain ⟨rfl, rfl⟩ := Prod.mk.inj (Option.some.inj h)
      exact .inr (.inl ⟨hl, rfl, rfl, rfl⟩)
    | initializing | initialized =>
      simp only [hs] at h
      obtain ⟨⟨r, a, d₁⟩, htasks, hres⟩ := Option.map_eq_some_iff.1 h
      refine .inr (.inr ⟨hl, AdbState.noConfusion, ?_⟩)
      dsimp only at hres
      split_ifs at hres with hfail
      all_goals
        obtain ⟨rfl, rfl⟩ := Prod.mk.inj hres
        refine ⟨AdbState.noConfusion, r, htasks, ?_⟩
      · exact (if_pos hfail).symm
      all_goals exact hl.trans (if_neg hfail).symm
  · rw [if_neg fun hatt => hl (attached_iff.1 hatt)] at h
    obtain ⟨rfl, rfl⟩ := Prod.mk.inj (Option.some.inj h)
    exact .inl ⟨hl, rfl, rfl⟩

/-- **What a call of `ConnectionTasks` can have done**: with no device it leaves the ADB layer
alone; with a new one it initialises it; else the layer has done its tasks, and the device is still
attached or has been reset. -/
theorem connectionTasks_cases {usb : UsbEvent} {t : Transfers} {fails : Bool}
    {c c' : Connection δ} {d d' : δ} (h : c.connectionTasks usb t fails d = some (c', d')) :
    (c'.link = usbHostTasks usb c.link ∧ c'.link ≠ .running ∧ c'.adbState = .disconnected ∧
      c'.adb = c.adb) ∨
    (usbHostTasks usb c.link = .running ∧ (c'.link = .running ∨ c'.link = .detached) ∧
      ((c.adbState = .disconnected ∧ c'.adbState = .initializing ∧ c'.adb = c.adb.init) ∨
      (c.adbState ≠ .disconnected ∧ c'.adbState ≠ .disconnected ∧
        (c'.adb.taken = c.adb.taken \ {h | c.adb.Closes t h} ∨
          (c'.link = .detached ∧ c'.adb.connected = false))))) := by
  obtain ⟨⟨c₁, d₁⟩, hadb, hc⟩ := Option.map_eq_some_iff.1 h
  obtain ⟨rfl, -⟩ := Prod.mk.inj hc
  dsimp only
  rw [adb_connAccessoryTasks, adbState_connAccessoryTasks]
  have hlink : c₁.link = .running ∨ c₁.link = .detached →
      (c₁.connAccessoryTasks fails).link = .running ∨
        (c₁.connAccessoryTasks fails).link = .detached := by
    intro h₁
    rcases connAccessoryTasks_cases fails c₁ with heq | ⟨-, heq⟩ <;> rw [heq]
    · exact h₁
    · exact .inr rfl
  rcases connADBTasks_cases hadb with ⟨hl, rfl, -⟩ | ⟨hl, hs, rfl, -⟩ | ⟨hl, hs, hs', r, htasks, hr⟩
  · left
    rcases connAccessoryTasks_cases fails
      { c with link := usbHostTasks usb c.link, adbState := .disconnected } with heq | ⟨hrun, -⟩
    · rw [heq]
      exact ⟨rfl, hl, rfl, rfl⟩
    · exact absurd hrun hl
  · exact .inr ⟨hl, hlink (.inl hl), .inl ⟨hs, rfl, rfl⟩⟩
  · right
    rcases Layer.taken_tasks htasks with ⟨rfl, hconn⟩ | ⟨hne, htaken⟩
    · rw [if_pos rfl] at hr
      refine ⟨hl, hlink (.inr hr), .inr ⟨hs, hs', .inr ⟨?_, hconn⟩⟩⟩
      rcases connAccessoryTasks_cases fails c₁ with heq | ⟨-, heq⟩ <;> rw [heq]
      exact hr
    · rw [if_neg hne] at hr
      exact ⟨hl, hlink (.inl hr), .inr ⟨hs, hs', .inl htaken⟩⟩

end Connection

end TPadFire.Adb
