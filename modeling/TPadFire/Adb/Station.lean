import TPadFire.Adb.Connection
import TPadFire.Adb.Driver
import TPadFire.Adb.Handshake

/-!
# The connection layer on the driver

`ConnectionTasks` with all that it runs: the USB host, whose steps are inputs (`HostEvent`), the
driver, the tasks of ADB and those of the accessory interface of `accessory.c`. A channel of the
accessory interface is opened by a program that wants one; `main` does not.

`Station.connection` forgets the driver and the accessory interface. What is left is the connection
layer of `TPadFire.Adb.Connection`, with what the driver tells it as the transfers and with what the
accessory interface does to the device as its failures; and the driver is asked for nothing that it
has to refuse (`Sound.connectionTasks`).
-/

namespace TPadFire.Adb

open Firmware (Byte)

/-! ## The accessory interface -/

/-- `CHANNEL_STATE` -/
inductive ChannelState
  | init
  | waitOpen
  | opened
  | waitClosed
  deriving DecidableEq, Repr

variable {δ : Type*}

/-- The globals of `accessory.c`. -/
structure Accessory (δ : Type*) where
  channelState : ChannelState
  isChannelOpen : Bool
  /-- The callback, with the data or a null pointer, if it is not `DummyCallback`. -/
  callback : Option (Option (List Byte) → δ → Option δ)

namespace Accessory

/-- The callback is called. -/
def call (data : Option (List Byte)) (x : Accessory δ) (d : δ) : Option δ :=
  match x.callback with
  | some f => f data d
  | none => some d

/-- `AccessoryInit` -/
def init (x : Accessory δ) : Accessory δ := { x with isChannelOpen := false, channelState := .init }

/-- `AccessoryShutdown` -/
def shutdown (x : Accessory δ) : Accessory δ := { x with callback := none }

/-- `AccessoryTasks`, with its calls of the driver and what it returns. -/
def tasks (u : Bus) (x : Accessory δ) (g : AndroidDevice) (d : δ) :
    Option (List Call × ℤ × Accessory δ × AndroidDevice × δ) :=
  match x.channelState with
  | .init =>
    some ([.read (g.interfaces .acc)], 0, { x with channelState := .waitOpen },
      (g.read (u.read .acc) .acc).2, d)
  | .waitOpen =>
    match g.rxIsComplete .acc with
    | none => some ([], 0, x, g, d)
    | some (code, _) =>
      if code ≠ usbSuccess then some ([], -1, x, g, d)
      else
        let g' := (g.write (u.write .acc) .acc).2
        if x.isChannelOpen then
          some ([.write (g.interfaces .acc), .read (g'.interfaces .acc)], 0,
            { x with channelState := .opened }, (g'.read (u.read .acc) .acc).2, d)
        else some ([.write (g.interfaces .acc)], 0, { x with channelState := .waitClosed }, g', d)
  | .opened =>
    match g.rxIsComplete .acc with
    | none => some ([], 0, x, g, d)
    | some (code, l) =>
      if code ≠ usbSuccess then some ([], -1, x, g, d)
      else
        (if l = [] then some d else x.call (some l) d).map fun d =>
          ([.read (g.interfaces .acc)], 0, x, (g.read (u.read .acc) .acc).2, d)
  | .waitClosed =>
    match g.txIsComplete .acc with
    | none => some ([], 0, x, g, d)
    | some code =>
      if code ≠ usbSuccess then some ([], -1, x, g, d)
      else (x.call none d).map fun d => ([], 1, { x with channelState := .init }, g, d)

end Accessory

/-! ## The connection layer -/

/-- The state of the USB host. -/
inductive UsbHost
  | detached
  | configuring
  /-- The drivers have been initialised. -/
  | running
  deriving DecidableEq, Repr

/-- What `USBHostTasks` does. -/
inductive HostEvent
  | quiet
  /-- A device has been found. -/
  | progress
  /-- The interfaces for ADB, with these endpoints, are given to `USBHostAndroidInitInterface`. -/
  | initInterfaces (endpoints : List (List Byte))
  /-- A device with these interfaces is given to `USBHostAndroidInitDevice`. -/
  | initDevice (interfaces : List (InterfaceId × List Byte))
  | detach

/-- `USB_SINGLE_DEVICE_ADDRESS` -/
def usbSingleDeviceAddress : Byte := 0x01

/-- `ACC_STATE` -/
inductive AccState
  | disconnected
  | initializing
  | initialized
  deriving DecidableEq, Repr

/-- The globals of the connection layer and of the layers below it. -/
structure Station (δ : Type*) where
  host : UsbHost
  dev : AndroidDevice
  adbState : AdbState
  accState : AccState
  adb : Layer δ
  acc : Accessory δ

namespace Station

/-- `USBHostAndroidIsInterfaceAttached` -/
def attached (i : InterfaceId) (s : Station δ) : Bool := (s.dev.interfaces i).initialized

/-- `USBHostTasks`, as far as the driver for Android goes. -/
def usbHostTasks (e : HostEvent) (s : Station δ) : Station δ :=
  match e with
  | .quiet => s
  | .progress => if s.host = .detached then { s with host := .configuring } else s
  | .initInterfaces endpoints =>
    if s.host = .configuring then
      { s with
        host := .running
        dev := endpoints.foldl
          (fun g l => (g.initInterface usbSingleDeviceAddress .adb l).getD g) s.dev }
    else s
  | .initDevice interfaces =>
    if s.host = .configuring then
      { s with
        host := .running
        dev := AndroidDevice.initDevice usbSingleDeviceAddress interfaces }
    else s
  | .detach =>
    { s with
      host := .detached
      dev := if s.host = .running then s.dev.detach usbSingleDeviceAddress else s.dev }

/-- `USBHostAndroidReset` -/
def androidReset (s : Station δ) : Station δ := { s with host := .detached, dev := .zero }

/-- `ADBTasks`, with its calls of the driver: those of `ADBPacketTasks`, which comes before all else
if the layer knows a device and it is attached. -/
def adbTasks (u : Bus) (s : Station δ) (d : δ) : Option (List Call × ℤ × Station δ × δ) :=
  (s.adb.tasks (s.attached .adb) (s.dev.transfers u) d).map fun (res, adb, d) =>
    if (s.adb.connState = .waitConnect ∨ s.adb.connState = .connected) ∧ s.attached .adb then
      let p := s.adb.packet.tasksOn u s.dev
      (p.1, res, { s with adb := adb, dev := p.2.2 }, d)
    else ([], res, { s with adb := adb }, d)

/-- `ConnADBTasks` -/
def connADBTasks (u : Bus) (s : Station δ) (d : δ) : Option (List Call × Station δ × δ) :=
  if s.attached .adb then
    match s.adbState with
    | .disconnected => some ([], { s with adb := s.adb.init, adbState := .initializing }, d)
    | .initializing | .initialized =>
      (s.adbTasks u d).map fun (l, res, s, d) =>
        if res = -1 then (l ++ [.reset s.dev.deviceAddress], s.androidReset, d)
        else if res = 1 then (l, { s with adbState := .initialized }, d)
        else if res = 0 then (l, { s with adbState := .initializing }, d)
        else (l, s, d)
  else some ([], { s with adbState := .disconnected }, d)

/-- `AccessoryTasks`, with its calls of the driver. -/
def accessoryTasks (u : Bus) (s : Station δ) (d : δ) : Option (List Call × ℤ × Station δ × δ) :=
  (s.acc.tasks u s.dev d).map fun (l, res, acc, dev, d) =>
    (l, res, { s with acc := acc, dev := dev }, d)

/-- `ConnAccessoryTasks` -/
def connAccessoryTasks (u : Bus) (s : Station δ) (d : δ) : Option (List Call × Station δ × δ) :=
  match s.accState with
  | .disconnected =>
    some ([],
      if s.attached .acc then { s with acc := s.acc.init, accState := .initializing } else s, d)
  | .initializing | .initialized =>
    if s.attached .acc then
      (s.accessoryTasks u d).map fun (l, res, s, d) =>
        if res = -1 then (l ++ [.reset s.dev.deviceAddress], s.androidReset, d)
        else (l, { s with accState := if res = 0 then .initializing else .initialized }, d)
    else some ([], { s with acc := s.acc.shutdown, accState := .disconnected }, d)

/-- `ConnectionTasks`, with its calls of the driver. -/
def connectionTasks (e : HostEvent) (u : Bus) (s : Station δ) (d : δ) :
    Option (List Call × Station δ × δ) :=
  let s := s.usbHostTasks e
  let s := { s with dev := s.dev.tasks u }
  (s.connADBTasks u d).bind fun (l, s, d) =>
    (s.connAccessoryTasks u d).map fun (l', s, d) => (l ++ l', s, d)

/-- How far the USB host has come with the ADB interface. -/
def link (s : Station δ) : Link :=
  if s.attached .adb then .running
  else
    match s.host with
    | .detached => .detached
    | .configuring | .running => .configuring

/-- The connection layer without the driver. -/
def connection (s : Station δ) : Connection δ := ⟨s.link, s.adbState, s.adb⟩

end Station

/-! ## Forgetting the driver -/

/-- What is asked of the driver for the accessory interface is asked for when it is due. -/
def Accessory.Awaits (x : Accessory δ) (i : Interface) : Prop :=
  match x.channelState with
  | .init => i.txBusy = false ∧ i.rxBusy = false
  | .waitOpen => i.txBusy = false
  | .waitClosed => i.rxBusy = false
  | .opened => True

namespace Station

variable {s s' : Station δ} {d d' : δ} {u : Bus} {e : HostEvent} {l : List Call}

/-- What is under way on the ADB interface is what the layer waits for. -/
structure Ready (s : Station δ) : Prop where
  still : s.adbState = .disconnected ∨ s.adb.connState = .waitAttach →
    (s.dev.interfaces .adb).txBusy = false ∧ (s.dev.interfaces .adb).rxBusy = false
  awaits : s.adbState ≠ .disconnected → s.adb.connState ≠ .waitAttach →
    s.adb.connState ≠ .error → s.adb.packet.Awaits (s.dev.interfaces .adb)

/-- The driver agrees with the USB host and with those who use it, and no program has opened a
channel of the accessory interface. -/
structure Fits (s : Station δ) : Prop where
  zero : s.host ≠ .running → s.dev = .zero
  address : s.dev = .zero ∨ s.dev.deviceAddress = usbSingleDeviceAddress
  adb : s.attached .adb = true → s.Ready
  acc : s.attached .acc = true →
    if s.accState = .disconnected then
      (s.dev.interfaces .acc).txBusy = false ∧ (s.dev.interfaces .acc).rxBusy = false
    else s.acc.Awaits (s.dev.interfaces .acc)
  unopened : s.acc.isChannelOpen = false ∧ s.acc.channelState ≠ .opened ∧ s.acc.callback = none

/-- Between two calls of `ConnectionTasks`, those who use a device have given up the last one before
the next one is there. -/
structure Sound (s : Station δ) : Prop extends s.Fits where
  fresh : s.host = .configuring → s.adbState = .disconnected ∧ s.accState = .disconnected

theorem attached_zero {i : InterfaceId} (h : s.dev = .zero) : s.attached i = false := by
  unfold attached
  rw [h]
  rfl

/-- No transfer is under way. -/
def Quiet (g : AndroidDevice) : Prop :=
  ∀ i, (g.interfaces i).txBusy = false ∧ (g.interfaces i).rxBusy = false

/-- A device whose drivers are being initialised. -/
structure Starting (g : AndroidDevice) : Prop where
  quiet : Quiet g
  address : g = .zero ∨ g.deviceAddress = usbSingleDeviceAddress

theorem starting_zero : Starting .zero := ⟨fun _ => ⟨rfl, rfl⟩, .inl rfl⟩

theorem Starting.initInterface {g g' : AndroidDevice} (hg : Starting g) {i : InterfaceId}
    {endpoints : List Byte}
    (h : g.initInterface usbSingleDeviceAddress i endpoints = some g') : Starting g' := by
  obtain ⟨x, y, rfl⟩ : ∃ x y, g' = { g.set i { g.interfaces i with
      inEndpoint := x, outEndpoint := y, initialized := true }
      with deviceAddress := usbSingleDeviceAddress } := by
    unfold AndroidDevice.initInterface at h
    dsimp only at h
    split at h
    · split_ifs at h
      · exact ⟨_, _, (Option.some.inj h).symm⟩
      · exact ⟨_, _, (Option.some.inj h).symm⟩
    · cases h
  refine ⟨fun j => ?_, .inr rfl⟩
  by_cases hj : j = i
  · subst hj
    rw [show ({ g.set j _ with deviceAddress := usbSingleDeviceAddress } :
      AndroidDevice).interfaces j = _ from AndroidDevice.interfaces_set j _ g]
    exact hg.quiet j
  · rw [show ({ g.set i _ with deviceAddress := usbSingleDeviceAddress } :
      AndroidDevice).interfaces j = _ from AndroidDevice.interfaces_set_of_ne hj _ g]
    exact hg.quiet j

/-- The drivers are initialised, one after another. -/
theorem Starting.foldl {α : Type*} {f : AndroidDevice → α → Option AndroidDevice}
    (hf : ∀ g a g', Starting g → f g a = some g' → Starting g') (as : List α) {g : AndroidDevice}
    (hg : Starting g) : Starting (as.foldl (fun g a => (f g a).getD g) g) := by
  induction as generalizing g with
  | nil => exact hg
  | cons a as ih =>
    refine ih ?_
    dsimp only
    cases h : f g a with
    | none => exact hg
    | some g' => exact hf g a g' hg h

/-- The host has found a device for the driver. -/
theorem Sound.start (hs : s.Sound) (hhost : s.host = .configuring) {g : AndroidDevice}
    (hg : Starting g) : ({ s with host := .running, dev := g } : Station δ).Fits where
  zero h := absurd rfl h
  address := hg.address
  adb _ := ⟨fun _ => hg.quiet .adb, fun h => absurd (hs.fresh hhost).1 h⟩
  acc _ := by
    dsimp only
    rw [if_pos (hs.fresh hhost).2]
    exact hg.quiet .acc
  unopened := hs.unopened

/-- No device is there. -/
theorem Fits.of_zero (hs : s.Fits) (hzero : s'.dev = .zero) (hacc : s'.acc = s.acc) : s'.Fits where
  zero _ := hzero
  address := .inl hzero
  adb h := absurd h (by rw [attached_zero hzero]; exact Bool.false_ne_true)
  acc h := absurd h (by rw [attached_zero hzero]; exact Bool.false_ne_true)
  unopened := hacc ▸ hs.unopened

/-- **A step of the USB host** is one of the link. -/
theorem Sound.usbHostTasks (hs : s.Sound) (e : HostEvent) :
    (s.usbHostTasks e).Fits ∧ (s.usbHostTasks e).adbState = s.adbState ∧
      (s.usbHostTasks e).adb = s.adb ∧
      ∃ usb, Adb.usbHostTasks usb s.link = (s.usbHostTasks e).link := by
  have hlink (hhost : s.host = .configuring) : s.link = .configuring := by
    have hzero : s.dev = .zero := hs.zero (by rw [hhost]; decide)
    unfold link
    rw [attached_zero hzero, if_neg Bool.false_ne_true, hhost]
  -- the drivers have been initialised, and one of them is that of the ADB interface or none is
  have hstart (hhost : s.host = .configuring) (g : AndroidDevice) :
      ∃ usb, Adb.usbHostTasks usb s.link =
        ({ s with host := .running, dev := g } : Station δ).link := by
    rw [hlink hhost]
    unfold link
    split_ifs
    · exact ⟨.progress, rfl⟩
    · exact ⟨.quiet, rfl⟩
  unfold Station.usbHostTasks
  cases e with
  | quiet => exact ⟨hs.toFits, rfl, rfl, .quiet, rfl⟩
  | progress =>
    dsimp only
    split_ifs with hhost
    · have hzero : s.dev = .zero := hs.zero (by rw [hhost]; decide)
      refine ⟨hs.toFits.of_zero hzero rfl, rfl, rfl, .progress, ?_⟩
      unfold link attached
      rw [hhost, hzero]
      rfl
    · exact ⟨hs.toFits, rfl, rfl, .quiet, rfl⟩
  | initInterfaces endpoints =>
    dsimp only
    split_ifs with hhost
    · have hzero : s.dev = .zero := hs.zero (by rw [hhost]; decide)
      have hstarting : Starting s.dev := hzero ▸ starting_zero
      exact ⟨hs.start hhost (hstarting.foldl (fun g a g' hg h => hg.initInterface h) endpoints),
        rfl, rfl, hstart hhost _⟩
    · exact ⟨hs.toFits, rfl, rfl, .quiet, rfl⟩
  | initDevice interfaces =>
    dsimp only
    split_ifs with hhost
    · exact ⟨hs.start hhost
        (starting_zero.foldl (fun g a g' hg h => hg.initInterface h) interfaces), rfl, rfl,
        hstart hhost _⟩
    · exact ⟨hs.toFits, rfl, rfl, .quiet, rfl⟩
  | detach =>
    dsimp only
    have hdev : (if s.host = .running then s.dev.detach usbSingleDeviceAddress else s.dev) =
        .zero := by
      split_ifs with hhost
      · unfold AndroidDevice.detach
        rcases hs.address with hzero | haddress
        · rw [hzero, ite_self]
        · rw [haddress, if_neg (not_not_intro rfl)]
      · exact hs.zero hhost
    rw [hdev]
    refine ⟨hs.toFits.of_zero rfl rfl, rfl, rfl, .detach, ?_⟩
    unfold link attached
    rfl

/-! ### The driver asks for its transfers -/

theorem poll_frame (rx : Option (Byte × List Byte)) (tx : Option Byte) (i : Interface) :
    (i.poll rx tx).initialized = i.initialized ∧
      ((i.poll rx tx).txBusy = true → i.txBusy = true) ∧
      ((i.poll rx tx).rxBusy = true → i.rxBusy = true) := by
  unfold Interface.poll
  cases hrx : i.rxBusy <;> cases htx : i.txBusy <;> cases rx <;> cases tx <;> simp_all

/-- The driver starts no transfer by itself. -/
theorem tasks_frame (u : Bus) (g : AndroidDevice) (i : InterfaceId) :
    ((g.tasks u).interfaces i).initialized = (g.interfaces i).initialized ∧
      (((g.tasks u).interfaces i).txBusy = true → (g.interfaces i).txBusy = true) ∧
      (((g.tasks u).interfaces i).rxBusy = true → (g.interfaces i).rxBusy = true) := by
  unfold AndroidDevice.tasks
  dsimp only
  split_ifs
  · exact poll_frame ..
  · exact ⟨rfl, id, id⟩

theorem tasks_zero (u : Bus) : AndroidDevice.zero.tasks u = .zero := rfl

/-- An interface with no more under way than another. -/
structure Calmer (i j : Interface) : Prop where
  tx : i.txBusy = true → j.txBusy = true
  rx : i.rxBusy = true → j.rxBusy = true

variable {i j : Interface} {p : Packet}

theorem Calmer.tx_eq_false (h : Calmer i j) (hj : j.txBusy = false) : i.txBusy = false := by
  by_contra hi
  rw [h.tx (by simpa using hi)] at hj
  cases hj

theorem Calmer.rx_eq_false (h : Calmer i j) (hj : j.rxBusy = false) : i.rxBusy = false := by
  by_contra hi
  rw [h.rx (by simpa using hi)] at hj
  cases hj

theorem Calmer.still (h : Calmer i j) (hj : j.txBusy = false ∧ j.rxBusy = false) :
    i.txBusy = false ∧ i.rxBusy = false :=
  ⟨h.tx_eq_false hj.1, h.rx_eq_false hj.2⟩

theorem Calmer.awaits (h : Calmer i j) (hj : p.Awaits j) : p.Awaits i :=
  ⟨fun hi => hj.tx (h.tx hi), fun hi => hj.rx (h.rx hi)⟩

theorem Calmer.accessoryAwaits {x : Accessory δ} (h : Calmer i j) (hj : x.Awaits j) :
    x.Awaits i := by
  unfold Accessory.Awaits at hj ⊢
  cases hstate : x.channelState with
  | init =>
    rw [hstate] at hj
    exact h.still hj
  | waitOpen =>
    rw [hstate] at hj
    exact h.tx_eq_false hj
  | waitClosed =>
    rw [hstate] at hj
    exact h.rx_eq_false hj
  | opened => trivial

/-- **A call of `USBHostAndroidTasks`** shows nothing to the layers above. -/
theorem Fits.tasks (hs : s.Fits) (u : Bus) :
    ({ s with dev := s.dev.tasks u } : Station δ).Fits := by
  have hcalmer (i : InterfaceId) : Calmer ((s.dev.tasks u).interfaces i) (s.dev.interfaces i) :=
    ⟨(tasks_frame u s.dev i).2.1, (tasks_frame u s.dev i).2.2⟩
  have hattached (i : InterfaceId) :
      ({ s with dev := s.dev.tasks u } : Station δ).attached i = s.attached i :=
    (tasks_frame u s.dev i).1
  refine ⟨fun hhost => ?_, ?_, fun hatt => ?_, fun hatt => ?_, hs.unopened⟩
  · dsimp only
    rw [hs.zero hhost, tasks_zero]
  · refine hs.address.imp_left fun hzero => ?_
    dsimp only
    rw [hzero, tasks_zero]
  · have hready := hs.adb (hattached .adb ▸ hatt)
    exact ⟨fun h => (hcalmer .adb).still (hready.still h),
      fun h1 h2 h3 => (hcalmer .adb).awaits (hready.awaits h1 h2 h3)⟩
  · have hacc := hs.acc (hattached .acc ▸ hatt)
    dsimp only
    split_ifs at hacc ⊢ with hstate
    · exact (hcalmer .acc).still hacc
    · exact (hcalmer .acc).accessoryAwaits hacc

theorem link_tasks (u : Bus) (s : Station δ) :
    ({ s with dev := s.dev.tasks u } : Station δ).link = s.link := by
  unfold link attached
  dsimp only
  rw [(tasks_frame u s.dev .adb).1]

/-! ### The tasks of ADB -/

theorem awaits_recv (hp : p.Awaits i) (hs : p.recvStatus ≠ .busy) : p.recv.Awaits i := by
  refine ⟨hp.tx, fun hi => ?_⟩
  unfold Packet.recvStatus at hs
  rcases hp.rx hi with hstate | hstate
  · rw [hstate] at hs
    exact absurd rfl hs
  · rw [hstate] at hs
    exact absurd rfl hs

theorem awaits_send (hp : p.Awaits i) (hs : p.sendStatus = .ok) (cmd arg0 arg1 : UInt32)
    (data : List Byte) : (p.send cmd arg0 arg1 data).Awaits i := by
  refine ⟨fun hi => ?_, hp.rx⟩
  unfold Packet.sendStatus at hs
  rcases hp.tx hi with hstate | hstate
  · rw [hstate] at hs
    cases hs
  · rw [hstate] at hs
    cases hs

theorem awaits_bufferUnref {a : Layer δ} (ha : a.packet.Awaits i)
    (hs : a.packet.recvStatus ≠ .busy) :
    a.bufferUnref.packet.Awaits i ∧ a.bufferUnref.connState = a.connState := by
  unfold Layer.bufferUnref
  dsimp only
  split_ifs
  · exact ⟨ha, rfl⟩
  · exact ⟨awaits_recv ha hs, rfl⟩
  · exact ⟨ha, rfl⟩

theorem awaits_channelTasks {a : Layer δ} (ha : a.packet.Awaits i) :
    a.channelTasks.packet.Awaits i ∧
      (a.channelTasks.connState = a.connState ∨ a.channelTasks.connState = .error) := by
  rcases a.channelTasks_cases with ⟨-, heq⟩ | ⟨-, heq⟩ | ⟨-, -, heq⟩ | ⟨hs, k, m, -, -, heq⟩
  · rw [heq]
    exact ⟨ha, .inl rfl⟩
  · rw [heq]
    exact ⟨ha, .inr rfl⟩
  · rw [heq]
    exact ⟨ha, .inl rfl⟩
  · rw [heq]
    exact ⟨awaits_send ha hs .., .inl rfl⟩

/-- The layer asks for a packet when none is under way. -/
theorem awaits_receiveTasks {a a' : Layer δ} {t : Transfers} (ha : (a.packet.tasks t).Awaits i)
    (hr : a.receiveTasks t d = some (a', d')) :
    a'.packet.Awaits i ∧
      (a'.connState = a.connState ∨ a'.connState = .connected ∨ a'.connState = .error) := by
  unfold Layer.receiveTasks at hr
  dsimp only at hr
  by_cases href : a.bufferRefcount > 0
  · rw [if_pos href] at hr
    cases hst : (a.packet.tasks t).recvStatus with
    | busy =>
      rw [hst] at hr
      obtain ⟨rfl, -⟩ := Prod.mk.inj (Option.some.inj hr)
      exact ⟨ha, .inl rfl⟩
    | error =>
      rw [hst] at hr
      obtain ⟨rfl, -⟩ := Prod.mk.inj (Option.some.inj hr)
      obtain ⟨hawaits, hconn⟩ := awaits_bufferUnref
        (a := { a with packet := a.packet.tasks t, connState := .error }) ha
        (by rw [hst]; exact Result.noConfusion)
      exact ⟨hawaits, .inr (.inr hconn)⟩
    | ok =>
      rw [hst] at hr
      obtain ⟨⟨a₁, d₁⟩, h₁, heq⟩ := Option.map_eq_some_iff.1 hr
      obtain ⟨rfl, -⟩ := Prod.mk.inj heq
      have hpacket := (Layer.handlePacket_frame h₁).1
      obtain ⟨hawaits, hconn⟩ := awaits_bufferUnref (i := i) (a := a₁) (by rwa [hpacket])
        (by rw [hpacket, hst]; exact Result.noConfusion)
      refine ⟨hawaits, ?_⟩
      rw [hconn]
      exact (Layer.connState_handlePacket h₁).imp_right .inl
  · rw [if_neg href] at hr
    obtain ⟨rfl, -⟩ := Prod.mk.inj (Option.some.inj hr)
    exact ⟨ha, .inl rfl⟩

/-- A call of `ADBTasks` that fails has reset the layer; after any other the layer knows the device,
and awaits what is under way. -/
theorem awaits_tasks {a a' : Layer δ} {t : Transfers} {res : ℤ}
    (hconn : a.connState = .waitConnect ∨ a.connState = .connected)
    (ha : (a.packet.tasks t).Awaits i) (hr : a.tasks true t d = some (res, a', d'))
    (hres : res ≠ -1) : a'.packet.Awaits i ∧ a'.connState ≠ .waitAttach := by
  unfold Layer.tasks at hr
  rw [if_pos hconn, if_pos rfl] at hr
  obtain ⟨⟨a₁, d₁⟩, h₁, h₂⟩ := Option.bind_eq_some_iff.1 hr
  obtain ⟨hawaits, hconn₁⟩ := awaits_receiveTasks ha h₁
  unfold Layer.stateTasks at h₂
  dsimp only at h₂
  cases hst : a₁.connState with
  | waitAttach => rcases hconn with h | h <;> simp [hst, h] at hconn₁
  | waitConnect =>
    rw [hst] at h₂
    obtain ⟨-, rfl, -⟩ := (Prod.mk.inj (Option.some.inj h₂)).imp_right Prod.mk.inj
    exact ⟨hawaits, by rw [hst]; exact ConnState.noConfusion⟩
  | connected =>
    rw [hst] at h₂
    obtain ⟨-, rfl, -⟩ := (Prod.mk.inj (Option.some.inj h₂)).imp_right Prod.mk.inj
    obtain ⟨hawaits', hconn'⟩ := awaits_channelTasks hawaits
    refine ⟨hawaits', ?_⟩
    rcases hconn' with h | h
    · rw [h, hst]
      exact ConnState.noConfusion
    · rw [h]
      exact ConnState.noConfusion
  | error =>
    rw [hst] at h₂
    obtain ⟨r, -, heq⟩ := Option.map_eq_some_iff.1 h₂
    exact absurd (Prod.mk.inj heq).1.symm hres

/-- Two states of the driver that differ in the transfers of the interface `i` alone. -/
structure Within (i : InterfaceId) (g g' : AndroidDevice) : Prop where
  address : g'.deviceAddress = g.deviceAddress
  initialized : (g'.interfaces i).initialized = (g.interfaces i).initialized
  others : ∀ j, j ≠ i → g'.interfaces j = g.interfaces j

theorem Within.refl (i : InterfaceId) (g : AndroidDevice) : Within i g g :=
  ⟨rfl, rfl, fun _ _ => rfl⟩

theorem Within.attached {i : InterfaceId} (hw : Within i s.dev s'.dev) (j : InterfaceId) :
    s'.attached j = s.attached j := by
  by_cases hj : j = i
  · subst hj
    exact hw.initialized
  · unfold Station.attached
    rw [hw.others j hj]

theorem within_tasksOn (u : Bus) (p : Packet) (g : AndroidDevice) :
    Within .adb g (p.tasksOn u g).2.2 := by
  obtain ⟨h1, h2, h3⟩ := p.tasksOn_frame u g
  refine ⟨h1, h3, fun j hj => ?_⟩
  cases j with
  | acc => exact h2
  | adb => exact absurd rfl hj

/-- A device that is attached. -/
theorem Fits.running {i : InterfaceId} (hs : s.Fits) (hatt : s.attached i = true) :
    s.host = .running ∧ s.dev.deviceAddress = usbSingleDeviceAddress := by
  have hne : s.dev ≠ .zero := by
    intro hzero
    rw [attached_zero hzero] at hatt
    cases hatt
  exact ⟨by by_contra h; exact hne (hs.zero h), hs.address.resolve_left hne⟩

/-- The calls of one that uses an interface. -/
theorem Fits.within {i : InterfaceId} (hs : s.Fits) (hatt : s.attached i = true)
    (hw : Within i s.dev s'.dev) (hhost : s'.host = s.host)
    (hadb : s'.attached .adb = true → s'.Ready)
    (hacc : s'.attached .acc = true →
      if s'.accState = .disconnected then
        (s'.dev.interfaces .acc).txBusy = false ∧ (s'.dev.interfaces .acc).rxBusy = false
      else s'.acc.Awaits (s'.dev.interfaces .acc))
    (hunopened : s'.acc.isChannelOpen = false ∧ s'.acc.channelState ≠ .opened ∧
      s'.acc.callback = none) : s'.Fits where
  zero h := absurd (hhost.trans (hs.running hatt).1) h
  address := .inr (hw.address.trans (hs.running hatt).2)
  adb := hadb
  acc := hacc
  unopened := hunopened

/-- A device that is attached may be reset. -/
theorem Fits.allowed_reset {i : InterfaceId} (hs : s.Fits) (hatt : s.attached i = true)
    {g : AndroidDevice} (hw : Within i s.dev g) (hl : ∀ c ∈ l, c.Allowed) :
    ∀ c ∈ l ++ [.reset g.deviceAddress], c.Allowed := by
  refine Call.allowed_append hl (Call.allowed_singleton ?_)
  unfold Call.Allowed
  rw [hw.address, (hs.running hatt).2]
  decide

/-- `ADBTasks` with the driver is that of the layer. -/
theorem Fits.adbTasks {res : ℤ} (hs : s.Fits) (hatt : s.attached .adb = true)
    (hstate : s.adbState ≠ .disconnected) (h : s.adbTasks u d = some (l, res, s', d')) :
    s.adb.tasks true (s.dev.transfers u) d = some (res, s'.adb, d') ∧ (∀ c ∈ l, c.Allowed) ∧
      (∃ a g, s' = { s with adb := a, dev := g }) ∧ Within .adb s.dev s'.dev ∧
      (res ≠ -1 → s'.adb.packet.Awaits (s'.dev.interfaces .adb) ∧
        s'.adb.connState ≠ .waitAttach) := by
  obtain ⟨⟨res', a, d₁⟩, htasks, heq⟩ := Option.map_eq_some_iff.1 h
  rw [hatt] at htasks
  dsimp only at heq
  by_cases hconn : s.adb.connState = .waitConnect ∨ s.adb.connState = .connected
  · rw [if_pos ⟨hconn, hatt⟩] at heq
    obtain ⟨rfl, rfl, rfl, rfl⟩ : _ ∧ _ ∧ _ ∧ _ := by simpa only [Prod.mk.injEq] using heq
    have hawaits : s.adb.packet.Awaits (s.dev.interfaces .adb) := by
      refine (hs.adb hatt).awaits hstate ?_ ?_
      all_goals rcases hconn with h | h <;> rw [h] <;> exact ConnState.noConfusion
    obtain ⟨hallowed, hawaits'⟩ := hawaits.tasksOn (u := u) hatt
    rw [Packet.tasksOn_eq] at hawaits'
    exact ⟨htasks, hallowed, ⟨a, _, rfl⟩, within_tasksOn .., awaits_tasks hconn hawaits' htasks⟩
  · rw [if_neg fun h => hconn h.1] at heq
    obtain ⟨rfl, rfl, rfl, rfl⟩ : _ ∧ _ ∧ _ ∧ _ := by simpa only [Prod.mk.injEq] using heq
    refine ⟨htasks, Call.allowed_nil, ⟨a, _, rfl⟩, .refl .., fun hres => ?_⟩
    cases hst : s.adb.connState with
    | waitConnect => exact absurd (.inl hst) hconn
    | connected => exact absurd (.inr hst) hconn
    | error =>
      unfold Layer.tasks Layer.stateTasks at htasks
      rw [if_neg hconn] at htasks
      dsimp only at htasks
      rw [hst] at htasks
      obtain ⟨r, -, heq⟩ := Option.map_eq_some_iff.1 htasks
      exact absurd (Prod.mk.inj heq).1.symm hres
    | waitAttach =>
      -- the first transfers will be asked for, and none is under way
      obtain ⟨htx, hrx⟩ := (hs.adb hatt).still (.inr hst)
      obtain ⟨-, -, -, hconn', -⟩ := Layer.tasks_waitAttach hst htasks
      refine ⟨⟨fun hi => ?_, fun hi => ?_⟩, ?_⟩
      · rw [htx] at hi
        cases hi
      · rw [hrx] at hi
        cases hi
      · dsimp only
        rw [hconn']
        exact ConnState.noConfusion

theorem connection_of_attached (hatt : s.attached .adb = true) :
    s.connection = ⟨.running, s.adbState, s.adb⟩ := by
  unfold connection link
  rw [if_pos hatt]

theorem connADBTasks_unattached (hatt : s.attached .adb = false) :
    s.connADBTasks u d = some ([], { s with adbState := .disconnected }, d) := by
  unfold Station.connADBTasks
  rw [hatt, if_neg Bool.false_ne_true]

theorem connADBTasks_known (hatt : s.attached .adb = true) (hstate : s.adbState ≠ .disconnected) :
    s.connADBTasks u d = (s.adbTasks u d).map fun (l, res, s, d) =>
      if res = -1 then (l ++ [.reset s.dev.deviceAddress], s.androidReset, d)
      else if res = 1 then (l, { s with adbState := .initialized }, d)
      else if res = 0 then (l, { s with adbState := .initializing }, d)
      else (l, s, d) := by
  unfold Station.connADBTasks
  rw [if_pos hatt]
  cases hst : s.adbState with
  | disconnected => exact absurd hst hstate
  | initializing | initialized => rfl

theorem connection_connADBTasks_known {t : Transfers} (hatt : s.attached .adb = true)
    (hstate : s.adbState ≠ .disconnected) :
    s.connection.connADBTasks t d = (s.adb.tasks true t d).map fun (res, adb, d) =>
      if res = -1 then (⟨.detached, s.adbState, adb⟩, d)
      else if res = 1 then (⟨.running, .initialized, adb⟩, d)
      else if res = 0 then (⟨.running, .initializing, adb⟩, d)
      else (⟨.running, s.adbState, adb⟩, d) := by
  rw [connection_of_attached hatt]
  unfold Connection.connADBTasks Connection.attached
  dsimp only
  rw [if_pos rfl]
  cases hst : s.adbState with
  | disconnected => exact absurd hst hstate
  | initializing | initialized => rfl

/-- The tasks of ADB, with a device that is known. -/
theorem Fits.connADBTasks_known (hs : s.Fits) (hatt : s.attached .adb = true)
    (hstate : s.adbState ≠ .disconnected) (h : s.connADBTasks u d = some (l, s', d')) :
    s'.Fits ∧ (∀ c ∈ l, c.Allowed) ∧ (s'.attached .adb = true ∨ s'.host = .detached) ∧
      s.connection.connADBTasks (s.dev.transfers u) d = some (s'.connection, d') := by
  rw [Station.connADBTasks_known hatt hstate] at h
  obtain ⟨⟨l₁, res, s₁, d₁⟩, h₁, heq⟩ := Option.map_eq_some_iff.1 h
  obtain ⟨hlayer, hallowed, ⟨a, g, rfl⟩, hwithin, hawaits⟩ := hs.adbTasks hatt hstate h₁
  rw [connection_connADBTasks_known hatt hstate, hlayer, Option.map_some]
  dsimp only at heq hwithin hawaits ⊢
  by_cases hres : res = -1
  · rw [if_pos hres] at heq ⊢
    obtain ⟨rfl, rfl, rfl⟩ : _ ∧ _ ∧ _ := by simpa only [Prod.mk.injEq] using heq
    exact ⟨hs.of_zero rfl rfl, hs.allowed_reset hatt hwithin hallowed, .inr rfl, rfl⟩
  · rw [if_neg hres] at heq ⊢
    obtain ⟨hawaits, hknown⟩ := hawaits hres
    have hsame (st : AdbState) (i : InterfaceId) :
        ({ s with adb := a, dev := g, adbState := st } : Station δ).attached i = s.attached i :=
      hwithin.attached i
    have hattached (st : AdbState) :
        ({ s with adb := a, dev := g, adbState := st } : Station δ).attached .adb = true :=
      (hsame st .adb).trans hatt
    have hfits (st : AdbState) (hst : st ≠ .disconnected) :
        ({ s with adb := a, dev := g, adbState := st } : Station δ).Fits := by
      refine hs.within hatt hwithin rfl (fun _ => ⟨fun h => ?_, fun _ _ _ => hawaits⟩) ?_
        hs.unopened
      · exact (h.elim hst hknown).elim
      · intro hacc
        dsimp only
        rw [hwithin.others .acc (by decide)]
        exact hs.acc ((hsame st .acc).symm.trans hacc)
    have hconn (st : AdbState) : some ((⟨.running, st, a⟩ : Connection δ), d₁) =
        some (({ s with adb := a, dev := g, adbState := st } : Station δ).connection, d₁) :=
      congrArg (fun c => some (c, d₁)) (connection_of_attached (hattached st)).symm
    split_ifs at heq ⊢
    · obtain ⟨rfl, rfl, rfl⟩ : _ ∧ _ ∧ _ := by simpa only [Prod.mk.injEq] using heq
      exact ⟨hfits _ (by decide), hallowed, .inl (hattached _), hconn _⟩
    · obtain ⟨rfl, rfl, rfl⟩ : _ ∧ _ ∧ _ := by simpa only [Prod.mk.injEq] using heq
      exact ⟨hfits _ (by decide), hallowed, .inl (hattached _), hconn _⟩
    · obtain ⟨rfl, rfl, rfl⟩ : _ ∧ _ ∧ _ := by simpa only [Prod.mk.injEq] using heq
      exact ⟨hfits _ hstate, hallowed, .inl (hattached _), hconn _⟩

/-- **The tasks of ADB**, with a device that is attached. -/
theorem Fits.connADBTasks (hs : s.Fits) (hatt : s.attached .adb = true)
    (h : s.connADBTasks u d = some (l, s', d')) :
    s'.Fits ∧ (∀ c ∈ l, c.Allowed) ∧ (s'.attached .adb = true ∨ s'.host = .detached) ∧
      s.connection.connADBTasks (s.dev.transfers u) d = some (s'.connection, d') := by
  by_cases hst : s.adbState = .disconnected
  · unfold Station.connADBTasks at h
    rw [if_pos hatt, hst] at h
    obtain ⟨rfl, rfl, rfl⟩ : _ ∧ _ ∧ _ := by
      simpa only [Option.some.injEq, Prod.mk.injEq] using h
    have hattached : ({ s with adb := s.adb.init, adbState := .initializing } :
        Station δ).attached .adb = true := hatt
    refine ⟨?_, Call.allowed_nil, .inl hatt, ?_⟩
    · exact hs.within hatt (.refl ..) rfl (fun _ => ⟨fun _ => (hs.adb hatt).still (.inl hst),
        fun _ hne => absurd rfl hne⟩) hs.acc hs.unopened
    · unfold Connection.connADBTasks Connection.attached
      rw [connection_of_attached hatt, connection_of_attached hattached, hst]
      rfl
  · exact hs.connADBTasks_known hatt hst h

/-! ### The tasks of the accessory interface -/

theorem within_read (u : Bus) (i : InterfaceId) (g : AndroidDevice) :
    Within i g (g.read (u.read i) i).2 := by
  unfold AndroidDevice.read
  dsimp only
  split_ifs
  · exact .refl ..
  · exact ⟨rfl, by rw [AndroidDevice.interfaces_set],
      fun j hj => AndroidDevice.interfaces_set_of_ne hj ..⟩

theorem within_write (u : Bus) (i : InterfaceId) (g : AndroidDevice) :
    Within i g (g.write (u.write i) i).2 := by
  unfold AndroidDevice.write
  dsimp only
  split_ifs
  · exact .refl ..
  · exact ⟨rfl, by rw [AndroidDevice.interfaces_set],
      fun j hj => AndroidDevice.interfaces_set_of_ne hj ..⟩

/-- Only a transfer in is asked for. -/
theorem txBusy_read (u : Bus) (i : InterfaceId) (g : AndroidDevice) :
    ((g.read (u.read i) i).2.interfaces i).txBusy = (g.interfaces i).txBusy := by
  unfold AndroidDevice.read
  dsimp only
  split_ifs
  · rfl
  · rw [AndroidDevice.interfaces_set]

theorem rxBusy_write (u : Bus) (i : InterfaceId) (g : AndroidDevice) :
    ((g.write (u.write i) i).2.interfaces i).rxBusy = (g.interfaces i).rxBusy := by
  unfold AndroidDevice.write
  dsimp only
  split_ifs
  · rfl
  · rw [AndroidDevice.interfaces_set]

/-- **A call of `AccessoryTasks`**, if no program has opened the channel. -/
theorem Accessory.Awaits.tasks {x x' : Accessory δ} {g g' : AndroidDevice} {res : ℤ}
    (hx : x.Awaits (g.interfaces .acc)) (hi : (g.interfaces .acc).initialized = true)
    (hun : x.isChannelOpen = false ∧ x.channelState ≠ .opened ∧ x.callback = none)
    (h : x.tasks u g d = some (l, res, x', g', d')) :
    d' = d ∧ (∀ c ∈ l, c.Allowed) ∧ Within .acc g g' ∧
      (x'.isChannelOpen = false ∧ x'.channelState ≠ .opened ∧ x'.callback = none) ∧
      (res ≠ -1 → x'.Awaits (g'.interfaces .acc)) := by
  obtain ⟨hclosed, hstate, hcallback⟩ := hun
  unfold Accessory.Awaits at hx
  unfold Accessory.tasks at h
  cases hst : x.channelState with
  | init =>
    simp only [hst, Option.some.injEq, Prod.mk.injEq] at h hx
    obtain ⟨rfl, -, rfl, rfl, rfl⟩ := h
    exact ⟨rfl, Call.allowed_singleton ⟨hi, hx.2⟩, within_read ..,
      ⟨hclosed, ChannelState.noConfusion, hcallback⟩, fun _ => (txBusy_read ..).trans hx.1⟩
  | waitOpen =>
    simp only [hst] at h hx
    cases hrx : g.rxIsComplete .acc with
    | none =>
      simp only [hrx, Option.some.injEq, Prod.mk.injEq] at h
      obtain ⟨rfl, -, rfl, rfl, rfl⟩ := h
      refine ⟨rfl, Call.allowed_nil, .refl .., ⟨hclosed, hstate, hcallback⟩, fun _ => ?_⟩
      unfold Accessory.Awaits
      rw [hst]
      exact hx
    | some r =>
      simp only [hrx, hclosed, Bool.false_eq_true, if_false] at h
      split_ifs at h with hcode
      · obtain ⟨rfl, rfl, rfl, rfl, rfl⟩ : _ ∧ _ ∧ _ ∧ _ ∧ _ := by
          simpa only [Option.some.injEq, Prod.mk.injEq] using h
        exact ⟨rfl, Call.allowed_nil, .refl .., ⟨hclosed, hstate, hcallback⟩,
          fun hne => absurd rfl hne⟩
      · obtain ⟨rfl, rfl, rfl, rfl, rfl⟩ : _ ∧ _ ∧ _ ∧ _ ∧ _ := by
          simpa only [Option.some.injEq, Prod.mk.injEq] using h
        have hbusy := Packet.not_busy_of_rxIsComplete hrx
        exact ⟨rfl, Call.allowed_singleton ⟨hi, hx⟩, within_write ..,
          ⟨rfl, ChannelState.noConfusion, hcallback⟩, fun _ => (rxBusy_write ..).trans hbusy⟩
  | opened => exact absurd hst hstate
  | waitClosed =>
    simp only [hst] at h hx
    cases htx : g.txIsComplete .acc with
    | none =>
      simp only [htx, Option.some.injEq, Prod.mk.injEq] at h
      obtain ⟨rfl, -, rfl, rfl, rfl⟩ := h
      refine ⟨rfl, Call.allowed_nil, .refl .., ⟨hclosed, hstate, hcallback⟩, fun _ => ?_⟩
      unfold Accessory.Awaits
      rw [hst]
      exact hx
    | some code =>
      unfold Accessory.call at h
      simp only [htx, hcallback, Option.map_some] at h
      split_ifs at h with hcode
      · obtain ⟨rfl, rfl, rfl, rfl, rfl⟩ : _ ∧ _ ∧ _ ∧ _ ∧ _ := by
          simpa only [Option.some.injEq, Prod.mk.injEq] using h
        exact ⟨rfl, Call.allowed_nil, .refl .., ⟨hclosed, hstate, hcallback⟩,
          fun hne => absurd rfl hne⟩
      · obtain ⟨rfl, rfl, rfl, rfl, rfl⟩ : _ ∧ _ ∧ _ ∧ _ ∧ _ := by
          simpa only [Option.some.injEq, Prod.mk.injEq] using h
        exact ⟨rfl, Call.allowed_nil, .refl .., ⟨hclosed, ChannelState.noConfusion, rfl⟩,
          fun _ => ⟨Packet.not_busy_of_txIsComplete htx, hx⟩⟩

theorem connAccessoryTasks_known (hatt : s.attached .acc = true)
    (hstate : s.accState ≠ .disconnected) :
    s.connAccessoryTasks u d = (s.accessoryTasks u d).map fun (l, res, s, d) =>
      if res = -1 then (l ++ [.reset s.dev.deviceAddress], s.androidReset, d)
      else (l, { s with accState := if res = 0 then .initializing else .initialized }, d) := by
  unfold Station.connAccessoryTasks
  cases hst : s.accState with
  | disconnected => exact absurd hst hstate
  | initializing | initialized => exact if_pos hatt

/-- Without a device nothing is done, or the accessory interface is shut down. -/
theorem connAccessoryTasks_unattached (hatt : s.attached .acc = false) :
    s.connAccessoryTasks u d = some ([], s, d) ∧ s.accState = .disconnected ∨
      s.connAccessoryTasks u d =
        some ([], { s with acc := s.acc.shutdown, accState := .disconnected }, d) := by
  unfold Station.connAccessoryTasks
  rw [hatt]
  cases hst : s.accState with
  | disconnected => exact .inl ⟨rfl, rfl⟩
  | initializing | initialized => exact .inr rfl

/-- The tasks of the accessory interface, with a device that is known: it is reset, or its ADB
interface is left alone. -/
theorem Fits.connAccessoryTasks_known (hs : s.Fits) (hatt : s.attached .acc = true)
    (hstate : s.accState ≠ .disconnected) (h : s.connAccessoryTasks u d = some (l, s', d')) :
    s'.Fits ∧ (∀ c ∈ l, c.Allowed) ∧ d' = d ∧ s'.adbState = s.adbState ∧ s'.adb = s.adb ∧
      ((s'.host = s.host ∧ s'.link = s.link) ∨ (s'.host = .detached ∧ s'.link = .detached)) := by
  rw [Station.connAccessoryTasks_known hatt hstate] at h
  obtain ⟨⟨l₁, res, s₁, d₁⟩, h₁, heq⟩ := Option.map_eq_some_iff.1 h
  obtain ⟨⟨l₂, res', x, g, d₂⟩, h₂, heq'⟩ := Option.map_eq_some_iff.1 h₁
  obtain ⟨rfl, rfl, rfl, rfl⟩ : _ ∧ _ ∧ _ ∧ _ := by simpa only [Prod.mk.injEq] using heq'
  have hawaits : s.acc.Awaits (s.dev.interfaces .acc) := by
    have h := hs.acc hatt
    rwa [if_neg hstate] at h
  obtain ⟨rfl, hallowed, hwithin, hun, hawaits'⟩ :=
    Accessory.Awaits.tasks hawaits hatt hs.unopened h₂
  dsimp only at heq
  by_cases hres : res' = -1
  · rw [if_pos hres] at heq
    obtain ⟨rfl, rfl, rfl⟩ : _ ∧ _ ∧ _ := by simpa only [Prod.mk.injEq] using heq
    exact ⟨⟨fun _ => rfl, .inl rfl, fun h => absurd h Bool.false_ne_true,
      fun h => absurd h Bool.false_ne_true, hun⟩, hs.allowed_reset hatt hwithin hallowed, rfl, rfl,
      rfl, .inr ⟨rfl, rfl⟩⟩
  · rw [if_neg hres] at heq
    obtain ⟨rfl, rfl, rfl⟩ : _ ∧ _ ∧ _ := by simpa only [Prod.mk.injEq] using heq
    have hsame (st : AccState) (i : InterfaceId) :
        ({ s with acc := x, dev := g, accState := st } : Station δ).attached i = s.attached i :=
      hwithin.attached i
    have hdev : g.interfaces .adb = s.dev.interfaces .adb := hwithin.others .adb (by decide)
    refine ⟨hs.within hatt hwithin rfl (fun hadb => ?_) (fun _ => ?_) hun, hallowed, rfl, rfl, rfl,
      .inl ⟨rfl, ?_⟩⟩
    · have hready := hs.adb ((hsame _ .adb).symm.trans hadb)
      refine ⟨fun h => ?_, fun h1 h2 h3 => ?_⟩
      · dsimp only
        rw [hdev]
        exact hready.still h
      · dsimp only
        rw [hdev]
        exact hready.awaits h1 h2 h3
    · dsimp only
      rw [if_neg (by split_ifs <;> exact not_false)]
      exact hawaits' hres
    · unfold link
      rw [hsame]

/-- **The tasks of the accessory interface**: the device is reset, or its ADB interface is left
alone. -/
theorem Fits.connAccessoryTasks (hs : s.Fits) (h : s.connAccessoryTasks u d = some (l, s', d')) :
    s'.Fits ∧ (∀ c ∈ l, c.Allowed) ∧ d' = d ∧ s'.adbState = s.adbState ∧ s'.adb = s.adb ∧
      ((s'.host = s.host ∧ s'.link = s.link) ∨ (s'.host = .detached ∧ s'.link = .detached)) ∧
      (s.attached .acc = false → s'.accState = .disconnected) := by
  cases hatt : s.attached .acc with
  | false =>
    rcases connAccessoryTasks_unattached (u := u) (d := d) hatt with ⟨heq, hst⟩ | heq
    · rw [heq] at h
      obtain ⟨rfl, rfl, rfl⟩ : _ ∧ _ ∧ _ := by
        simpa only [Option.some.injEq, Prod.mk.injEq] using h
      exact ⟨hs, Call.allowed_nil, rfl, rfl, rfl, .inl ⟨rfl, rfl⟩, fun _ => hst⟩
    · rw [heq] at h
      obtain ⟨rfl, rfl, rfl⟩ : _ ∧ _ ∧ _ := by
        simpa only [Option.some.injEq, Prod.mk.injEq] using h
      have hnot : s.attached .acc ≠ true := by rw [hatt]; exact Bool.false_ne_true
      exact ⟨⟨hs.zero, hs.address, fun h => ⟨(hs.adb h).still, (hs.adb h).awaits⟩,
        fun h => absurd h hnot, hs.unopened.1, hs.unopened.2.1, rfl⟩, Call.allowed_nil, rfl, rfl,
        rfl, .inl ⟨rfl, rfl⟩, fun _ => rfl⟩
  | true =>
    by_cases hst : s.accState = .disconnected
    · unfold Station.connAccessoryTasks at h
      rw [hst, hatt, if_pos rfl] at h
      obtain ⟨rfl, rfl, rfl⟩ : _ ∧ _ ∧ _ := by
        simpa only [Option.some.injEq, Prod.mk.injEq] using h
      have hstill := hs.acc hatt
      rw [if_pos hst] at hstill
      exact ⟨hs.within hatt (.refl ..) rfl (fun h => ⟨(hs.adb h).still, (hs.adb h).awaits⟩)
        (fun _ => hstill) ⟨rfl, ChannelState.noConfusion, hs.unopened.2.2⟩, Call.allowed_nil, rfl,
        rfl, rfl, .inl ⟨rfl, rfl⟩, Bool.noConfusion⟩
    · obtain ⟨hfits, hallowed, hd, hadbState, hadb, hlink⟩ :=
        hs.connAccessoryTasks_known hatt hst h
      exact ⟨hfits, hallowed, hd, hadbState, hadb, hlink, Bool.noConfusion⟩

/-! ### The connection layer -/

theorem link_of_unattached (hatt : s.attached .adb = false) : s.link ≠ .running := by
  unfold link
  rw [hatt, if_neg Bool.false_ne_true]
  cases s.host <;> exact Link.noConfusion

/-- The accessory interface resets the device, or does nothing to the link. -/
theorem connection_connAccessoryTasks (hlink : s.link = .running ∨ s.link = .detached)
    (hadbState : s'.adbState = s.adbState) (hadb : s'.adb = s.adb)
    (hlink' : s'.link = s.link ∨ s'.link = .detached) :
    ∃ fails, s.connection.connAccessoryTasks fails = s'.connection := by
  unfold Connection.connAccessoryTasks connection
  rw [hadbState, hadb]
  by_cases hsame : s'.link = s.link
  · refine ⟨false, ?_⟩
    rw [if_neg fun h => Bool.false_ne_true h.1, hsame]
  · have hdet := hlink'.resolve_left hsame
    have hrunning : s.link = .running := hlink.resolve_right fun h => hsame (hdet.trans h.symm)
    refine ⟨true, ?_⟩
    rw [if_pos ⟨rfl, Connection.attached_iff.2 hrunning⟩, hdet]
    rfl

/-- Without a device, the connection layer follows the link. -/
theorem connectionTasks_unattached {c : Connection δ} {usb : UsbEvent} {k : Link}
    (hlink : Adb.usbHostTasks usb c.link = k) (hk : k ≠ .running) (t : Transfers) (d : δ) :
    c.connectionTasks usb t false d = some (⟨k, .disconnected, c.adb⟩, d) := by
  unfold Connection.connectionTasks Connection.connADBTasks Connection.connAccessoryTasks
  rw [hlink, if_neg fun h => hk (Connection.attached_iff.1 h), Option.map_some]
  dsimp only
  rw [if_neg fun h => Bool.false_ne_true h.1]

/-- **A call of `ConnectionTasks`** with the driver is one without it, and the driver is asked for
what may be asked of it. -/
theorem Sound.connectionTasks (hs : s.Sound) (h : s.connectionTasks e u d = some (l, s', d')) :
    s'.Sound ∧ (∀ c ∈ l, c.Allowed) ∧
      ∃ usb t fails, s.connection.connectionTasks usb t fails d = some (s'.connection, d') := by
  unfold Station.connectionTasks at h
  dsimp only at h
  obtain ⟨⟨l₁, s₁, d₁⟩, hadb, h⟩ := Option.bind_eq_some_iff.1 h
  obtain ⟨⟨l₂, s₂, d₂⟩, hacc, heq⟩ := Option.map_eq_some_iff.1 h
  obtain ⟨rfl, rfl, rfl⟩ : _ ∧ _ ∧ _ := by simpa only [Prod.mk.injEq] using heq
  obtain ⟨hfits, hadbState, hlayer, usb, hlink⟩ := hs.usbHostTasks e
  set s₀ : Station δ := { s.usbHostTasks e with dev := (s.usbHostTasks e).dev.tasks u } with hs₀
  have hfits₀ : s₀.Fits := hfits.tasks u
  have hlink₀ : Adb.usbHostTasks usb s.link = s₀.link := hlink.trans (link_tasks u _).symm
  cases hatt : s₀.attached .adb with
  | true =>
    obtain ⟨hfits₁, hallowed₁, hafter, hconn₁⟩ := hfits₀.connADBTasks hatt hadb
    obtain ⟨hfits₂, hallowed₂, rfl, hadbState₂, hadb₂, hlink₂, -⟩ := hfits₁.connAccessoryTasks hacc
    -- a device is attached, or it has just been reset
    have hhost : s₁.link = .running ∨ s₁.link = .detached := by
      unfold link
      split_ifs with h₁
      · exact .inl rfl
      · rw [hafter.resolve_left h₁]
        exact .inr rfl
    have hfresh : s₂.host ≠ .configuring := by
      rcases hlink₂ with ⟨hsame, -⟩ | ⟨hdet, -⟩
      · rw [hsame]
        rcases hafter with hatt₁ | hdet
        · rw [(hfits₁.running hatt₁).1]
          exact UsbHost.noConfusion
        · rw [hdet]
          exact UsbHost.noConfusion
      · rw [hdet]
        exact UsbHost.noConfusion
    obtain ⟨fails, hacc⟩ := connection_connAccessoryTasks hhost hadbState₂ hadb₂
      (hlink₂.imp And.right And.right)
    refine ⟨⟨hfits₂, fun h => absurd h hfresh⟩, Call.allowed_append hallowed₁ hallowed₂, usb,
      s₀.dev.transfers u, fails, ?_⟩
    have hconn₀ : ({ s.connection with link := Adb.usbHostTasks usb s.connection.link } :
        Connection δ) = s₀.connection := by
      unfold connection
      dsimp only
      rw [hlink₀, ← hadbState, ← hlayer]
    unfold Connection.connectionTasks
    rw [hconn₀, hconn₁, Option.map_some]
    dsimp only
    rw [hacc]
  | false =>
    rw [connADBTasks_unattached hatt] at hadb
    obtain ⟨rfl, rfl, rfl⟩ : _ ∧ _ ∧ _ := by
      simpa only [Option.some.injEq, Prod.mk.injEq] using hadb
    have hfits₁ : ({ s₀ with adbState := .disconnected } : Station δ).Fits := by
      refine ⟨hfits₀.zero, hfits₀.address, fun h => ?_, hfits₀.acc, hfits₀.unopened⟩
      rw [show ({ s₀ with adbState := .disconnected } : Station δ).attached .adb = false from hatt]
        at h
      cases h
    obtain ⟨hfits₂, hallowed₂, rfl, hadbState₂, hadb₂, hlink₂, hdisc⟩ :=
      hfits₁.connAccessoryTasks hacc
    refine ⟨⟨hfits₂, fun h => ⟨hadbState₂, hdisc ?_⟩⟩, hallowed₂, ?_⟩
    · -- no device is there yet
      rcases hlink₂ with ⟨hsame, -⟩ | ⟨hdet, -⟩
      · refine attached_zero (hfits₁.zero ?_)
        rw [← hsame, h]
        exact UsbHost.noConfusion
      · rw [hdet] at h
        cases h
    · have hconn : s₂.connection = ⟨s₂.link, .disconnected, s.connection.adb⟩ := by
        unfold connection
        rw [hadbState₂, hadb₂]
        exact congrArg _ hlayer
      rcases hlink₂ with ⟨-, hsame⟩ | ⟨-, hdet⟩
      · refine ⟨usb, s₀.dev.transfers u, false, ?_⟩
        rw [hconn]
        exact connectionTasks_unattached (hlink₀.trans hsame.symm)
          (hsame ▸ link_of_unattached hatt) _ d₂
      · refine ⟨.detach, s₀.dev.transfers u, false, ?_⟩
        rw [hconn, hdet]
        exact connectionTasks_unattached rfl Link.noConfusion _ d₂

end Station

end TPadFire.Adb
