import TPadFire.Adb.Station
import TPadFire.Firmware.Stack

/-!
# The loop of `main` on the USB driver

The loop of `TPadFire.Firmware.Main` takes what the USB driver tells the connection layer for an
input. Here the driver is in the state, with the accessory interface that shares it, and the inputs
are what the USB host does (`Adb.HostEvent`) and answers (`Adb.Bus`).

`rig_refines` says that a run of this loop is a run of the other one, at the same times: what is
proved of all runs of the loop is true of the loop on the driver. `rig_allowed` says that in every
run the driver is asked for what it may be asked for: its assertions hold, and it is never busy.
-/

namespace TPadFire.Firmware

open Adb (Handle Station HostEvent Bus)

/-- What the outside world does in one iteration. -/
structure RigEnv where
  /-- The counts of the core timer until `ConnectionTasks` ends. -/
  elapsed : ℕ
  host : HostEvent
  bus : Bus
  /-- The counts of the core timer from there until it is read. -/
  later : ℕ

/-- The state of `main`, of all layers below it and of the device. -/
structure Rig where
  state : MainState
  /-- `h`, if it is not `INVALID_CHANNEL_HANDLE`. -/
  h : Option Handle
  station : Station Device
  dev : Device

namespace Rig

/-- The loop without the driver. -/
def loop (r : Rig) : Loop := ⟨r.state, r.h, r.station.connection, r.dev⟩

/-- An iteration of the loop, with its calls of the driver. The switch of `main` reads whether a
device is attached, and reads and writes the ADB layer. -/
def iterate (e : RigEnv) (r : Rig) : Option (List Adb.Call × Rig) :=
  (r.station.connectionTasks e.host e.bus (countOn e.elapsed r.dev)).bind fun (l, s, d) =>
    (Loop.mainSwitch ⟨r.state, r.h, s.connection, countOn e.later d⟩).map fun (_, m) =>
      (l, ⟨m.state, m.h, { s with adb := m.conn.adb }, m.dev⟩)

end Rig

/-- The state in which `main` enters its loop. -/
def bootRig : Rig :=
  ⟨.init, some 0,
    ⟨.detached, .zero, .disconnected, .disconnected, resetLayer, ⟨.init, false, none⟩⟩, boot⟩

/-- The loop on the driver as a system of iterations. -/
def rig : Lts Rig RigEnv where
  step r e r' := ∃ calls, r.iterate e = some (calls, r')

/-- The two iterations take the same time. -/
def RigEnv.SameTime (e : RigEnv) (e' : Env) : Prop := e'.elapsed = e.elapsed ∧ e'.later = e.later

namespace Rig

variable {r r' : Rig} {e : RigEnv} {l : List Adb.Call}

theorem sound_bootRig : bootRig.station.Sound where
  zero _ := rfl
  address := .inl rfl
  adb h := absurd h Bool.false_ne_true
  acc h := absurd h Bool.false_ne_true
  unopened := ⟨rfl, Adb.ChannelState.noConfusion, rfl⟩
  fresh h := by cases h

/-- What the switch of `main` does to the ADB layer shows nothing to the driver. -/
theorem sound_setAdb {s : Station Device} {a : Adb.Layer Device} (hs : s.Sound)
    (hconn : a.connState = s.adb.connState) (hpacket : a.packet = s.adb.packet) :
    ({ s with adb := a } : Station Device).Sound := by
  refine ⟨⟨hs.zero, hs.address, fun hatt => ⟨fun h => ?_, fun h1 h2 h3 => ?_⟩, hs.acc, hs.unopened⟩,
    hs.fresh⟩
  · exact (hs.adb hatt).still (h.imp_right hconn.symm.trans)
  · dsimp only at h2 h3 ⊢
    rw [hpacket]
    rw [hconn] at h2 h3
    exact (hs.adb hatt).awaits h1 h2 h3

/-- **An iteration** on the driver is one without it. -/
theorem sound_iterate (hs : r.station.Sound) (h : r.iterate e = some (l, r')) :
    r'.station.Sound ∧ (∀ c ∈ l, c.Allowed) ∧
      ∃ e', e.SameTime e' ∧ Firmware.loop.step r.loop e' r'.loop := by
  obtain ⟨⟨l₁, s, d⟩, htasks, h₁⟩ := Option.bind_eq_some_iff.1 h
  obtain ⟨⟨calls, m⟩, hswitch, heq⟩ := Option.map_eq_some_iff.1 h₁
  obtain ⟨rfl, rfl⟩ := Prod.mk.inj heq
  obtain ⟨hsound, hallowed, usb, t, fails, hconn⟩ := hs.connectionTasks htasks
  obtain ⟨hlink, hadbState, hconnState, -, hpacket, -⟩ := Loop.mainSwitch_leaves hswitch
  refine ⟨sound_setAdb hsound hconnState hpacket, hallowed,
    ⟨e.elapsed, usb, t, fails, e.later⟩, ⟨rfl, rfl⟩, ?_⟩
  refine Loop.loop_step_iff.2 ⟨⟨r.state, r.h, s.connection, countOn e.later d⟩, calls, ?_, ?_⟩
  · exact Option.map_eq_some_iff.2 ⟨(s.connection, d), hconn, rfl⟩
  · rw [hswitch]
    obtain ⟨state, h, ⟨link, adbState, adb⟩, dev⟩ := m
    dsimp only at hlink hadbState
    subst hlink hadbState
    rfl

/-- The iterations of a run, computed. -/
def iterates : List RigEnv → Rig → Option Rig
  | [], r => some r
  | e :: es, r => (r.iterate e).bind fun x => iterates es x.2

theorem run_of_iterates {es : List RigEnv} (h : iterates es r = some r') : rig.Run r es r' := by
  induction es generalizing r with
  | nil => exact Lts.run_nil.2 (Option.some.inj h)
  | cons e es ih =>
    obtain ⟨x, hx, h'⟩ := Option.bind_eq_some_iff.1 h
    exact .cons ⟨x.1, hx⟩ (ih h')

theorem run_refines {es : List RigEnv} (hr : rig.Run bootRig es r) :
    r.station.Sound ∧
      ∃ es', List.Forall₂ RigEnv.SameTime es es' ∧ Firmware.loop.Run bootLoop es' r.loop := by
  refine hr.refines (f := loop) (I := fun r => r.station.Sound) ?_ sound_bootRig
  rintro r e r' hs ⟨l, h⟩
  obtain ⟨hsound, -, hstep⟩ := sound_iterate hs h
  exact ⟨hsound, hstep⟩

end Rig

/-- **The loop on the driver refines the loop**: every run of it is, without the driver, a run of
the loop whose iterations take the same times. -/
theorem rig_refines {es : List RigEnv} {r : Rig} (hr : rig.Run bootRig es r) :
    ∃ es', List.Forall₂ RigEnv.SameTime es es' ∧ loop.Run bootLoop es' r.loop :=
  (Rig.run_refines hr).2

/-- Transfers start, and none is over. -/
def quietBus : Bus := ⟨fun _ => none, fun _ => none, fun _ => 0, fun _ => 0⟩

/-- The transfer out of the ADB interface is over, and that in has brought the bytes `l`. -/
def arrivedBus (l : List Byte) : Bus :=
  { quietBus with
    rx := fun i => if i = .adb then some (Adb.usbSuccess, l) else none
    tx := fun i => if i = .adb then some Adb.usbSuccess else none }

/-- A device with one interface for ADB is attached, and sends an `ADB_CNXN`. -/
def rigEnvs : List RigEnv :=
  [⟨0, .progress, quietBus, 0⟩, ⟨0, .initInterfaces [[0x81, 0x02]], quietBus, 0⟩,
    ⟨0, .quiet, quietBus, 0⟩, ⟨0, .quiet, quietBus, 0⟩,
    ⟨0, .quiet, arrivedBus [0x43, 0x4e, 0x58, 0x4e, 0, 0, 0, 1, 0, 0x10, 0, 0, 9, 0, 0, 0, 0xe4, 2,
      0, 0, 0xbc, 0xb1, 0xa7, 0xb1], 0⟩,
    ⟨0, .quiet, arrivedBus [0x64, 0x65, 0x76, 0x69, 0x63, 0x65, 0x3a, 0x3a, 0], 0⟩]

theorem rig_refines_connects : ∃ r es', rig.Run bootRig rigEnvs r ∧ r.state = .connected ∧
    List.Forall₂ RigEnv.SameTime rigEnvs es' ∧ loop.Run bootLoop es' r.loop := by
  have hrun : (Rig.iterates rigEnvs bootRig).map Rig.state = some .connected := by decide +kernel
  obtain ⟨r, hr, hstate⟩ := Option.map_eq_some_iff.1 hrun
  obtain ⟨es', htimes, hloop⟩ := rig_refines (Rig.run_of_iterates hr)
  exact ⟨r, es', Rig.run_of_iterates hr, hstate, htimes, hloop⟩

/-- **The driver is asked for what it may be asked for**: in no run does the loop read from or write
to an interface that is not attached or has such a transfer under way, or reset no device. -/
theorem rig_allowed {es : List RigEnv} {r r' : Rig} {e : RigEnv} {l : List Adb.Call}
    (hr : rig.Run bootRig es r) (h : r.iterate e = some (l, r')) : ∀ c ∈ l, c.Allowed :=
  (Rig.sound_iterate (Rig.run_refines hr).1 h).2.1

theorem rig_allowed_transfers : ∃ r l r', rig.Run bootRig (rigEnvs.take 3) r ∧
    r.iterate ⟨0, .quiet, quietBus, 0⟩ = some (l, r') ∧ l.length = 2 ∧ ∀ c ∈ l, c.Allowed := by
  have hrun : ((Rig.iterates (rigEnvs.take 3) bootRig).bind fun r =>
      (r.iterate ⟨0, .quiet, quietBus, 0⟩).map fun x => x.1.length) = some 2 := by
    decide +kernel
  obtain ⟨r, hr, hlast⟩ := Option.bind_eq_some_iff.1 hrun
  obtain ⟨⟨l, r'⟩, hstep, hlength⟩ := Option.map_eq_some_iff.1 hlast
  exact ⟨r, l, r', Rig.run_of_iterates hr, hstep, hlength,
    rig_allowed (Rig.run_of_iterates hr) hstep⟩

end TPadFire.Firmware
