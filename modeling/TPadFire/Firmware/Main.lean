import TPadFire.Adb.Connection
import TPadFire.Foundations.Lts

/-!
# The loop of `main`

Each iteration of the loop calls `ConnectionTasks` and then switches on the state of the connection.
What the outside world does in an iteration is an input (`Env`): the time that passes on the core
timer, what the USB host sees and how its transfers end, and whether the accessory's tasks fail.
Data that arrives on the channel is handled by `ADBCallback` inside `ConnectionTasks`; if the
handler traps, there is no next iteration. The service routine of Timer3 writes nothing that the
loop reads and is left out here.

`mainSwitch` also lists the calls of the ADB layer that it makes, each with the state at the call.
`Switched` says what it can have done.
-/

namespace TPadFire.Firmware

open Adb (Handle Connection RecvFunc Transfers UsbEvent)

/-- `STATE` -/
inductive MainState
  | init
  | waiting
  | connecting
  | connected
  deriving DecidableEq, Repr

/-- What the outside world does in one iteration. -/
structure Env where
  /-- The counts of the core timer until `ConnectionTasks` ends. -/
  elapsed : ℕ
  usb : UsbEvent
  transfers : Transfers
  /-- The tasks of the accessory interface fail. -/
  accessoryFails : Bool
  /-- The counts of the core timer from there until it is read. -/
  later : ℕ

/-- The state of `main`, of the layers below it and of the device. -/
structure Loop where
  state : MainState
  /-- `h`, if it is not `INVALID_CHANNEL_HANDLE`. -/
  h : Option Handle
  conn : Connection Device
  dev : Device

/-- The core timer counts on; it has 32 bits. -/
def countOn (n : ℕ) (d : Device) : Device := { d with coreTimer := (d.coreTimer + n) % 2 ^ 32 }

/-- `ADBCallback` as a callback of the ADB layer, which passes a null pointer when it closes the
channel. -/
def callback : RecvFunc Device := fun _ data dataLen d =>
  match data with
  | none => if dataLen < 1 then some d else none
  | some data =>
    match adbCallback data dataLen d with
    | .returned d => some d
    | .trapped _ => none

/-- `"tcp:4545"`, with the zero that ends it. -/
def channelName : List Byte := [0x74, 0x63, 0x70, 0x3a, 0x34, 0x35, 0x34, 0x35, 0x00]

/-- The 17 bytes of `"Hello from TPAD!"`. -/
def hello : List Byte :=
  [0x48, 0x65, 0x6c, 0x6c, 0x6f, 0x20, 0x66, 0x72, 0x6f, 0x6d, 0x20, 0x54, 0x50, 0x41, 0x44, 0x21,
    0x00]

/-- The counts of the core timer, 10 s, after which the connection is given up. -/
def keepAliveLimit : ℕ := 200000000

namespace Loop

/-- `ADBAttached` -/
def attached (m : Loop) : Bool := m.conn.attached

/-- `ADBConnected` -/
def connected (m : Loop) : Bool := m.conn.adb.connected

/-- The entries of the channel table that are not free. -/
def taken (m : Loop) : Set Handle := m.conn.adb.taken

/-- The keep-alive timer has run out. -/
def timeout (m : Loop) : Prop := m.dev.coreTimer > keepAliveLimit

/-- `ConnectionTasks`, and the time that passes. -/
def connectionTasks (e : Env) (m : Loop) : Option Loop :=
  (m.conn.connectionTasks e.usb e.transfers e.accessoryFails (countOn e.elapsed m.dev)).map
    fun r => { m with conn := r.1, dev := countOn e.later r.2 }

/-- A call of the ADB layer that is bound to the device being attached. -/
inductive Call
  | adbConnected
  | adbOpen
  | adbWrite (h : Handle)
  | adbChannelReady (h : Handle)
  deriving DecidableEq, Repr

/-- The switch of `main`, with the calls that it makes and the state at each. `ADBChannelReady` of
an invalid handle reads outside of the table and has no result. -/
def mainSwitch (m : Loop) : Option (List (Call × Loop) × Loop) :=
  match m.state with
  | .init => some ([], { m with state := .waiting, h := none })
  | .waiting => some ([], if m.attached then { m with state := .connecting } else m)
  | .connecting =>
    if m.connected then
      match m.conn.adb.adbOpen channelName callback with
      | (some h, adb) =>
        let m' : Loop := ⟨.connected, some h, { m.conn with adb := adb }, writeCoreTimer 0 m.dev⟩
        some ([(.adbConnected, m), (.adbOpen, m), (.adbWrite h, m')],
          { m' with conn := { m'.conn with adb := adb.adbWrite h hello } })
      | (none, adb) =>
        some ([(.adbConnected, m), (.adbOpen, m)],
          { m with h := none, conn := { m.conn with adb := adb } })
    else some ([(.adbConnected, m)], m)
  | .connected =>
    let m' := if m.attached then m else { m with state := .init }
    m.h.map fun h =>
      ([(.adbChannelReady h, m')],
        if m'.dev.coreTimer > keepAliveLimit then { m' with state := .init } else m')

/-- An iteration of the loop. -/
def iterate (e : Env) (m : Loop) : Option (List (Call × Loop) × Loop) :=
  (m.connectionTasks e).bind mainSwitch

/-- The calls of an iteration. -/
def calls (e : Env) (m : Loop) : List (Call × Loop) := ((m.iterate e).map Prod.fst).getD []

end Loop

/-- The ADB layer after reset: its globals are zero but for the counter of the channels. -/
def resetLayer : Adb.Layer Device where
  connState := .error
  channels := fun _ => .zero
  bufferRefcount := 0
  localIdCounter := 1
  currentChannel := 0
  packet := ⟨⟨0, 0, 0, 0, 0, 0⟩, ⟨0, 0, 0, 0, 0, 0⟩, .start, .start, [], fun _ => 0⟩

/-- The state in which `main` enters its loop. -/
def bootLoop : Loop := ⟨.init, some 0, ⟨.detached, .disconnected, resetLayer⟩, boot⟩

/-- The loop as a system of iterations. -/
def loop : Lts Loop Env where
  step m e m' := ∃ calls, m.iterate e = some (calls, m')

namespace Loop

variable {m m' : Loop} {e : Env} {l : List (Call × Loop)}

theorem loop_step_iff :
    loop.step m e m' ↔ ∃ m₁ l, m.connectionTasks e = some m₁ ∧ m₁.mainSwitch = some (l, m') := by
  constructor
  · rintro ⟨l, h⟩
    obtain ⟨m₁, h₁, h₂⟩ := Option.bind_eq_some_iff.1 h
    exact ⟨m₁, l, h₁, h₂⟩
  · rintro ⟨m₁, l, h₁, h₂⟩
    exact ⟨l, Option.bind_eq_some_iff.2 ⟨m₁, h₁, h₂⟩⟩

/-- The iterations of a run, computed. -/
def iterates : List Env → Loop → Option Loop
  | [], m => some m
  | e :: es, m => (m.iterate e).bind fun r => iterates es r.2

theorem run_of_iterates {es : List Env} (h : iterates es m = some m') : loop.Run m es m' := by
  induction es generalizing m with
  | nil => exact Lts.run_nil.2 (Option.some.inj h)
  | cons e es ih =>
    obtain ⟨r, hr, h'⟩ := Option.bind_eq_some_iff.1 h
    exact .cons ⟨r.1, hr⟩ (ih h')

/-- The tasks leave the state of `main` and its handle alone. -/
theorem connectionTasks_frame (h : m.connectionTasks e = some m') :
    m'.state = m.state ∧ m'.h = m.h ∧ ∃ d d',
      m.conn.connectionTasks e.usb e.transfers e.accessoryFails d = some (m'.conn, d') := by
  obtain ⟨⟨c, d⟩, hc, rfl⟩ := Option.map_eq_some_iff.1 h
  exact ⟨rfl, rfl, _, d, hc⟩

/-- **What the switch of `main` can have done**, and the calls that it has made. -/
inductive Switched (m : Loop) : List (Call × Loop) → Loop → Prop
  | init (hstate : m.state = .init) : Switched m [] { m with state := .waiting, h := none }
  | attach (hstate : m.state = .waiting) (hatt : m.attached = true) :
      Switched m [] { m with state := .connecting }
  | wait (hstate : m.state = .waiting) (hatt : m.attached = false) : Switched m [] m
  | connect (hstate : m.state = .connecting) (hconn : m.connected = false) :
      Switched m [(.adbConnected, m)] m
  | full (hstate : m.state = .connecting) (hconn : m.connected = true)
      (hfull : m.taken = Set.univ) :
      Switched m [(.adbConnected, m), (.adbOpen, m)] { m with h := none }
  | opens (hstate : m.state = .connecting) (hconn : m.connected = true) {h : Handle}
      {a : Adb.Layer Device} (hopen : m.conn.adb.adbOpen channelName callback = (some h, a)) :
      Switched m [(.adbConnected, m), (.adbOpen, m), (.adbWrite h,
          ⟨.connected, some h, { m.conn with adb := a }, writeCoreTimer 0 m.dev⟩)]
        ⟨.connected, some h, { m.conn with adb := a.adbWrite h hello }, writeCoreTimer 0 m.dev⟩
  | gone (hstate : m.state = .connected) {h : Handle} (hh : m.h = some h)
      (hatt : m.attached = false) :
      Switched m [(.adbChannelReady h, { m with state := .init })] { m with state := .init }
  | expires (hstate : m.state = .connected) {h : Handle} (hh : m.h = some h)
      (hatt : m.attached = true) (htime : m.timeout) :
      Switched m [(.adbChannelReady h, m)] { m with state := .init }
  | stays (hstate : m.state = .connected) {h : Handle} (hh : m.h = some h)
      (hatt : m.attached = true) (htime : ¬ m.timeout) : Switched m [(.adbChannelReady h, m)] m

theorem switched (hs : m.mainSwitch = some (l, m')) : m.Switched l m' := by
  unfold mainSwitch at hs
  cases hstate : m.state with
  | init =>
    rw [hstate] at hs
    obtain ⟨rfl, rfl⟩ := Prod.mk.inj (Option.some.inj hs)
    exact .init hstate
  | waiting =>
    rw [hstate] at hs
    obtain ⟨rfl, rfl⟩ := Prod.mk.inj (Option.some.inj hs)
    split_ifs with hatt
    · exact .attach hstate hatt
    · exact .wait hstate (Bool.eq_false_iff.2 hatt)
  | connecting =>
    rw [hstate] at hs
    dsimp only at hs
    split_ifs at hs with hconn
    · cases hopen : m.conn.adb.adbOpen channelName callback with
      | mk h a =>
        rw [hopen] at hs
        cases h with
        | none =>
          obtain ⟨rfl, rfl⟩ := Prod.mk.inj (Option.some.inj hs)
          obtain ⟨rfl, hfull⟩ := Adb.Layer.adbOpen_eq_none hopen
          exact hstate ▸ .full hstate hconn hfull
        | some h =>
          obtain ⟨rfl, rfl⟩ := Prod.mk.inj (Option.some.inj hs)
          exact .opens hstate hconn hopen
    · obtain ⟨rfl, rfl⟩ := Prod.mk.inj (Option.some.inj hs)
      exact .connect hstate (Bool.eq_false_iff.2 hconn)
  | connected =>
    rw [hstate] at hs
    obtain ⟨h, hh, heq⟩ := Option.map_eq_some_iff.1 hs
    obtain ⟨rfl, rfl⟩ := Prod.mk.inj heq
    by_cases hatt : m.attached = true
    · simp only [if_pos hatt]
      split_ifs with htime
      · exact .expires hstate hh hatt htime
      · exact .stays hstate hh hatt htime
    · simp only [if_neg hatt, ite_self]
      exact .gone hstate hh (Bool.eq_false_iff.2 hatt)

end Loop

/-! ## A connection -/

/-- Every transfer starts, and none ends. -/
def started : Transfers := ⟨true, none, true, none⟩

/-- The transfer out has ended, and that in has brought the bytes `l`. -/
def received (l : List Byte) : Transfers := ⟨true, some true, true, some (true, l)⟩

/-- An iteration in which no time passes and the USB host sees nothing new. -/
def briefly (t : Transfers) : Env := ⟨0, .quiet, t, false, 0⟩

/-- The data `device::` with a zero, of an `ADB_CNXN`, has come in. -/
def connectEnv : Env := briefly (received [0x64, 0x65, 0x76, 0x69, 0x63, 0x65, 0x3a, 0x3a, 0])

/-- A device is attached and sends an `ADB_CNXN`, up to its data. -/
def attachRun : List Env :=
  [⟨0, .progress, started, false, 0⟩, ⟨0, .progress, started, false, 0⟩, briefly started,
    briefly started,
    briefly (received [0x43, 0x4e, 0x58, 0x4e, 0, 0, 0, 1, 0, 0x10, 0, 0, 9, 0, 0, 0, 0xe4, 2, 0, 0,
      0xbc, 0xb1, 0xa7, 0xb1])]

end TPadFire.Firmware
