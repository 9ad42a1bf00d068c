import TPadFire.Adb.Greeting
import TPadFire.Firmware.Stack

/-!
# A device that is not let in

A device whose first packet is no `ADB_CNXN` leaves the ADB layer waiting (`Adb.Greeting`). `main`
waits with it, whatever the device sends from then on: no channel is opened, nothing is handled,
and no time limit ends the wait, since the keep-alive timer is looked at only in `STATE_CONNECTED`.
The wait ends when the device is detached, or when the accessory interface resets it.
-/

namespace TPadFire.Firmware

open Adb (Greeting)

namespace Loop

/-- A device is attached and known, and its first packet was no `ADB_CNXN`. -/
structure Refused (m : Loop) : Prop where
  link : m.conn.link = .running
  known : m.conn.adbState ≠ .disconnected
  refused : Greeting.refused.Of m.conn.adb

variable {m m' : Loop} {e : Env}

theorem Refused.not_connected (hm : m.Refused) : m.connected = false := by
  unfold connected Adb.Layer.connected
  rw [hm.refused.1]

/-- An iteration with such a device does nothing. -/
theorem Refused.step (hm : m.Refused) (husb : e.usb ≠ .detach) (hacc : e.accessoryFails = false)
    (hs : loop.step m e m') :
    m'.Refused ∧ m'.conn.adb.channels = m.conn.adb.channels ∧ m.dev.Timed m'.dev ∧
      (m'.state = .connected → m.state = .connected) := by
  obtain ⟨m₁, l, h₁, h₂⟩ := loop_step_iff.1 hs
  obtain ⟨⟨c, d⟩, hc, rfl⟩ := Option.map_eq_some_iff.1 h₁
  rw [hacc] at hc
  obtain ⟨r, htasks, hlink, hknown⟩ :=
    Adb.Connection.connectionTasks_running hm.link hm.known husb hc
  obtain ⟨rfl, rfl, hchannels, hrefused⟩ := Greeting.tasks_refused hm.refused htasks
  have hm₁ : Refused { m with conn := c, dev := countOn e.later (countOn e.elapsed m.dev) } :=
    ⟨hlink (by decide), hknown, hrefused⟩
  obtain ⟨-, -, -, -, -, htimed, hsame, -⟩ := mainSwitch_leaves h₂
  have hconn := hsame hm₁.not_connected
  have hpassed : m.dev.Timed (countOn e.later (countOn e.elapsed m.dev)) :=
    (Device.Timed.countOn e.elapsed m.dev).trans (.countOn e.later _)
  refine ⟨⟨?_, ?_, ?_⟩, ?_, hpassed.trans htimed, fun hstate => ?_⟩
  · rw [hconn]
    exact hm₁.link
  · rw [hconn]
    exact hm₁.known
  · rw [hconn]
    exact hm₁.refused
  · rw [hconn]
    exact hchannels
  · cases switched h₂ with
    | opens _ hup => cases hup.symm.trans hm₁.not_connected
    | stays h => exact h
    | init | attach | gone | expires => cases hstate
    | wait h | connect h | full h => cases h.symm.trans hstate

end Loop

/-- **A device that is not let in is waited for**: in every run in which it is neither detached nor
reset by the accessory interface, whatever it sends, whichever transfers fail and however long it
takes, the channel table stays as it is, the device of the firmware does but for the core timer, and
`main` does not connect. -/
theorem refused_waits {m m' : Loop} {es : List Env} (hm : m.Refused)
    (hes : ∀ e ∈ es, e.usb ≠ .detach ∧ e.accessoryFails = false) (hr : loop.Run m es m') :
    m'.Refused ∧ m'.conn.adb.channels = m.conn.adb.channels ∧ m.dev.Timed m'.dev ∧
      (m'.state = .connected → m.state = .connected) := by
  refine hr.invariant_mem (I := fun m' => m'.Refused ∧
    m'.conn.adb.channels = m.conn.adb.channels ∧ m.dev.Timed m'.dev ∧
      (m'.state = .connected → m.state = .connected)) ?_ ⟨hm, rfl, .refl _, id⟩
  rintro m₁ e m₂ he ⟨hm₁, hchannels, htimed, hstate⟩ hs
  obtain ⟨husb, hacc⟩ := hes e he
  obtain ⟨hm₂, hchannels₂, htimed₂, hstate₂⟩ := hm₁.step husb hacc hs
  exact ⟨hm₂, hchannels₂.trans hchannels, htimed.trans htimed₂, fun h => hstate (hstate₂ h)⟩

/-- The bytes of the header of a packet come in. -/
def headerEnv (command : UInt32) (data : List Byte) : Env :=
  briefly (received (Adb.Message.header ⟨command, 1, 0, data⟩).toBytes)

/-- A device is attached and asks for authentication. -/
def challengeRun : List Env :=
  attachRun.take 4 ++ [headerEnv Adb.adbAuth [7], briefly (received [7])]

/-- It sends an `ADB_CNXN`, and much later another one. -/
def pleaRun : List Env :=
  [headerEnv Adb.adbCnxn [], ⟨200000001, .quiet, started, false, 0⟩, headerEnv Adb.adbCnxn []]

theorem refused_waits_challenge : ∃ m m', loop.Run bootLoop challengeRun m ∧
    loop.Run m pleaRun m' ∧ m'.Refused ∧ m'.state = .connecting := by
  have hrun : (Loop.iterates challengeRun bootLoop).bind (fun m => (Loop.iterates pleaRun m).map
      fun m' => (m.conn.link, m.conn.adbState, m.conn.adb.connState, m.conn.adb.bufferRefcount,
        m'.state)) = some (.running, .initializing, .waitConnect, 0, .connecting) := by
    decide +kernel
  obtain ⟨m, hm, hrest⟩ := Option.bind_eq_some_iff.1 hrun
  obtain ⟨m', hm', heq⟩ := Option.map_eq_some_iff.1 hrest
  simp only [Prod.mk.injEq] at heq
  obtain ⟨hlink, hadbState, hconn, href, hstate⟩ := heq
  have hrefused : m.Refused := ⟨hlink, by rw [hadbState]; decide, hconn, href⟩
  refine ⟨m, m', Loop.run_of_iterates hm, Loop.run_of_iterates hm', ?_, hstate⟩
  refine (refused_waits hrefused ?_ (Loop.run_of_iterates hm')).1
  intro e he
  simp only [pleaRun, headerEnv, briefly, List.mem_cons, List.not_mem_nil, or_false] at he
  rcases he with rfl | rfl | rfl <;> exact ⟨Adb.UsbEvent.noConfusion, rfl⟩

end TPadFire.Firmware
