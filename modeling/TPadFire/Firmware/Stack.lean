import TPadFire.Adb.Handshake
import TPadFire.Firmware.Feed
import TPadFire.Firmware.Main

/-!
# The whole stack

The firmware from the wire to the device: the loop of `main` with the layers below it, the other end
of the link, and the transfers that are under way between them. The other end sends packets, the
loop iterates, and the timer ticks between two iterations, in any order.

The loop hands what arrives to the board, of which `system` is the model: once a channel is open,
each step of the stack is a step of the board or none (`Stack.Matches.step`). The two differ in the
count of the core timer, which runs on in the stack alone (`Device.Timed`).
-/

namespace TPadFire.Firmware

open Adb (Carries Handle Message Packet Transfers Wire)

/-! ## The core timer -/

/-- Two devices differ in the count of the core timer at most. -/
def Device.Timed (d d' : Device) : Prop := ∃ n, d' = { d with coreTimer := n }

namespace Device.Timed

variable {d d' d'' : Device} {e : Event} {b b₁ b' : Board}

theorem refl (d : Device) : d.Timed d := ⟨d.coreTimer, rfl⟩

theorem trans (h : d.Timed d') (h' : d'.Timed d'') : d.Timed d'' := by
  obtain ⟨n, rfl⟩ := h
  obtain ⟨n', rfl⟩ := h'
  exact ⟨n', rfl⟩

theorem countOn (n : ℕ) (d : Device) : d.Timed (countOn n d) := ⟨_, rfl⟩

/-- The callback does not read the core timer. -/
theorem adbCallback {data : RecvBuffer} {n : ℕ} (h : d.Timed d') :
    (adbCallback data n d).Rel Device.Timed (adbCallback data n d') := by
  obtain ⟨z, rfl⟩ := h
  rw [Firmware.adbCallback, Firmware.adbCallback]
  split_ifs with h1 h2 h3 h4 h5 h6
  · exact .returned ⟨z, rfl⟩
  · refine .returned ⟨z, ?_⟩
    simp only [handleTexture, startPlayback, loadTexture, resumeTimer3]
    split_ifs <;> rfl
  · exact .returned ⟨z, rfl⟩
  · obtain ⟨v, hv⟩ : ∃ v, intFromBytes (rawData data) = v := ⟨_, rfl⟩
    by_cases h0 : v = 0
    · rw [handleFreq_trapped (hv.trans h0), handleFreq_trapped (hv.trans h0)]
      exact .trapped ⟨z, rfl⟩
    · rw [handleFreq_returned hv h0, handleFreq_returned hv h0]
      exact .returned ⟨z, rfl⟩
  · rw [handleMag_eq, handleMag_eq]
    exact .returned ⟨z, rfl⟩
  · exact .returned ⟨0, rfl⟩
  · exact .returned ⟨z, rfl⟩

/-- The service routine does not read the core timer. -/
theorem timer3ISR {r : Option Read} (h : d.Timed d') (hr : timer3ISR d' = some (r, d'')) :
    ∃ d₁, Firmware.timer3ISR d = some (r, d₁) ∧ d₁.Timed d'' := by
  obtain ⟨z, rfl⟩ := h
  unfold Firmware.timer3ISR playSample at hr ⊢
  dsimp only at hr ⊢
  split_ifs at hr ⊢
  · obtain ⟨⟨r', d'⟩, hp, heq⟩ := Option.map_eq_some_iff.1 hr
    obtain ⟨b, hb, hb'⟩ := Option.map_eq_some_iff.1 hp
    obtain ⟨rfl, rfl⟩ := Prod.mk.inj hb'
    obtain ⟨rfl, rfl⟩ := Prod.mk.inj heq
    rw [hb]
    exact ⟨_, rfl, z, rfl⟩
  · obtain ⟨⟨r', d'⟩, hp, heq⟩ := Option.map_eq_some_iff.1 hr
    obtain ⟨b, hb, hb'⟩ := Option.map_eq_some_iff.1 hp
    obtain ⟨rfl, rfl⟩ := Prod.mk.inj hb'
    obtain ⟨rfl, rfl⟩ := Prod.mk.inj heq
    rw [hb]
    exact ⟨_, rfl, z, rfl⟩
  · obtain ⟨rfl, rfl⟩ := Prod.mk.inj (Option.some.inj hr)
    exact ⟨_, rfl, z, rfl⟩

end Device.Timed

/-- The board does the same, whatever the core timer counts. -/
theorem timed_simulation :
    Lts.Simulation system system fun b b' => b'.dev.Timed b.dev ∧ b'.rx = b.rx := by
  rintro ⟨d, rx⟩ ⟨d', rx'⟩ e b ⟨hd, hrx⟩ hs
  dsimp only at hd hrx
  subst hrx
  cases hs with
  | @payload p _ hp h =>
    have hrel : (adbCallback (receive p rx') p.length d').Rel Device.Timed
        (adbCallback (receive p rx') p.length d) := hd.adbCallback
    rw [h] at hrel
    obtain ⟨d₁, h₁, hd₁⟩ := hrel.returned_of
    exact ⟨⟨d₁, _⟩, .payload hp h₁, hd₁, rfl⟩
  | tick he h =>
    obtain ⟨d₁, h₁, hd₁⟩ := hd.timer3ISR h
    refine ⟨⟨d₁, rx'⟩, .tick ?_ h₁, hd₁, rfl⟩
    obtain ⟨n, rfl⟩ := hd
    exact he

/-! ## Payloads -/

/-- The payloads of packets: the data of those that carry data. -/
def payloads (ms : List Message) : List (List Byte) :=
  (ms.filter fun m => m.command = Adb.adbWrte).map Message.data

theorem payloads_append (ms ms' : List Message) :
    payloads (ms ++ ms') = payloads ms ++ payloads ms' := by
  unfold payloads
  rw [List.filter_append, List.map_append]

theorem payloads_cons (m : Message) (ms : List Message) :
    payloads (m :: ms) =
      if m.command = Adb.adbWrte then m.data :: payloads ms else payloads ms := by
  unfold payloads
  split_ifs with hm
  · rw [List.filter_cons_of_pos (by simpa using hm), List.map_cons]
  · rw [List.filter_cons_of_neg (by simpa using hm)]

/-- Packets that carry no data have no payloads. -/
theorem payloads_of_ne {ms : List Message} (hms : ∀ m ∈ ms, m.command ≠ Adb.adbWrte) :
    payloads ms = [] := by
  unfold payloads
  rw [List.map_eq_nil_iff, List.filter_eq_nil_iff]
  exact fun m hm => by simpa using hms m hm

/-- What packets do to the client is what their payloads do to the board. -/
theorem run_of_take {h : Handle} {remote id : UInt32} {ms : List Message} {d d' : Device}
    {rx rx' : RecvBuffer} (hms : ∀ m ∈ ms, m.data.length ≤ adbPacketMaxRecvDataBytes)
    (hfor : ∀ m ∈ ms, m.For remote id)
    (hr : ms.foldlM (callback.take h) (d, rx) = some (d', rx')) :
    system.Run ⟨d, rx⟩ ((payloads ms).map .payload) ⟨d', rx'⟩ := by
  induction ms generalizing d rx with
  | nil =>
    obtain ⟨rfl, rfl⟩ := Prod.mk.inj (Option.some.inj hr)
    exact .nil _
  | cons m ms ih =>
    rw [List.foldlM_cons] at hr
    obtain ⟨⟨d₁, rx₁⟩, h₁, hrest⟩ := Option.bind_eq_some_iff.1 hr
    have hrun := ih (fun m' hm' => hms m' (List.mem_cons_of_mem _ hm'))
      (fun m' hm' => hfor m' (List.mem_cons_of_mem _ hm')) hrest
    unfold Adb.RecvFunc.take at h₁
    rw [payloads_cons]
    rcases hfor m List.mem_cons_self with ⟨hcommand, hdata⟩ | ⟨hcommand, -, -, hdata⟩
    · rw [if_pos hdata] at h₁
      obtain ⟨rfl, rfl⟩ := Prod.mk.inj (Option.some.inj h₁)
      rwa [hcommand, if_neg (by decide)]
    · rw [if_neg hdata] at h₁
      obtain ⟨d₂, hcall, heq⟩ := Option.map_eq_some_iff.1 h₁
      obtain ⟨rfl, rfl⟩ := Prod.mk.inj heq
      rw [if_pos hcommand]
      refine .cons (.payload (hms m List.mem_cons_self) ?_) hrun
      unfold callback at hcall
      dsimp only at hcall
      cases hout : adbCallback (receive m.data rx) m.data.length d with
      | returned d' =>
        rw [hout] at hcall
        rw [Option.some.inj hcall]
      | trapped d' =>
        rw [hout] at hcall
        cases hcall

/-! ## An iteration of the loop -/

/-- The device stays attached, and no transfer fails. -/
structure Env.Calm (e : Env) : Prop where
  usb : e.usb ≠ .detach
  accessory : e.accessoryFails = false
  transfers : e.transfers.Succeed

/-- The device, and the buffer of the packet layer. -/
def Loop.board (m : Loop) : Board := ⟨m.dev, m.conn.adb.packet.recvData⟩

/-- What the switch of `main` does to the entry `k` of the channel table: data is written to it, or
it was free and has been opened. -/
def Kept (k : Handle) (c c' : Adb.Channel Device) : Prop :=
  (∃ data, c' = { c with data := data }) ∨
    (c.state = .free ∧ c'.state = .start ∧ c'.recvFunc = some callback ∧
      (c'.localId &&& 0xFF).toNat = k)

theorem Kept.refl (k : Handle) (c : Adb.Channel Device) : Kept k c c := .inl ⟨c.data, rfl⟩

/-- The low byte of a local id is the handle, whatever the counter. -/
theorem localId_and (c : UInt32) (h : Handle) :
    ((c <<< 8 ||| .ofNat h) &&& 0xFF).toNat = h := by
  have hlt : (h : ℕ) < 2 ^ 8 := lt_trans h.isLt (by decide)
  have hh : (UInt32.ofNat (h : ℕ)).toNat = h :=
    UInt32.toNat_ofNat_of_lt' (lt_trans hlt (by decide))
  rw [UInt32.toNat_and, UInt32.toNat_or, UInt32.toNat_shiftLeft, hh,
    show (0xFF : UInt32).toNat = 2 ^ 8 - 1 by decide, show (8 : UInt32).toNat % 32 = 8 by decide,
    Nat.and_or_distrib_right, Nat.and_two_pow_sub_one_eq_mod, Nat.and_two_pow_sub_one_eq_mod,
    Nat.mod_eq_of_lt hlt, Nat.shiftLeft_eq]
  have hzero : c.toNat * 2 ^ 8 % 2 ^ 32 % 2 ^ 8 = 0 := by omega
  rw [hzero, Nat.zero_or]

namespace Loop

variable {m m' : Loop} {e : Env} {h : Handle} {remote id : UInt32} {w w₁ : Wire}
  {q : List Message}

/-- An iteration calls `ConnectionTasks`, and time passes. -/
theorem connectionTasks_calm (he : e.Calm) (hr : m.connectionTasks e = some m') :
    ∃ d, m.conn.connectionTasks e.usb e.transfers false (countOn e.elapsed m.dev) =
      some (m'.conn, d) ∧ m'.dev = countOn e.later d := by
  obtain ⟨⟨c, d⟩, hc, rfl⟩ := Option.map_eq_some_iff.1 hr
  rw [he.accessory] at hc
  exact ⟨d, hc, rfl⟩

/-- **What the switch of `main` leaves as it is**: the connection but for the channel table, the
packets, and the device but for the core timer. -/
theorem mainSwitch_leaves {l : List (Call × Loop)} (hs : m.mainSwitch = some (l, m')) :
    m'.conn.link = m.conn.link ∧ m'.conn.adbState = m.conn.adbState ∧
      m'.conn.adb.connState = m.conn.adb.connState ∧
      m'.conn.adb.bufferRefcount = m.conn.adb.bufferRefcount ∧
      m'.conn.adb.packet = m.conn.adb.packet ∧ m.dev.Timed m'.dev ∧
      (m.connected = false → m'.conn = m.conn) ∧
      ∀ k, Kept k (m.conn.adb.channels k) (m'.conn.adb.channels k) := by
  cases switched hs with
  | @opens _ hconn h a hopen =>
    obtain ⟨hfree, rfl⟩ := Adb.Layer.adbOpen_eq_some hopen
    have hstate : (m.conn.adb.channels h).state = .free := by simpa using List.find?_some hfree
    refine ⟨rfl, rfl, rfl, rfl, rfl, ⟨0, rfl⟩, fun hdis => (by cases hconn.symm.trans hdis),
      fun k => ?_⟩
    by_cases hk : k = h
    · subst hk
      right
      simp only [Adb.Layer.adbWrite, Adb.Layer.setChannel, Function.update_self]
      exact ⟨hstate, trivial, trivial, localId_and _ k⟩
    · simp only [Adb.Layer.adbWrite, Adb.Layer.setChannel, Function.update_self,
        Function.update_of_ne hk]
      exact .refl k _
  | init | attach | wait | connect | full | gone | expires | stays =>
    exact ⟨rfl, rfl, rfl, rfl, rfl, .refl _, fun _ => rfl, fun k => .refl k _⟩

theorem mainSwitch_up {l : List (Call × Loop)} (hs : m.mainSwitch = some (l, m'))
    (hup : m.conn.Up) : m'.conn.Up := by
  obtain ⟨hlink, hstate, -, href, hpacket, -⟩ := mainSwitch_leaves hs
  exact ⟨hlink.trans hup.link, hstate ▸ hup.adbState, href.trans hup.polling.refcount,
    hpacket ▸ hup.polling.sending, hpacket ▸ hup.polling.receiving,
    hpacket ▸ hup.polling.listening⟩

end Loop

/-! ## The stack -/

/-- The loop of `main`, the other end of its link, and the transfers that have been started there
and have not been read. -/
structure Stack where
  main : Loop
  near : Packet
  flight : List (List Byte)

/-- The link below the loop. -/
def Stack.wire (s : Stack) : Wire := ⟨s.near, s.main.conn.adb.packet, s.flight⟩

/-- What happens to the stack. -/
inductive StackOp
  /-- The other end sends a packet. -/
  | send (m : Message)
  /-- The other end calls `ADBPacketTasks`. -/
  | nearTasks (t : Transfers)
  | iterate (e : Env)
  /-- Timer3 ticks. -/
  | tick

/-- What can happen to the stack. An iteration reads from the wire what its call of
`ADBPacketTasks` reads, if there is one; the timer ticks between two iterations, while its interrupt
is enabled. What is under way when the device is detached is not lost here. -/
inductive Stack.Step : Stack → StackOp → Stack → Prop
  | send {s : Stack} {m : Message} {w : Wire} (hs : Wire.Step s.wire (.send m) w) :
      Step s (.send m) { s with near := w.near }
  | nearTasks {s : Stack} {t : Transfers} {w : Wire} (hs : Wire.Step s.wire (.nearTasks t) w) :
      Step s (.nearTasks t) { s with near := w.near, flight := w.flight }
  | iterate {s : Stack} {e : Env} {m : Loop} (hm : loop.step s.main e m)
      (hp : ¬ s.main.conn.Polls e.usb) : Step s (.iterate e) { s with main := m }
  | poll {s : Stack} {e : Env} {m : Loop} {w : Wire} (hm : loop.step s.main e m)
      (hp : s.main.conn.Polls e.usb) (hs : Wire.Step s.wire (.farTasks e.transfers) w) :
      Step s (.iterate e) ⟨m, s.near, w.flight⟩
  | tick {s : Stack} {r : Option Read} {d : Device} (he : s.main.dev.t3ie = true)
      (h : timer3ISR s.main.dev = some (r, d)) :
      Step s .tick { s with main := { s.main with dev := d } }

/-- The stack as a system. -/
def stack : Lts Stack StackOp := ⟨Stack.Step⟩

namespace StackOp

/-- What happens to the stack, if it can happen. -/
def apply : StackOp → Stack → Option Stack
  | send m, s => ((Adb.WireOp.send m).apply s.wire).map fun w => { s with near := w.near }
  | nearTasks t, s =>
    ((Adb.WireOp.nearTasks t).apply s.wire).map fun w =>
      { s with near := w.near, flight := w.flight }
  | iterate e, s =>
    (s.main.iterate e).bind fun r =>
      if s.main.conn.Polls e.usb then
        ((Adb.WireOp.farTasks e.transfers).apply s.wire).map fun w => ⟨r.2, s.near, w.flight⟩
      else some { s with main := r.2 }
  | tick, s =>
    if s.main.dev.t3ie then
      (timer3ISR s.main.dev).map fun r => { s with main := { s.main with dev := r.2 } }
    else none

/-- The packets that the other end sends. -/
def sent : StackOp → List Message
  | send m => [m]
  | nearTasks _ | iterate _ | tick => []

/-- The ticks of the timer. -/
def ticks : StackOp → List Event
  | tick => [.tick]
  | send _ | nearTasks _ | iterate _ => []

/-- The device stays attached, and no transfer of it fails. -/
def Calm : StackOp → Prop
  | iterate e => e.Calm
  | send _ | nearTasks _ | tick => True

end StackOp

theorem stack_step_of_apply {op : StackOp} {s s' : Stack} (h : op.apply s = some s') :
    stack.step s op s' := by
  cases op with
  | send m =>
    obtain ⟨w, hw, rfl⟩ := Option.map_eq_some_iff.1 h
    exact .send (Adb.wire_step_of_apply hw)
  | nearTasks t =>
    obtain rfl := Option.some.inj h
    exact .nearTasks .nearTasks
  | iterate e =>
    obtain ⟨r, hr, h'⟩ := Option.bind_eq_some_iff.1 h
    split_ifs at h' with hp
    · obtain ⟨w, hw, rfl⟩ := Option.map_eq_some_iff.1 h'
      exact .poll ⟨r.1, hr⟩ hp (Adb.wire_step_of_apply hw)
    · obtain rfl := Option.some.inj h'
      exact .iterate ⟨r.1, hr⟩ hp
  | tick =>
    unfold StackOp.apply at h
    dsimp only at h
    split_ifs at h with he
    obtain ⟨r, hr, rfl⟩ := Option.map_eq_some_iff.1 h
    exact .tick he hr

/-- The payload of an event. -/
def Event.payload? : Event → Option (List Byte)
  | payload p => some p
  | tick => none

/-- The events that are ticks. -/
def Event.isTick : Event → Bool
  | tick => true
  | payload _ => false

theorem filterMap_payloads (ps : List (List Byte)) :
    (ps.map Event.payload).filterMap Event.payload? = ps := by
  induction ps with
  | nil => rfl
  | cons p ps ih =>
    rw [List.map_cons, List.filterMap_cons_some (by rfl), ih]

theorem filter_payloads (ps : List (List Byte)) :
    (ps.map Event.payload).filter Event.isTick = [] := by
  induction ps with
  | nil => rfl
  | cons p ps ih =>
    rw [List.map_cons, List.filter_cons_of_neg Bool.false_ne_true, ih]

/-! ## A channel that is open -/

/-- The board `b` does what the stack does: the channel `h` is open, and the packets of `q` have
been sent to it and not taken. -/
structure Stack.Matches (h : Handle) (remote id : UInt32) (s : Stack) (q : List Message)
    (b : Board) : Prop where
  up : s.main.conn.Up
  connected : s.main.conn.adb.connState = .connected
  channel : s.main.conn.adb.Open h remote id callback
  carries : Carries s.wire q
  addressed : ∀ m ∈ q, m.For remote id
  dev : b.dev.Timed s.main.dev
  rx : b.rx = s.main.board.rx

section Refinement

variable {s s' : Stack} {h : Handle} {remote id : UInt32} {q : List Message} {b : Board}

/-- The switch of `main` leaves an open channel open. -/
theorem Kept.open {a a' : Adb.Layer Device} (ho : a.Open h remote id callback)
    (hk : Kept h (a.channels h) (a'.channels h)) : a'.Open h remote id callback := by
  rcases hk with ⟨data, heq⟩ | ⟨hfree, -⟩
  · have hu : a'.channels h = { a.channels h with data := data } := heq
    exact ⟨by rw [hu]; exact ho.state, by rw [hu]; exact ho.localId, by rw [hu]; exact ho.remoteId,
      by rw [hu]; exact ho.recvFunc, ho.index⟩
  · rcases ho.state with hs | hs
    all_goals
      rw [hs] at hfree
      cases hfree

/-- **A step of the stack** is a step of the board or none: the packets that it takes are the first
of those that are under way. -/
theorem Stack.Matches.step {op : StackOp} (hm : s.Matches h remote id q b) (hop : op.Calm)
    (hfor : ∀ m ∈ op.sent, m.For remote id) (hs : stack.step s op s') :
    ∃ evs b' ms q', system.Run b evs b' ∧ s'.Matches h remote id q' b' ∧
      q ++ op.sent = ms ++ q' ∧ evs.filterMap Event.payload? = payloads ms ∧
      evs.filter Event.isTick = op.ticks := by
  cases hs with
  | @send m w hs =>
    obtain ⟨q', hfold, hc⟩ := hm.carries.step hs
    obtain rfl := Option.some.inj hfold
    refine ⟨[], b, [], q ++ [m], .nil b,
      ⟨hm.up, hm.connected, hm.channel, ?_, ?_, hm.dev, hm.rx⟩, rfl, rfl, rfl⟩
    · cases hs with
      | send _ _ => exact hc
    · intro m' hm'
      rcases List.mem_append.1 hm' with hq | hnew
      · exact hm.addressed m' hq
      · exact hfor m' hnew
  | @nearTasks t w hs =>
    obtain ⟨q', hfold, hc⟩ := hm.carries.step hs
    obtain rfl := Option.some.inj hfold
    refine ⟨[], b, [], q, .nil b,
      ⟨hm.up, hm.connected, hm.channel, ?_, hm.addressed, hm.dev, hm.rx⟩,
      List.append_nil _, rfl, rfl⟩
    cases hs with
    | nearTasks => exact hc
  | @iterate e m hl hp => exact absurd (hm.up.polls hop.usb (.inr hm.connected)) hp
  | @poll e m w hl hp hs =>
    obtain ⟨m₁, l, h₁, h₂⟩ := Loop.loop_step_iff.1 hl
    obtain ⟨d, hconnection, hdev⟩ := Loop.connectionTasks_calm hop h₁
    obtain ⟨r, htasks, hlink, hstate⟩ :=
      Adb.Connection.connectionTasks_running hm.up.link hm.up.adbState hop.usb hconnection
    obtain ⟨rfl, hopen, hpoll, hconn, ms, q', rfl, hc, hfold⟩ :=
      hm.channel.tasks hm.up.polling hm.connected hm.carries rfl hs hm.addressed hop.transfers
        htasks
    have hrun := run_of_take (fun p hp => hm.carries.short p (List.mem_append_left _ hp))
      (fun p hp => hm.addressed p (List.mem_append_left _ hp)) hfold
    obtain ⟨-, -, hconn', -, hpacket, htimed, -, hkept⟩ := Loop.mainSwitch_leaves h₂
    obtain ⟨b', hrun', htimed', hrx⟩ :=
      timed_simulation.run hrun (a := b) ⟨hm.dev.trans (.countOn _ _), hm.rx⟩
    refine ⟨_, b', ms, q', hrun', ⟨Loop.mainSwitch_up h₂ ⟨hlink (by decide), hstate, hpoll⟩,
      hconn'.trans hconn, (hkept h).open hopen, ?_, ?_, ?_, ?_⟩, List.append_nil _,
      filterMap_payloads _, filter_payloads _⟩
    · unfold Stack.wire
      rw [hpacket]
      exact hc
    · exact fun m' hm' => hm.addressed m' (List.mem_append_right _ hm')
    · exact (htimed'.trans (hdev ▸ .countOn _ _)).trans htimed
    · rw [hrx]
      exact congrArg Packet.recvData hpacket.symm
  | @tick r d he ht =>
    obtain ⟨d₁, h₁, hd₁⟩ := hm.dev.timer3ISR ht
    refine ⟨[.tick], ⟨d₁, b.rx⟩, [], q, .cons (.tick ?_ h₁) (.nil _),
      ⟨hm.up, hm.connected, hm.channel, hm.carries,
        hm.addressed, hd₁, hm.rx⟩, List.append_nil _, rfl, rfl⟩
    obtain ⟨n, hn⟩ := hm.dev
    rw [hn] at he
    exact he

end Refinement

end TPadFire.Firmware
