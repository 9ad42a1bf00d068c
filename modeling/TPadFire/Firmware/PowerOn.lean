import TPadFire.Firmware.Stack

/-!
# From the attachment of a device to the textures

A `Visit` is the stack with the other end of the link, from the attachment of a device on: the other
end sends its `ADB_CNXN`, answers one of the requests for a channel and sends packets to it.

While the device stays attached and no transfer of it fails, every run of a visit is a run of
`system`, in which payloads reach `ADBCallback` one by one: `main` and the layers below it lose,
duplicate, reorder and change none of those that were sent (`stack_refines`). The two differ in the
count of the core timer, which runs on in the stack alone. The proof has a step and a run for the
states before the channel is open (`Visit.Opens`) and after that (`Stack.Matches`).
-/

namespace TPadFire.Firmware

open Adb (Carries Message Opening Packet Peer)

/-! ## Visits -/

/-- The stack, and how far the other end has come. -/
structure Visit where
  state : Stack
  peer : Peer

/-- What can happen in a visit: the other end sends what it may, while the device is attached. -/
inductive Visit.Step : Visit → StackOp → Visit → Prop
  | send {v : Visit} {m : Message} {s : Stack} {peer : Peer} (hs : stack.step v.state (.send m) s)
      (hlink : v.state.main.conn.link = .running)
      (hp : Peer.Sends v.state.main.conn.adb m v.peer peer) : Step v (.send m) ⟨s, peer⟩
  | other {v : Visit} {op : StackOp} {s : Stack} (hs : stack.step v.state op s)
      (hop : op.sent = []) : Step v op ⟨s, v.peer⟩

/-- Visits as a system. -/
def visit : Lts Visit StackOp := ⟨Visit.Step⟩

/-- What happens in a visit, if it can happen. -/
def Visit.apply (op : StackOp) (v : Visit) : Option Visit :=
  match op with
  | .send m =>
    if v.state.main.conn.link = .running then
      (v.peer.next v.state.main.conn.adb m).bind fun peer => (op.apply v.state).map (⟨·, peer⟩)
    else none
  | .nearTasks _ | .iterate _ | .tick => (op.apply v.state).map (⟨·, v.peer⟩)

theorem visit_step_of_apply {op : StackOp} {v v' : Visit} (h : v.apply op = some v') :
    visit.step v op v' := by
  unfold Visit.apply at h
  cases op with
  | send m =>
    dsimp only at h
    split_ifs at h with hlink
    obtain ⟨peer, hp, h'⟩ := Option.bind_eq_some_iff.1 h
    obtain ⟨s, hs, rfl⟩ := Option.map_eq_some_iff.1 h'
    exact .send (stack_step_of_apply hs) hlink (Peer.sends_of_next hp)
  | nearTasks _ | iterate _ | tick =>
    obtain ⟨s, hs, rfl⟩ := Option.map_eq_some_iff.1 h
    exact .other (stack_step_of_apply hs) rfl

/-- No device is attached, and nothing is under way. -/
structure Visit.Start (v : Visit) : Prop where
  link : v.state.main.conn.link = .detached
  near : v.state.near.sendState = .idle
  flight : v.state.flight = []
  peer : v.peer = .silent

/-- No channel is open yet, and the packets of `q` are under way. -/
def Visit.Opens (v : Visit) (q : List Message) : Prop :=
  ∃ p, Opening callback v.state.main.conn p v.peer q ∧
    Carries ⟨v.state.near, p, v.state.flight⟩ q

section Switch

variable {m m' : Loop} {l : List (Loop.Call × Loop)} {p : Packet} {peer : Peer} {q : List Message}

theorem Kept.table {a a' : Adb.Layer Device} (hk : ∀ k, Kept k (a.channels k) (a'.channels k))
    (ht : a.Table callback) : a'.Table callback := by
  intro k hne
  rcases hk k with ⟨data, heq⟩ | ⟨-, -, hf, hindex⟩
  · rw [heq] at hne ⊢
    exact ht k hne
  · exact ⟨hf, hindex⟩

theorem Kept.asked {a a' : Adb.Layer Device} {h : Adb.Handle} {id : UInt32}
    (hk : Kept h (a.channels h) (a'.channels h)) (ha : a.Asked h id) : a'.Asked h id := by
  rcases hk with ⟨data, heq⟩ | ⟨hfree, -⟩
  · have hu : a'.channels h = { a.channels h with data := data } := heq
    exact ⟨by rw [hu]; exact ha.state, by rw [hu]; exact ha.localId⟩
  · exact absurd (ha.state.symm.trans hfree) Adb.ChanState.noConfusion

/-- The switch of `main` leaves the way to the channel as it is. -/
theorem Loop.mainSwitch_opening (hs : m.mainSwitch = some (l, m'))
    (ho : Opening callback m.conn p peer q) : Opening callback m'.conn p peer q := by
  obtain ⟨hlink, hstate, hconn', -, hpacket, -, hsame, hkept⟩ := mainSwitch_leaves hs
  cases ho with
  | away haway =>
    rw [← hpacket]
    refine .away ?_
    unfold Adb.Connection.Away
    rwa [hlink, hstate]
  | attached hlink hstate hconn hzero hgreets =>
    rw [hsame (by unfold Loop.connected Adb.Layer.connected; rw [hconn])]
    exact .attached hlink hstate hconn hzero hgreets
  | waiting hup hconn hzero hgreets =>
    rw [hsame (by unfold Loop.connected Adb.Layer.connected; rw [hconn])]
    exact .waiting hup hconn hzero hgreets
  | asking hup hconn htable =>
    rw [← hpacket]
    exact .asking (mainSwitch_up hs hup) (hconn'.trans hconn) (Kept.table hkept htable)
  | answering hup hconn htable hasked hcommand hq =>
    rw [← hpacket]
    exact .answering (mainSwitch_up hs hup) (hconn'.trans hconn) (Kept.table hkept htable)
      ((hkept _).asked hasked) hcommand hq

end Switch

section Refinement

variable {v v' : Visit} {q : List Message} {d : Device} {op : StackOp} {ops : List StackOp}
  {h : Adb.Handle} {remote id : UInt32} {b : Board}

theorem Visit.Start.opens (hv : v.Start) : v.Opens [] := by
  obtain ⟨s, peer⟩ := v
  obtain rfl := hv.peer
  refine ⟨_, .away (.inl hv.link), Adb.Wire.Fresh.carries ⟨hv.near, rfl, hv.flight⟩⟩

/-- Before the channel is open, no payload is all that is under way. -/
theorem Visit.Opens.payloads_eq_nil (hv : v.Opens q) (hrest : v.state.wire.AtRest) :
    payloads q = [] := by
  obtain ⟨p, ho, hc⟩ := hv
  have hgreets {q : List Message} (hg : v.peer.Greets q) : payloads q = [] := by
    refine payloads_of_ne fun m hm => ?_
    rw [hg.command m hm]
    decide
  generalize hpeer : v.peer = peer at ho hgreets
  cases ho with
  | away _ => rfl
  | attached _ _ _ _ hg => exact hgreets hg
  | waiting _ _ _ hg => exact hgreets hg
  | asking _ _ _ => rfl
  | answering _ _ _ _ _ _ => cases hc.eq_nil hrest

/-- **A step before the channel is open**: the board sees the ticks of the timer alone. -/
theorem Visit.Opens.step (hv : v.Opens q) (hd : d.Timed v.state.main.dev) (hop : op.Calm)
    (hs : visit.step v op v') :
    ∃ evs d' ms q', (∀ rx, system.Run ⟨d, rx⟩ evs ⟨d', rx⟩) ∧ d'.Timed v'.state.main.dev ∧
      evs.filterMap Event.payload? = [] ∧ evs.filter Event.isTick = op.ticks ∧
      q ++ op.sent = ms ++ q' ∧ payloads ms = [] ∧
      (v'.Opens q' ∨ ∃ h remote id rx, v'.peer = .answered remote id ∧
        v'.state.Matches h remote id q' ⟨d', rx⟩) := by
  obtain ⟨p, ho, hc⟩ := hv
  cases hs with
  | @send m s peer hs hlink hp =>
    cases hs with
    | send hs =>
      cases hs with
      | send hok hlen =>
        have hc' : Carries ⟨v.state.near.send m.command m.arg0 m.arg1 m.data, p, v.state.flight⟩
            (q ++ [m]) := by
          have hsend : Adb.Wire.Step ⟨v.state.near, p, v.state.flight⟩ (.send m)
              ⟨v.state.near.send m.command m.arg0 m.arg1 m.data, p, v.state.flight⟩ :=
            .send hok hlen
          obtain ⟨q', hfold, hc'⟩ := hc.step hsend
          obtain rfl := Option.some.inj hfold
          exact hc'
        exact ⟨[], d, [], q ++ [m], fun rx => .nil _, hd, rfl, rfl, rfl, rfl,
          .inl ⟨p, ho.send hlink hp, hc'⟩⟩
  | other hs hnone =>
    cases hs with
    | send _ => cases hnone
    | @nearTasks t w hs =>
      cases hs with
      | nearTasks =>
        obtain ⟨q', hfold, hc'⟩ := hc.step (.nearTasks (t := t))
        obtain rfl := Option.some.inj hfold
        exact ⟨[], d, [], q, fun rx => .nil _, hd, rfl, rfl, List.append_nil _, rfl,
          .inl ⟨p, ho, hc'⟩⟩
    | @iterate e m hl hp =>
      obtain ⟨m₁, l, h₁, h₂⟩ := Loop.loop_step_iff.1 hl
      obtain ⟨d₁, hconnection, hdev⟩ := Loop.connectionTasks_calm hop h₁
      obtain ⟨rfl, p', ho', hc'⟩ := ho.quiet hc hp hop.usb hconnection
      obtain ⟨-, -, -, -, -, htimed, -⟩ := Loop.mainSwitch_leaves h₂
      refine ⟨[], d, [], q, fun rx => .nil _, ?_, rfl, rfl, List.append_nil _, rfl,
        .inl ⟨p', Loop.mainSwitch_opening h₂ ho', hc'⟩⟩
      have hd₁ : d.Timed m₁.dev := by
        rw [hdev]
        exact (hd.trans (.countOn _ _)).trans (.countOn _ _)
      exact hd₁.trans htimed
    | @poll e m w hl hp hs =>
      obtain ⟨m₁, l, h₁, h₂⟩ := Loop.loop_step_iff.1 hl
      obtain ⟨d₁, hconnection, hdev⟩ := Loop.connectionTasks_calm hop h₁
      obtain ⟨rfl, ms, q', rfl, hms, hc', hrest⟩ :=
        ho.poll hc hp hop.usb hop.transfers hs hconnection
      obtain ⟨-, -, hconn', -, hpacket, htimed, -, hkept⟩ := Loop.mainSwitch_leaves h₂
      have hd₁ : d.Timed m₁.dev := by
        rw [hdev]
        exact (hd.trans (.countOn _ _)).trans (.countOn _ _)
      have hd' : d.Timed m.dev := hd₁.trans htimed
      refine ⟨[], d, ms, q', fun rx => .nil _, hd', rfl, rfl, List.append_nil _,
        payloads_of_ne hms, ?_⟩
      rcases hrest with ho' | ⟨h, remote, id, hpeer, hup, hconn, hopen, hq⟩
      · exact .inl ⟨_, Loop.mainSwitch_opening h₂ ho', hc'⟩
      · refine .inr ⟨h, remote, id, m.board.rx, hpeer, Loop.mainSwitch_up h₂ hup,
          hconn'.trans hconn, (hkept h).open hopen, ?_, hq, hd', rfl⟩
        unfold Stack.wire
        rw [hpacket]
        exact hc'
    | @tick r d' he ht =>
      obtain ⟨d₁, h₁, hd₁⟩ := hd.timer3ISR ht
      obtain ⟨n, hn⟩ := hd
      rw [hn] at he
      exact ⟨[.tick], d₁, [], q, fun rx => .cons (.tick he h₁) (.nil _), hd₁, rfl, rfl,
        List.append_nil _, rfl, .inl ⟨p, ho, hc⟩⟩

/-- A run after the channel has been opened. -/
theorem Visit.run_of_matches (hr : visit.Run v ops v') (hpeer : v.peer = .answered remote id)
    (hm : v.state.Matches h remote id q b) (hops : ∀ op ∈ ops, op.Calm) :
    ∃ evs b' ms q', system.Run b evs b' ∧ v'.state.Matches h remote id q' b' ∧
      q ++ ops.flatMap StackOp.sent = ms ++ q' ∧ evs.filterMap Event.payload? = payloads ms ∧
      evs.filter Event.isTick = ops.flatMap StackOp.ticks := by
  induction hr generalizing q b with
  | nil v => exact ⟨[], b, [], q, .nil b, hm, List.append_nil _, rfl, rfl⟩
  | @cons v v₁ v' op ops hs _ ih =>
    have hstep : stack.step v.state op v₁.state ∧ v₁.peer = .answered remote id ∧
        ∀ m ∈ op.sent, m.For remote id := by
      cases hs with
      | @send m s peer hs _ hp =>
        rw [hpeer] at hp
        cases hp with
        | talk hm =>
          refine ⟨hs, rfl, fun m' hm' => ?_⟩
          rwa [List.mem_singleton.1 hm']
      | other hs hnone =>
        refine ⟨hs, hpeer, fun m' hm' => ?_⟩
        rw [hnone] at hm'
        exact absurd hm' List.not_mem_nil
    obtain ⟨hs', hpeer₁, hfor⟩ := hstep
    obtain ⟨evs, b₁, ms, q₁, hrun, hm₁, hsent, hpayloads, hticks⟩ :=
      hm.step (hops op List.mem_cons_self) hfor hs'
    obtain ⟨evs', b', ms', q', hrun', hm', hsent', hpayloads', hticks'⟩ :=
      ih hpeer₁ hm₁ fun op' hop' => hops op' (List.mem_cons_of_mem _ hop')
    refine ⟨evs ++ evs', b', ms ++ ms', q', hrun.append hrun', hm', ?_, ?_, ?_⟩
    · rw [List.flatMap_cons, ← List.append_assoc, hsent, List.append_assoc, hsent',
        List.append_assoc]
    · rw [List.filterMap_append, hpayloads, hpayloads', payloads_append]
    · rw [List.filter_append, hticks, hticks', List.flatMap_cons]

/-- A run before the channel is open, and after that. -/
theorem Visit.Opens.run (hr : visit.Run v ops v') (hv : v.Opens q) (hd : d.Timed v.state.main.dev)
    (hops : ∀ op ∈ ops, op.Calm) :
    ∃ rx evs b ms q', system.Run ⟨d, rx⟩ evs b ∧ b.dev.Timed v'.state.main.dev ∧
      q ++ ops.flatMap StackOp.sent = ms ++ q' ∧ evs.filterMap Event.payload? = payloads ms ∧
      evs.filter Event.isTick = ops.flatMap StackOp.ticks ∧
      (v'.state.wire.AtRest → payloads q' = []) := by
  induction hr generalizing q d with
  | nil v =>
    exact ⟨v.state.main.board.rx, [], ⟨d, _⟩, [], q, .nil _, hd, List.append_nil _, rfl, rfl,
      hv.payloads_eq_nil⟩
  | @cons v v₁ v' op ops hs hrest ih =>
    have hops' : ∀ op' ∈ ops, op'.Calm := fun op' hop' => hops op' (List.mem_cons_of_mem _ hop')
    obtain ⟨evs, d₁, ms, q₁, hrun, hd₁, hnone, hticks, hsent, hms, hv₁⟩ :=
      hv.step hd (hops op List.mem_cons_self) hs
    -- the rest of the run
    have hthen : ∃ rx evs' b ms' q', system.Run ⟨d₁, rx⟩ evs' b ∧ b.dev.Timed v'.state.main.dev ∧
        q₁ ++ ops.flatMap StackOp.sent = ms' ++ q' ∧
        evs'.filterMap Event.payload? = payloads ms' ∧
        evs'.filter Event.isTick = ops.flatMap StackOp.ticks ∧
        (v'.state.wire.AtRest → payloads q' = []) := by
      rcases hv₁ with hv₁ | ⟨h, remote, id, rx, hpeer, hm⟩
      · exact ih hv₁ hd₁ hops'
      · obtain ⟨evs', b, ms', q', hrun', hm', hsent', hpayloads', hticks'⟩ :=
          Visit.run_of_matches hrest hpeer hm hops'
        refine ⟨rx, evs', b, ms', q', hrun', hm'.dev, hsent', hpayloads', hticks',
          fun hatrest => ?_⟩
        rw [hm'.carries.eq_nil hatrest]
        rfl
    obtain ⟨rx, evs', b, ms', q', hrun', hd', hsent', hpayloads', hticks', hatrest⟩ := hthen
    refine ⟨rx, evs ++ evs', b, ms ++ ms', q', (hrun rx).append hrun', hd', ?_, ?_, ?_, hatrest⟩
    · rw [List.flatMap_cons, ← List.append_assoc, hsent, List.append_assoc, hsent',
        List.append_assoc]
    · rw [List.filterMap_append, hnone, hpayloads', payloads_append, hms]
    · rw [List.filter_append, hticks, hticks', List.flatMap_cons]

end Refinement

/-- **The stack refines the board.** From the attachment of a device on, and while it stays attached
and no transfer of it fails, what the stack does, the board does on the payloads of the packets that
were sent: the first of them, in order, each once, or all of them when the link is at rest, with the
ticks of the timer in between. -/
theorem stack_refines {v v' : Visit} {ops : List StackOp} (hv : v.Start)
    (hops : ∀ op ∈ ops, op.Calm) (hr : visit.Run v ops v') :
    ∃ rx evs b, system.Run ⟨v.state.main.dev, rx⟩ evs b ∧ b.dev.Timed v'.state.main.dev ∧
      evs.filter Event.isTick = ops.flatMap StackOp.ticks ∧
      evs.filterMap Event.payload? <+: payloads (ops.flatMap StackOp.sent) ∧
      (v'.state.wire.AtRest →
        evs.filterMap Event.payload? = payloads (ops.flatMap StackOp.sent)) := by
  obtain ⟨rx, evs, b, ms, q, hrun, hd, hsent, hpayloads, hticks, hrest⟩ :=
    Visit.Opens.run hr hv.opens (.refl _) hops
  rw [List.nil_append] at hsent
  refine ⟨rx, evs, b, hrun, hd, hticks, ?_, fun hatrest => ?_⟩
  · rw [hpayloads, hsent, payloads_append]
    exact List.prefix_append ..
  · rw [hpayloads, hsent, payloads_append, hrest hatrest, List.append_nil]

/-- The firmware after reset, and another end that has sent nothing. -/
def bootVisit : Visit := ⟨⟨bootLoop, Adb.still.near, []⟩, .silent⟩

/-- The `ADB_CNXN` of the other end, with the data `device::`. -/
def connectMessage : Message :=
  ⟨Adb.adbCnxn, Adb.adbVersion, 4096, [0x64, 0x65, 0x76, 0x69, 0x63, 0x65, 0x3a, 0x3a, 0x00]⟩

/-- The channel 256 of the layer is the channel 9 of the other end. -/
def answerMessage : Message := ⟨Adb.adbOkay, 9, 256, []⟩

/-- A texture of five samples. -/
def textureMessage : Message := ⟨Adb.adbWrte, 9, 256, [commandText, 10, 20, 30, 40, 50]⟩

/-- The other end sends a packet, and the loop reads it. -/
def exchangeOps (m : Message) : List StackOp :=
  [.send m, .nearTasks (Adb.smooth none), .nearTasks (Adb.smooth none),
    .nearTasks (Adb.smooth none), .iterate (briefly (Adb.smooth none)),
    .iterate (briefly (Adb.smooth (some m.header.toBytes))),
    .iterate (briefly (Adb.smooth (some m.data)))]

/-- A device is attached, opens the channel and sends a texture, which is played. -/
def textureOps : List StackOp :=
  [.iterate ⟨0, .progress, started, false, 0⟩, .iterate ⟨0, .progress, started, false, 0⟩,
    .iterate (briefly started)] ++ exchangeOps connectMessage ++
    [.iterate (briefly (Adb.smooth none)), .iterate (briefly (Adb.smooth none))] ++
    exchangeOps answerMessage ++ exchangeOps textureMessage ++ [.tick]

theorem calm_exchangeOps (m : Message) : ∀ op ∈ exchangeOps m, op.Calm := by
  have hcalm (l : Option (List Byte)) : (briefly (Adb.smooth l)).Calm := by
    refine ⟨by simp [briefly], rfl, rfl, rfl, by simp [briefly, Adb.smooth], fun k hk => ?_⟩
    cases l <;> cases hk
  intro op hop
  simp only [exchangeOps, List.mem_cons, List.not_mem_nil, or_false] at hop
  rcases hop with rfl | rfl | rfl | rfl | rfl | rfl | rfl
  · exact trivial
  · exact trivial
  · exact trivial
  · exact trivial
  · exact hcalm _
  · exact hcalm _
  · exact hcalm _

theorem calm_textureOps : ∀ op ∈ textureOps, op.Calm := by
  have hstarted : ∀ usb, usb ≠ .detach → Env.Calm ⟨0, usb, started, false, 0⟩ :=
    fun usb husb => ⟨husb, rfl, rfl, rfl, by simp [started], fun k hk => by cases hk⟩
  intro op hop
  unfold textureOps at hop
  simp only [List.mem_append, List.mem_cons, List.not_mem_nil, or_false] at hop
  rcases hop with ((((hop | hop) | hop) | hop) | hop) | rfl
  · rcases hop with rfl | rfl | rfl
    · exact hstarted _ (by decide)
    · exact hstarted _ (by decide)
    · exact hstarted _ (by decide)
  · exact calm_exchangeOps _ op hop
  · refine calm_exchangeOps connectMessage op ?_
    rcases hop with rfl | rfl <;> simp [exchangeOps]
  · exact calm_exchangeOps _ op hop
  · exact calm_exchangeOps _ op hop
  · exact trivial

/-- The texture is sent and taken. -/
theorem run_textureOps : ∃ v', visit.Run bootVisit textureOps v' ∧ v'.state.wire.AtRest := by
  have hrun : (Lts.perform Visit.apply (fun _ op => op.sent) textureOps bootVisit).map (fun r =>
      (r.1.state.near.sendState, r.1.state.flight, r.1.state.main.conn.adb.packet.recvState)) =
      some (.idle, [], .start) := by decide +kernel
  obtain ⟨⟨v', es⟩, h, heq⟩ := Option.map_eq_some_iff.1 hrun
  simp only [Prod.mk.injEq] at heq
  exact ⟨v', (Lts.emits_of_perform (fun _ _ _ => visit_step_of_apply) h).run, heq.1, heq.2.1,
    .inl heq.2.2⟩

theorem stack_refines_texture : ∃ v' rx evs b, visit.Run bootVisit textureOps v' ∧
    system.Run ⟨boot, rx⟩ evs b ∧ b.dev.Timed v'.state.main.dev ∧
    evs.filter Event.isTick = [.tick] ∧ evs.filterMap Event.payload? = [textureMessage.data] := by
  obtain ⟨v', hr, hrest⟩ := run_textureOps
  obtain ⟨rx, evs, b, hsys, hdev, hticks, -, hall⟩ :=
    stack_refines (v := bootVisit) ⟨rfl, rfl, rfl, rfl⟩ calm_textureOps hr
  exact ⟨v', rx, evs, b, hr, hsys, hdev, hticks, hall hrest⟩

end TPadFire.Firmware
