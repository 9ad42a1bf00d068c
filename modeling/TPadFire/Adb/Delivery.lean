import TPadFire.Adb.Notices

/-!
# From the wire to a channel

A layer that is connected and listens, at the far end of a link, with an open channel. What
`ADBTasks` gives the callback of the channel is what the other end of the link has sent to the
channel, one packet after another (`Online.tasks`): a call of `ADBTasks` takes the first of the
packets that are under way, or none.
-/

namespace TPadFire.Adb

open Firmware (Byte RecvBuffer adbPacketMaxRecvDataBytes receive)

/-! ## The receiving half of the packet layer -/

namespace Packet

/-- Two packet layers agree in what they receive. -/
structure SameRecv (p q : Packet) : Prop where
  header : p.recvHeader = q.recvHeader
  state : p.recvState = q.recvState
  data : p.recvData = q.recvData

variable {p q : Packet} {t : Transfers}

theorem SameRecv.refl (p : Packet) : p.SameRecv p := ⟨rfl, rfl, rfl⟩

theorem SameRecv.trans {r : Packet} (h : p.SameRecv q) (h' : q.SameRecv r) : p.SameRecv r :=
  ⟨h.header.trans h'.header, h.state.trans h'.state, h.data.trans h'.data⟩

theorem sameRecv_sendTasks (t : Transfers) (p : Packet) : (p.sendTasks t).SameRecv p := by
  unfold sendTasks
  cases p.sendState with
  | start => exact ⟨rfl, rfl, rfl⟩
  | waitHeader =>
    cases t.txComplete with
    | none => exact ⟨rfl, rfl, rfl⟩
    | some ok =>
      cases ok with
      | false => exact ⟨rfl, rfl, rfl⟩
      | true =>
        dsimp only
        split_ifs <;> exact ⟨rfl, rfl, rfl⟩
  | waitData =>
    cases t.txComplete with
    | none => exact ⟨rfl, rfl, rfl⟩
    | some ok => exact ⟨rfl, rfl, rfl⟩
  | idle | error => exact ⟨rfl, rfl, rfl⟩

/-- What is received does not depend on what is sent. -/
theorem recvTasks_send (t : Transfers) (p : Packet) (hd : Header) (s : PacketState)
    (l : List Byte) :
    ({ p with sendHeader := hd, sendState := s, sendData := l } : Packet).recvTasks t =
      { p.recvTasks t with sendHeader := hd, sendState := s, sendData := l } := by
  unfold recvTasks
  obtain ⟨_, _, _, state, _, _⟩ := p
  cases state with
  | start => rfl
  | waitHeader =>
    cases t.rxComplete with
    | none => rfl
    | some r =>
      dsimp only
      split_ifs <;> rfl
  | waitData =>
    cases t.rxComplete with
    | none => rfl
    | some r =>
      dsimp only
      split_ifs <;> rfl
  | idle | error => rfl

theorem SameRecv.eq (h : p.SameRecv q) :
    p = { q with
      sendHeader := p.sendHeader, sendState := p.sendState, sendData := p.sendData } := by
  obtain ⟨h1, h2, h3⟩ := h
  cases p
  cases q
  dsimp only at h1 h2 h3
  rw [h1, h2, h3]

theorem SameRecv.recvTasks (h : p.SameRecv q) : (p.recvTasks t).SameRecv (q.recvTasks t) := by
  rw [h.eq, recvTasks_send]
  exact ⟨rfl, rfl, rfl⟩

/-- A call of `ADBPacketTasks` receives as one of `ADBPacketRecvTasks`. -/
theorem sameRecv_tasks (t : Transfers) (p : Packet) : (p.tasks t).SameRecv (p.recvTasks t) :=
  (sameRecv_sendTasks t p).recvTasks

theorem SameRecv.received (h : p.SameRecv q) : p.received = q.received := by
  unfold Packet.received
  rw [h.header, h.data]

theorem sendState_recvTasks (t : Transfers) (p : Packet) :
    (p.recvTasks t).sendState = p.sendState := by
  unfold recvTasks
  cases p.recvState with
  | start | idle | error => rfl
  | waitHeader | waitData =>
    cases t.rxComplete with
    | none => rfl
    | some r =>
      dsimp only
      split_ifs <;> rfl

end Packet

/-- What a link carries depends on what its far end receives. -/
theorem Carries.congr {w : Wire} {q : List Message} {p : Packet} (hc : Carries w q)
    (h : p.SameRecv w.far) : Carries ⟨w.near, p, w.flight⟩ q := by
  refine ⟨hc.short, fun hne => ?_⟩
  dsimp only at hne ⊢
  obtain ⟨l, l', hl, hl', hstream⟩ := hc.stream (h.state ▸ hne)
  refine ⟨l, l', ?_, hl', hstream⟩
  unfold Consumed at hl ⊢
  rw [h.state, h.received, h.header]
  exact hl

/-- A packet that has arrived is taken. -/
theorem Carries.taken {w : Wire} {m : Message} {q : List Message} (hc : Carries w (m :: q))
    (hidle : w.far.recvState = .idle) : Carries { w with far := w.far.recv } q := by
  obtain ⟨q', htake, hc'⟩ := hc.step (.take (recvStatus_eq_ok.2 hidle))
  have hq' : m :: q = w.far.received :: q' :=
    (List.append_nil _).symm.trans (Traffic.entries_eq htake)
  obtain ⟨-, rfl⟩ := List.cons.inj hq'
  exact hc'

section Arrival

variable {w w₁ : Wire} {q : List Message} {t : Transfers}

theorem far_of_farTasks (hs : Wire.Step w (.farTasks t) w₁) :
    w₁.far = w.far.recvTasks t ∧ w₁.near = w.near := by
  cases hs <;> exact ⟨rfl, rfl⟩

/-- **A packet arrives**: the call that completes it leaves its header and its data in the memory
of the far end; any other leaves the data there alone. -/
theorem Carries.arrives (hc : Carries w q) (hs : Wire.Step w (.farTasks t) w₁)
    (hlisten : w.far.recvState ≠ .idle) (hne : (w.far.recvTasks t).recvState ≠ .error) :
    ((w.far.recvTasks t).recvState ≠ .idle ∧ (w.far.recvTasks t).recvData = w.far.recvData) ∨
    ((w.far.recvTasks t).recvState = .idle ∧ ∃ m r, q = m :: r ∧
      (w.far.recvTasks t).recvHeader = m.header ∧
      (w.far.recvTasks t).recvData =
        if m.data = [] then w.far.recvData else receive m.data w.far.recvData) := by
  have hnot : w.far.recvState ≠ .error := fun he => hne (recvTasks_error t he)
  obtain ⟨l, l', hl, -, hstream⟩ := hc.stream hnot
  unfold Consumed at hl
  have hreads : w.far.reads t = none ∨ ∃ b rest, w.far.reads t = some (true, b) ∧
      w.flight = b :: rest := by
    cases hs with
    | farIdle hr => exact .inl hr
    | farReads hr hf => exact .inr ⟨_, _, hr, hf⟩
    | farFails hr => exact absurd (recvTasks_fails hr) hne
  unfold Packet.reads at hreads
  cases hst : w.far.recvState with
  | start =>
    left
    unfold Packet.recvTasks
    simp only [hst]
    split_ifs
    · exact ⟨PacketState.noConfusion, trivial⟩
    · exact ⟨PacketState.noConfusion, trivial⟩
  | waitHeader =>
    simp only [hst] at hl hreads
    subst hl
    rcases hreads with hr | ⟨b, rest, hr, hf⟩
    · left
      unfold Packet.recvTasks
      simp only [hst, hr]
      exact ⟨PacketState.noConfusion, trivial⟩
    · rw [hf] at hstream
      cases q with
      | nil => cases hstream
      | cons m q =>
        obtain ⟨rfl, -⟩ := List.cons.inj hstream
        rw [recvTasks_header hst hr (hc.short m List.mem_cons_self)]
        by_cases hdata : m.data = []
        · right
          exact ⟨if_pos hdata, m, q, rfl, rfl, (if_pos hdata).symm⟩
        · left
          refine ⟨?_, rfl⟩
          dsimp only
          rw [if_neg hdata]
          split_ifs <;> exact PacketState.noConfusion
  | waitData =>
    simp only [hst] at hl hreads
    obtain ⟨m, q, rfl, hdata, hh, rfl⟩ := hl
    rcases hreads with hr | ⟨b, rest, hr, hf⟩
    · left
      unfold Packet.recvTasks
      simp only [hst, hr]
      exact ⟨PacketState.noConfusion, trivial⟩
    · rw [List.flatMap_cons, hf] at hstream
      unfold Message.transfers at hstream
      rw [if_neg hdata] at hstream
      obtain ⟨-, hstream⟩ := List.cons.inj hstream
      obtain ⟨rfl, -⟩ := List.cons.inj hstream
      rw [recvTasks_data hst hh hr (hc.short m List.mem_cons_self)]
      exact .inr ⟨rfl, m, q, rfl, hh, (if_neg hdata).symm⟩
  | idle => exact absurd hst hlisten
  | error => exact absurd hst hnot

end Arrival

/-! ## A channel that is open -/

/-- The transfers of a call start when they are asked for, and none that ends has failed. -/
structure Transfers.Succeed (t : Transfers) : Prop where
  write : t.write = true
  read : t.read = true
  tx : t.txComplete ≠ some false
  rx : ∀ l, t.rxComplete ≠ some (false, l)

/-- The packet is one for the open channel: data, or an acknowledgement. -/
def Message.For (remote id : UInt32) (m : Message) : Prop :=
  (m.command = adbOkay ∧ m.data = []) ∨
    (m.command = adbWrte ∧ m.arg0 = remote ∧ m.arg1 = id ∧ m.data ≠ [])

instance (remote id : UInt32) (m : Message) : Decidable (m.For remote id) :=
  inferInstanceAs (Decidable (_ ∨ _))

variable {δ : Type*}

/-- What a packet for the channel `h` does to the client and to the receive buffer: the callback `f`
is given its data. -/
def RecvFunc.take (f : RecvFunc δ) (h : Handle) (s : δ × RecvBuffer) (m : Message) :
    Option (δ × RecvBuffer) :=
  if m.data = [] then some s
  else (f h (some (receive m.data s.2)) m.data.length s.1).map fun d => (d, receive m.data s.2)

/-- The channel `h` is open, with the ids `id` and `remote` and the callback `f`. -/
structure Layer.Open (h : Handle) (remote id : UInt32) (f : RecvFunc δ) (a : Layer δ) : Prop where
  state : (a.channels h).state = .idle ∨ (a.channels h).state = .waitReady
  localId : (a.channels h).localId = id
  remoteId : (a.channels h).remoteId = remote
  recvFunc : (a.channels h).recvFunc = some f
  index : (id &&& 0xFF).toNat = h

/-- The layer awaits a packet, and nothing has failed. -/
structure Layer.Polling (a : Layer δ) : Prop where
  refcount : a.bufferRefcount = 1
  sending : a.packet.sendState ≠ .error
  receiving : a.packet.recvState ≠ .error
  listening : a.packet.recvState ≠ .idle

namespace Layer

variable {a a' : Layer δ} {d d' : δ} {h : Handle} {t : Transfers} {remote id : UInt32}
  {f : RecvFunc δ}

/-- What handling a packet leaves as it is. -/
theorem handlePacket_frame (hr : a.handlePacket d = some (a', d')) :
    a'.packet = a.packet ∧ a'.bufferRefcount = a.bufferRefcount := by
  unfold handlePacket at hr
  dsimp only at hr
  split_ifs at hr
  · obtain ⟨rfl, -⟩ := Prod.mk.inj (Option.some.inj hr)
    exact ⟨rfl, rfl⟩
  · obtain ⟨rfl, -⟩ := Prod.mk.inj (Option.some.inj hr)
    exact ⟨rfl, rfl⟩
  · split at hr
    · obtain ⟨rfl, -⟩ := Prod.mk.inj (Option.some.inj hr)
      exact ⟨rfl, rfl⟩
    · obtain ⟨rfl, -⟩ := Prod.mk.inj (Option.some.inj hr)
      exact ⟨rfl, rfl⟩
  · split at hr
    · rcases closeChannel_cases hr with ⟨-, rfl⟩ | ⟨-, rfl⟩ <;> exact ⟨rfl, rfl⟩
    · obtain ⟨rfl, -⟩ := Prod.mk.inj (Option.some.inj hr)
      exact ⟨rfl, rfl⟩
  · split at hr
    · rcases writeChannel_cases hr with ⟨-, rfl, -⟩ | ⟨-, rfl, -⟩ <;> exact ⟨rfl, rfl⟩
    · obtain ⟨rfl, -⟩ := Prod.mk.inj (Option.some.inj hr)
      exact ⟨rfl, rfl⟩
  · obtain ⟨rfl, -⟩ := Prod.mk.inj (Option.some.inj hr)
    exact ⟨rfl, rfl⟩

/-- A packet connects the layer, or leaves the state of the connection alone. -/
theorem connState_handlePacket (hr : a.handlePacket d = some (a', d')) :
    a'.connState = a.connState ∨ a'.connState = .connected := by
  obtain ⟨a₁, hconn, h₁⟩ := a.handlePacket_eq
  rw [h₁] at hr
  obtain ⟨d₁, -, heq⟩ := Option.map_eq_some_iff.1 hr
  obtain ⟨rfl, -⟩ := Prod.mk.inj heq
  exact hconn

/-- A packet other than an `ADB_CNXN` leaves the state of the connection alone. -/
theorem connState_handlePacket_of_ne (hne : a.packet.recvHeader.command ≠ adbCnxn)
    (hr : a.handlePacket d = some (a', d')) : a'.connState = a.connState := by
  unfold handlePacket at hr
  dsimp only at hr
  rw [if_neg hne] at hr
  split_ifs at hr
  · obtain ⟨rfl, -⟩ := Prod.mk.inj (Option.some.inj hr)
    rfl
  · cases haddr : a.addressed a.packet.recvHeader.arg1 with
    | none =>
      rw [haddr] at hr
      obtain ⟨rfl, -⟩ := Prod.mk.inj (Option.some.inj hr)
      rfl
    | some h =>
      rw [haddr] at hr
      obtain ⟨rfl, -⟩ := Prod.mk.inj (Option.some.inj hr)
      rfl
  · cases haddr : a.addressed a.packet.recvHeader.arg1 with
    | none =>
      rw [haddr] at hr
      obtain ⟨rfl, -⟩ := Prod.mk.inj (Option.some.inj hr)
      rfl
    | some h =>
      rw [haddr] at hr
      rcases closeChannel_cases hr with ⟨-, rfl⟩ | ⟨-, rfl⟩ <;> rfl
  · cases haddr : a.addressed a.packet.recvHeader.arg1 with
    | none =>
      rw [haddr] at hr
      obtain ⟨rfl, -⟩ := Prod.mk.inj (Option.some.inj hr)
      rfl
    | some h =>
      rw [haddr] at hr
      rcases writeChannel_cases hr with ⟨-, rfl, -⟩ | ⟨-, rfl, -⟩ <;> rfl
  · obtain ⟨rfl, -⟩ := Prod.mk.inj (Option.some.inj hr)
    rfl

/-- An `ADB_CNXN` connects the layer. -/
theorem handlePacket_cnxn (hcommand : a.packet.recvHeader.command = adbCnxn) :
    a.handlePacket d = some ({ a with connState := .connected }, d) := if_pos hcommand

/-! ### The layer awaits packets -/

/-- **What the first part of `ADBTasks` receives**: no packet is complete yet, or the first of those
that are under way is, and it is handled and given up. -/
theorem Polling.receiveTasks {w w₁ : Wire} {q : List Message} (hp : a.Polling) (hc : Carries w q)
    (hfar : w.far = a.packet) (hs : Wire.Step w (.farTasks t) w₁) (ht : t.Succeed)
    (hr : a.receiveTasks t d = some (a', d')) :
    ∃ p : Packet, p.sendState ≠ .error ∧ p.recvState ≠ .error ∧
      Carries ⟨w.near, p, w₁.flight⟩ q ∧
      ((p.recvState ≠ .idle ∧ p.recvData = a.packet.recvData ∧ a' = { a with packet := p } ∧
          d' = d) ∨
        (p.recvState = .idle ∧ ∃ m r a₁, q = m :: r ∧ p.recvHeader = m.header ∧
          p.recvData =
            (if m.data = [] then a.packet.recvData else receive m.data a.packet.recvData) ∧
          ({ a with packet := p } : Layer δ).handlePacket d = some (a₁, d') ∧
          a' = a₁.bufferUnref)) := by
  obtain ⟨hw₁, hnear⟩ := far_of_farTasks hs
  rw [hfar] at hw₁
  have hsame : (a.packet.tasks t).SameRecv w₁.far := hw₁ ▸ Packet.sameRecv_tasks t a.packet
  have hne : (a.packet.recvTasks t).recvState ≠ .error := by
    have h := hc.recvTasks_ne_error hs (hfar ▸ hp.receiving) ht.read ht.rx
    rwa [hfar] at h
  have hsend : (a.packet.tasks t).sendState ≠ .error := by
    unfold Packet.tasks
    rw [Packet.sendState_recvTasks]
    exact sendTasks_ne_error hp.sending ht.write ht.tx
  have hrecv : (a.packet.tasks t).recvState ≠ .error := by rwa [hsame.state, hw₁]
  obtain ⟨q₁, hfold, hc₁⟩ := hc.step hs
  obtain rfl := Option.some.inj hfold
  have harrives := hc.arrives hs (hfar ▸ hp.listening) (hfar ▸ hne)
  rw [hfar, ← hw₁, ← hsame.state, ← hsame.header, ← hsame.data] at harrives
  unfold Layer.receiveTasks at hr
  dsimp only at hr
  rw [if_pos (by rw [hp.refcount]; exact Nat.one_pos)] at hr
  refine ⟨a.packet.tasks t, hsend, hrecv, hnear ▸ hc₁.congr hsame, ?_⟩
  rcases harrives with ⟨hbusy, hdata⟩ | ⟨hidle, m, r, rfl, hheader, hdata⟩
  · left
    have hstatus : (a.packet.tasks t).recvStatus = .busy := by
      unfold Packet.recvStatus
      cases hst : (a.packet.tasks t).recvState with
      | start | waitHeader | waitData => rfl
      | idle => exact absurd hst hbusy
      | error => exact absurd hst hrecv
    rw [hstatus] at hr
    obtain ⟨rfl, rfl⟩ := Prod.mk.inj (Option.some.inj hr)
    exact ⟨hbusy, hdata, rfl, rfl⟩
  · right
    rw [recvStatus_eq_ok.2 hidle] at hr
    obtain ⟨⟨a₁, d₁⟩, h₁, heq⟩ := Option.map_eq_some_iff.1 hr
    obtain ⟨rfl, rfl⟩ := Prod.mk.inj heq
    exact ⟨hidle, m, r, a₁, rfl, hheader, hdata, h₁, rfl⟩

/-- The layer gives up a packet and awaits the next one. -/
theorem bufferUnref_eq (hconn : a.connState = .connected) (href : a.bufferRefcount = 1) :
    a.bufferUnref = { a with bufferRefcount := 1, packet := a.packet.recv } := by
  unfold Layer.bufferUnref
  simp only [hconn, href, ne_eq, not_true_eq_false, if_false, if_true, Nat.sub_self]

/-- Sending for the channels: a message of one of them is sent, or none is. -/
theorem Polling.channelTasks (hp : a.Polling) :
    a.channelTasks.Polling ∧ a.channelTasks.packet.SameRecv a.packet ∧
      a.channelTasks.connState = a.connState ∧
      (a.channelTasks.channels = a.channels ∨ ∃ k, (a.channels k).message ≠ none ∧
        a.channelTasks.channels = Function.update a.channels k (a.channels k).sent) := by
  rcases a.channelTasks_cases with ⟨-, heq⟩ | ⟨herr, -⟩ | ⟨-, -, heq⟩ | ⟨-, k, m, -, hm, heq⟩
  · rw [heq]
    exact ⟨hp, .refl _, rfl, .inl rfl⟩
  · unfold Packet.sendStatus at herr
    cases hs : a.packet.sendState with
    | error => exact absurd hs hp.sending
    | start | waitHeader | waitData | idle =>
      rw [hs] at herr
      cases herr
  · rw [heq]
    exact ⟨hp, .refl _, rfl, .inl rfl⟩
  · rw [heq]
    exact ⟨⟨hp.refcount, PacketState.noConfusion, hp.receiving, hp.listening⟩, ⟨rfl, rfl, rfl⟩, rfl,
      .inr ⟨k, Option.ne_none_iff_exists'.2 ⟨m, hm⟩, rfl⟩⟩

theorem stateTasks_connected (hp : a.Polling) (hconn : a.connState = .connected) :
    a.stateTasks true d = some (1, a.channelTasks, d) := by
  unfold stateTasks connected
  simp only [hconn, hp.channelTasks.2.2.1, if_true]

/-- **What the first part of `ADBTasks` makes** of a layer, of the client and of the packets under
way: no packet is complete yet, or the first of them is, and it is handled and given up. -/
inductive Received (a : Layer δ) (d : δ) (q : List Message) : Layer δ → δ → List Message → Prop
  | busy {a' : Layer δ} (hchannels : a'.channels = a.channels) (hconn : a'.connState = a.connState)
      (hdata : a'.packet.recvData = a.packet.recvData) : Received a d q a' d q
  | packet {a₁ a' : Layer δ} {d' : δ} {m : Message} {q' : List Message} {p : Packet}
      (hq : q = m :: q') (hheader : p.recvHeader = m.header)
      (hdata : p.recvData =
        if m.data = [] then a.packet.recvData else receive m.data a.packet.recvData)
      (hhandle : ({ a with packet := p } : Layer δ).handlePacket d = some (a₁, d'))
      (hchannels : a'.channels = a₁.channels) (hconn : a'.connState = .connected)
      (hdata' : a'.packet.recvData = p.recvData) : Received a d q a' d' q'

/-- **A call of `ADBTasks`** of a layer that awaits packets, which are for its channels or, before
it is connected, connect it. -/
theorem Polling.tasks {w w₁ : Wire} {q : List Message} {r : ℤ} (hp : a.Polling)
    (hconn : a.connState = .connected ∨ a.connState = .waitConnect ∧ ∀ m ∈ q, m.command = adbCnxn)
    (hc : Carries w q) (hfar : w.far = a.packet) (hs : Wire.Step w (.farTasks t) w₁)
    (ht : t.Succeed) (hr : a.tasks true t d = some (r, a', d')) :
    ∃ a₁ q', a.Received d q a₁ d' q' ∧ a₁.Polling ∧
      Carries ⟨w.near, a₁.packet, w₁.flight⟩ q' ∧
      ((a₁.connState = .connected ∧ r = 1 ∧ a' = a₁.channelTasks) ∨
        (a₁.connState = .waitConnect ∧ r = 0 ∧ a' = a₁)) := by
  unfold Layer.tasks at hr
  rw [if_pos (hconn.symm.imp_left And.left), if_pos rfl] at hr
  obtain ⟨⟨a₁, d₁⟩, h₁, h₂⟩ := Option.bind_eq_some_iff.1 hr
  -- what is received
  have hfirst : ∃ q', a.Received d q a₁ d₁ q' ∧ a₁.Polling ∧
      Carries ⟨w.near, a₁.packet, w₁.flight⟩ q' ∧
      (a₁.connState = .connected ∨ a₁.connState = .waitConnect) := by
    obtain ⟨p, hsend, hrecv, hcarries, ⟨hbusy, hdata, rfl, rfl⟩ |
      ⟨hidle, m, q', a₂, rfl, hheader, hdata, hhandle, rfl⟩⟩ := hp.receiveTasks hc hfar hs ht h₁
    · exact ⟨q, .busy rfl rfl hdata, ⟨hp.refcount, hsend, hrecv, hbusy⟩, hcarries,
        hconn.imp_right And.left⟩
    · have hconn₂ : a₂.connState = .connected := by
        rcases hconn with hconn | ⟨hconn, hcnxn⟩
        · exact (connState_handlePacket hhandle).elim (·.trans hconn) id
        · have hcommand : p.recvHeader.command = adbCnxn :=
            hheader ▸ hcnxn m List.mem_cons_self
          rw [handlePacket_cnxn (a := { a with packet := p }) hcommand] at hhandle
          obtain ⟨rfl, -⟩ := Prod.mk.inj (Option.some.inj hhandle)
          rfl
      obtain ⟨hpacket, href⟩ := handlePacket_frame hhandle
      have hunref : a₂.bufferUnref = { a₂ with bufferRefcount := 1, packet := p.recv } := by
        rw [bufferUnref_eq hconn₂ (href.trans hp.refcount), hpacket]
      rw [hunref]
      exact ⟨q', .packet rfl hheader hdata hhandle rfl hconn₂ rfl,
        ⟨rfl, hsend, PacketState.noConfusion, PacketState.noConfusion⟩, hcarries.taken hidle,
        .inl hconn₂⟩
  -- what is sent
  obtain ⟨q', hreceived, hpoll, hcarries, hconn₁⟩ := hfirst
  refine ⟨a₁, q', ?_⟩
  rcases hconn₁ with hconn₁ | hconn₁
  · rw [stateTasks_connected hpoll hconn₁] at h₂
    obtain ⟨rfl, rfl, rfl⟩ := (Prod.mk.inj (Option.some.inj h₂)).imp_right Prod.mk.inj
    exact ⟨hreceived, hpoll, hcarries, .inl ⟨hconn₁, rfl, rfl⟩⟩
  · unfold stateTasks connected at h₂
    simp only [hconn₁, Option.some.injEq, Prod.mk.injEq] at h₂
    obtain ⟨rfl, rfl, rfl⟩ := h₂
    exact ⟨hreceived, hpoll, hcarries, .inr ⟨hconn₁, rfl, rfl⟩⟩

/-! ### A channel stays open -/

theorem addressed_eq (hid : (a.channels h).localId = id) (hindex : (id &&& 0xFF).toNat = h) :
    a.addressed id = some h := by
  have hh : (⟨(id &&& 0xFF).toNat, hindex ▸ h.isLt⟩ : Handle) = h := Fin.ext hindex
  unfold addressed
  dsimp only
  rw [dif_pos (hindex ▸ h.isLt)]
  simp only [hh]
  exact if_pos hid

theorem Open.congr (ho : a.Open h remote id f) (heq : a'.channels h = a.channels h) :
    a'.Open h remote id f := by
  refine ⟨?_, ?_, ?_, ?_, ho.index⟩
  all_goals rw [heq]
  · exact ho.state
  · exact ho.localId
  · exact ho.remoteId
  · exact ho.recvFunc

/-- An entry of the table is changed, and that of the channel stays open. -/
theorem Open.update (ho : a.Open h remote id f) {k : Handle} {c : Channel δ}
    (hset : a'.channels = Function.update a.channels k c)
    (hc : k = h → (c.state = .idle ∨ c.state = .waitReady) ∧ c.localId = id ∧
      c.remoteId = remote ∧ c.recvFunc = some f) : a'.Open h remote id f := by
  by_cases hk : k = h
  · obtain ⟨h1, h2, h3, h4⟩ := hc hk
    subst hk
    have hself : a'.channels k = c := by rw [hset, Function.update_self]
    exact ⟨hself ▸ h1, hself ▸ h2, hself ▸ h3, hself ▸ h4, ho.index⟩
  · exact ho.congr (by rw [hset, Function.update_of_ne (Ne.symm hk)])

theorem Open.channelTasks (ho : a.Open h remote id f) (hp : a.Polling) :
    a.channelTasks.Open h remote id f := by
  obtain ⟨-, -, -, heq | ⟨k, -, heq⟩⟩ := hp.channelTasks
  · exact ho.congr (by rw [heq])
  · refine ho.update heq ?_
    rintro rfl
    unfold Channel.sent
    rcases ho.state with hs | hs
    all_goals
      simp only [hs, reduceCtorEq, if_false]
      split_ifs
      · exact ⟨by simp, ho.localId, ho.remoteId, ho.recvFunc⟩
      · exact ⟨.inr rfl, ho.localId, ho.remoteId, ho.recvFunc⟩

/-- A packet for the channel is handled. -/
theorem Open.handlePacket (ho : a.Open h remote id f) {m : Message} (hm : m.For remote id)
    (hlen : m.data.length ≤ adbPacketMaxRecvDataBytes) (hh : a.packet.recvHeader = m.header)
    (hr : a.handlePacket d = some (a', d')) :
    a'.Open h remote id f ∧
      if m.data = [] then d' = d else f h (some a.packet.recvData) m.data.length d = some d' := by
  unfold Layer.handlePacket at hr
  rw [hh] at hr
  dsimp only [Message.header] at hr
  rcases hm with ⟨hcommand, hdata⟩ | ⟨hcommand, harg0, harg1, hdata⟩
  · rw [hcommand, if_neg (by decide), if_neg (by decide), if_pos rfl] at hr
    rw [if_pos hdata]
    split at hr
    · rename_i k _
      obtain ⟨rfl, rfl⟩ := Prod.mk.inj (Option.some.inj hr)
      refine ⟨ho.update rfl ?_, rfl⟩
      rintro rfl
      unfold okayChannel
      rcases ho.state with hs | hs
      all_goals
        simp only [hs, reduceCtorEq, if_false, true_and, false_and]
      · exact ⟨.inl trivial, ho.localId, ho.remoteId, ho.recvFunc⟩
      · split_ifs
        · exact ⟨.inl rfl, ho.localId, ho.remoteId, ho.recvFunc⟩
        · exact ⟨.inr hs, ho.localId, ho.remoteId, ho.recvFunc⟩
    · obtain ⟨rfl, rfl⟩ := Prod.mk.inj (Option.some.inj hr)
      exact ⟨ho, rfl⟩
  · have hpos : m.header.dataLength > 0 := by
      rw [gt_iff_lt, UInt32.lt_iff_toNat_lt, toNat_dataLength hlen]
      exact List.length_pos_iff.2 hdata
    rw [hcommand, if_neg (by decide), if_neg (by decide), if_neg (by decide), if_neg (by decide),
      if_pos rfl, harg0, harg1, addressed_eq ho.localId ho.index] at hr
    rw [if_neg hdata]
    rcases writeChannel_cases hr with ⟨hne, -, -⟩ | ⟨-, rfl, ⟨-, -, -, hcall⟩ | ⟨hnot, -⟩⟩
    · exact absurd ho.remoteId hne
    · refine ⟨ho.update rfl fun _ => ⟨ho.state, ho.localId, ho.remoteId, ho.recvFunc⟩, ?_⟩
      unfold callRecvFunc at hcall
      rw [ho.recvFunc, Option.bind_some] at hcall
      rwa [← toNat_dataLength hlen]
    · refine absurd ⟨?_, ?_, hpos⟩ hnot
      all_goals
        rcases ho.state with hs | hs
        all_goals
          rw [hs]
          decide

/-- **A call of `ADBTasks`** gives the callback of an open channel the data of the next packet that
is under way to it, or of none, and leaves the channel open. -/
theorem Open.tasks {w w₁ : Wire} {q : List Message} {r : ℤ} (ho : a.Open h remote id f)
    (hp : a.Polling) (hconn : a.connState = .connected) (hc : Carries w q) (hfar : w.far = a.packet)
    (hs : Wire.Step w (.farTasks t) w₁) (hq : ∀ m ∈ q, m.For remote id) (ht : t.Succeed)
    (hr : a.tasks true t d = some (r, a', d')) :
    r = 1 ∧ a'.Open h remote id f ∧ a'.Polling ∧ a'.connState = .connected ∧ ∃ ms q', q = ms ++ q' ∧
      Carries ⟨w.near, a'.packet, w₁.flight⟩ q' ∧
      ms.foldlM (f.take h) (d, a.packet.recvData) = some (d', a'.packet.recvData) := by
  obtain ⟨a₁, q', hreceived, hpoll, hcarries, hsent⟩ := hp.tasks (.inl hconn) hc hfar hs ht hr
  have hfirst : a₁.Open h remote id f ∧ a₁.connState = .connected ∧ ∃ ms, q = ms ++ q' ∧
      ms.foldlM (f.take h) (d, a.packet.recvData) = some (d', a₁.packet.recvData) := by
    cases hreceived with
    | busy hchannels hconn₁ hdata =>
      exact ⟨ho.congr (by rw [hchannels]), hconn₁.trans hconn, [], rfl,
        congrArg (fun rx => some (d, rx)) hdata.symm⟩
    | @packet a₂ _ _ m _ p hq' hheader hdata hhandle hchannels hconn₁ hdata' =>
      subst hq'
      have hon : ({ a with packet := p } : Layer δ).Open h remote id f := ho.congr rfl
      obtain ⟨hon₂, hcall⟩ := hon.handlePacket (hq m List.mem_cons_self)
        (hc.short m List.mem_cons_self) hheader hhandle
      refine ⟨hon₂.congr (by rw [hchannels]), hconn₁, [m], rfl, ?_⟩
      rw [hdata', List.foldlM_cons]
      unfold RecvFunc.take
      dsimp only at hcall ⊢
      by_cases hempty : m.data = []
      · rw [if_pos hempty] at hcall hdata ⊢
        rw [hcall]
        exact congrArg (fun rx => some (d, rx)) hdata.symm
      · rw [if_neg hempty] at hcall hdata ⊢
        rw [hdata] at hcall
        rw [hcall]
        exact congrArg (fun rx => some (d', rx)) hdata.symm
  obtain ⟨hon, hconn₁, ms, hms, hfold⟩ := hfirst
  obtain ⟨-, rfl, rfl⟩ | ⟨hnot, -⟩ := hsent
  · obtain ⟨hpoll', hsame, hconn', -⟩ := hpoll.channelTasks
    exact ⟨rfl, hon.channelTasks hpoll, hpoll', hconn'.trans hconn₁, ms, q', hms,
      hcarries.congr hsame, hsame.data ▸ hfold⟩
  · rw [hconn₁] at hnot
    cases hnot

end Layer

end TPadFire.Adb
