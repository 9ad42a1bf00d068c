import TPadFire.Adb.Connection
import TPadFire.Adb.Delivery

/-!
# From a device that is attached to an open channel

The packets by which the two ends of a link agree on a channel: each sends an `ADB_CNXN`, this layer
asks for a channel, and the other end answers with an `ADB_OKAY` (`Peer.Sends`). `Opening` lists the
states of the connection on the way. There is one lemma for each state of the layer: a call of
`ADBTasks` leaves the state as it is, or the packet that it takes leads to the next one. No callback
is called before the channel is open.
-/

namespace TPadFire.Adb

open Firmware (Byte)

variable {δ : Type*}

/-- A channel that has been asked for sends acknowledgements alone. -/
theorem Channel.sent_waitOpen {c : Channel δ} (hs : c.state = .waitOpen) (hm : c.message ≠ none) :
    c.sent.state = .waitOpen := by
  unfold message at hm
  unfold sent
  simp only [hs, reduceCtorEq, if_false] at hm ⊢
  split_ifs at hm ⊢
  · rfl
  · exact absurd rfl hm

namespace Layer

/-- The entries in use have the callback `f`, and ids that lead back to them. -/
def Table (f : RecvFunc δ) (a : Layer δ) : Prop :=
  ∀ h, (a.channels h).state ≠ .free →
    (a.channels h).recvFunc = some f ∧ ((a.channels h).localId &&& 0xFF).toNat = h

/-- The other end has been asked for the channel `h`, which has the id `id`. -/
structure Asked (h : Handle) (id : UInt32) (a : Layer δ) : Prop where
  state : (a.channels h).state = .waitOpen
  localId : (a.channels h).localId = id

variable {a a' : Layer δ} {d d' : δ} {h : Handle} {t : Transfers} {id : UInt32} {f : RecvFunc δ}
  {w w₁ : Wire} {q : List Message} {r : ℤ}

theorem Table.congr (hf : a.Table f) (hc : a'.channels = a.channels) : a'.Table f := by
  intro h
  rw [hc]
  exact hf h

theorem Asked.congr (ha : a.Asked h id) (hc : a'.channels = a.channels) : a'.Asked h id :=
  ⟨hc ▸ ha.state, hc ▸ ha.localId⟩

theorem table_zero (f : RecvFunc δ) (hc : a.channels = fun _ => .zero) : a.Table f := by
  intro h hne
  rw [hc] at hne
  exact absurd rfl hne

/-! ## Sending -/

theorem Table.channelTasks (hf : a.Table f) (hp : a.Polling) : a.channelTasks.Table f := by
  obtain ⟨-, -, -, heq | ⟨k, hm, heq⟩⟩ := hp.channelTasks
  · exact hf.congr heq
  · intro h hne
    rw [heq] at hne ⊢
    by_cases hk : h = k
    · subst hk
      rw [Function.update_self, Channel.recvFunc_sent, Channel.localId_sent]
      exact hf h (Channel.ne_free_of_message hm)
    · rw [Function.update_of_ne hk] at hne ⊢
      exact hf h hne

theorem Asked.channelTasks (ha : a.Asked h id) (hp : a.Polling) : a.channelTasks.Asked h id := by
  obtain ⟨-, -, -, heq | ⟨k, hm, heq⟩⟩ := hp.channelTasks
  · exact ha.congr heq
  · by_cases hk : h = k
    · subst hk
      constructor
      · rw [heq, Function.update_self]
        exact Channel.sent_waitOpen ha.state hm
      · rw [heq, Function.update_self, Channel.localId_sent]
        exact ha.localId
    · constructor
      · rw [heq, Function.update_of_ne hk]
        exact ha.state
      · rw [heq, Function.update_of_ne hk]
        exact ha.localId

/-- An empty table has nothing to send. -/
theorem Polling.channelTasks_zero (hp : a.Polling) (hc : a.channels = fun _ => .zero) :
    a.channelTasks.channels = fun _ => .zero := by
  obtain ⟨-, -, -, heq | ⟨k, hm, -⟩⟩ := hp.channelTasks
  · exact heq.trans hc
  · exact absurd (congrFun hc k ▸ rfl) (Channel.ne_free_of_message hm)

/-! ## The states of the layer -/

/-- A device is attached: the layer sends its `ADB_CNXN` and awaits that of the other end. -/
theorem tasks_waitAttach (hconn : a.connState = .waitAttach)
    (hr : a.tasks true t d = some (r, a', d')) :
    r = 0 ∧ d' = d ∧ a'.Polling ∧ a'.connState = .waitConnect ∧ a'.channels = a.channels ∧
      a'.packet.SameRecv a.packet.recv := by
  unfold tasks stateTasks connected at hr
  simp only [hconn, reduceCtorEq, or_self, if_false, if_true, Bool.false_eq_true, Option.some.injEq,
    Prod.mk.injEq] at hr
  obtain ⟨rfl, rfl, rfl⟩ := hr
  exact ⟨rfl, rfl, ⟨rfl, PacketState.noConfusion, PacketState.noConfusion, PacketState.noConfusion⟩,
    rfl, rfl, rfl, rfl, rfl⟩

/-- The layer awaits the `ADB_CNXN` of the other end. -/
theorem Polling.tasks_waitConnect (hp : a.Polling) (hconn : a.connState = .waitConnect)
    (hzero : a.channels = fun _ => .zero) (hc : Carries w q) (hq : ∀ m ∈ q, m.command = adbCnxn)
    (hfar : w.far = a.packet) (hs : Wire.Step w (.farTasks t) w₁) (ht : t.Succeed)
    (hr : a.tasks true t d = some (r, a', d')) :
    r ≠ -1 ∧ d' = d ∧ a'.Polling ∧ a'.channels = (fun _ => .zero) ∧
      ∃ q', Carries ⟨w.near, a'.packet, w₁.flight⟩ q' ∧
        ((a'.connState = .waitConnect ∧ q' = q) ∨
          (a'.connState = .connected ∧ ∃ m, q = m :: q')) := by
  obtain ⟨a₁, q', hreceived, hpoll, hcarries, hsent⟩ :=
    hp.tasks (.inr ⟨hconn, hq⟩) hc hfar hs ht hr
  cases hreceived with
  | busy hchannels hconn₁ =>
    obtain ⟨hnot, -⟩ | ⟨-, rfl, rfl⟩ := hsent
    · rw [hconn₁, hconn] at hnot
      cases hnot
    · exact ⟨by decide, rfl, hpoll, hchannels.trans hzero, q, hcarries,
        .inl ⟨hconn₁.trans hconn, rfl⟩⟩
  | @packet a₂ _ _ m _ p hq' hheader _ hhandle hchannels hconn₁ =>
    subst hq'
    have hcommand : p.recvHeader.command = adbCnxn := hheader ▸ hq m List.mem_cons_self
    rw [handlePacket_cnxn (a := { a with packet := p }) hcommand] at hhandle
    obtain ⟨rfl, rfl⟩ := Prod.mk.inj (Option.some.inj hhandle)
    obtain ⟨-, rfl, rfl⟩ | ⟨hnot, -⟩ := hsent
    · obtain ⟨hpoll', hsame, hconn', -⟩ := hpoll.channelTasks
      exact ⟨by decide, rfl, hpoll', hpoll.channelTasks_zero (hchannels.trans hzero), q',
        hcarries.congr hsame, .inr ⟨hconn'.trans hconn₁, m, rfl⟩⟩
    · rw [hconn₁] at hnot
      cases hnot

/-- The layer is connected, and no packet is under way. -/
theorem Polling.tasks_nil (hp : a.Polling) (hconn : a.connState = .connected) (hf : a.Table f)
    (hc : Carries w []) (hfar : w.far = a.packet) (hs : Wire.Step w (.farTasks t) w₁)
    (ht : t.Succeed) (hr : a.tasks true t d = some (r, a', d')) :
    r ≠ -1 ∧ d' = d ∧ a'.Polling ∧ a'.connState = .connected ∧ a'.Table f ∧
      Carries ⟨w.near, a'.packet, w₁.flight⟩ [] := by
  obtain ⟨a₁, q', hreceived, hpoll, hcarries, hsent⟩ := hp.tasks (.inl hconn) hc hfar hs ht hr
  cases hreceived with
  | busy hchannels hconn₁ =>
    obtain ⟨-, rfl, rfl⟩ | ⟨hnot, -⟩ := hsent
    · obtain ⟨hpoll', hsame, hconn', -⟩ := hpoll.channelTasks
      exact ⟨by decide, rfl, hpoll', hconn'.trans (hconn₁.trans hconn),
        (hf.congr hchannels).channelTasks hpoll, hcarries.congr hsame⟩
    · rw [hconn₁, hconn] at hnot
      cases hnot
  | packet hq' => cases hq'

/-- The layer awaits the answer of the other end, which is the packet `m`. -/
theorem Asked.tasks {m : Message} (ha : a.Asked h id) (hf : a.Table f) (hp : a.Polling)
    (hconn : a.connState = .connected) (hc : Carries w (m :: q)) (hcommand : m.command = adbOkay)
    (harg1 : m.arg1 = id) (hfar : w.far = a.packet) (hs : Wire.Step w (.farTasks t) w₁)
    (ht : t.Succeed) (hr : a.tasks true t d = some (r, a', d')) :
    r ≠ -1 ∧ d' = d ∧ a'.Polling ∧ a'.connState = .connected ∧
      ((a'.Asked h id ∧ a'.Table f ∧ Carries ⟨w.near, a'.packet, w₁.flight⟩ (m :: q)) ∨
        (a'.Open h m.arg0 id f ∧ Carries ⟨w.near, a'.packet, w₁.flight⟩ q)) := by
  have hused : (a.channels h).state ≠ .free := by
    rw [ha.state]
    exact ChanState.noConfusion
  obtain ⟨hrecvFunc, hindex⟩ := hf h hused
  rw [ha.localId] at hindex
  obtain ⟨a₁, q', hreceived, hpoll, hcarries, hsent⟩ := hp.tasks (.inl hconn) hc hfar hs ht hr
  cases hreceived with
  | busy hchannels hconn₁ =>
    obtain ⟨-, rfl, rfl⟩ | ⟨hnot, -⟩ := hsent
    · obtain ⟨hpoll', hsame, hconn', -⟩ := hpoll.channelTasks
      exact ⟨by decide, rfl, hpoll', hconn'.trans (hconn₁.trans hconn),
        .inl ⟨(ha.congr hchannels).channelTasks hpoll, (hf.congr hchannels).channelTasks hpoll,
          hcarries.congr hsame⟩⟩
    · rw [hconn₁, hconn] at hnot
      cases hnot
  | @packet a₂ _ _ m' _ p hq' hheader _ hhandle hchannels hconn₁ =>
    obtain ⟨rfl, rfl⟩ := List.cons.inj hq'
    have haddressed : ({ a with packet := p } : Layer δ).addressed id = some h :=
      addressed_eq ha.localId hindex
    unfold handlePacket at hhandle
    simp only [hheader, Message.header, hcommand, harg1, haddressed,
      show adbOkay ≠ adbCnxn by decide, show adbOkay ≠ adbOpenCommand by decide, if_false,
      if_true, Option.some.injEq, Prod.mk.injEq] at hhandle
    obtain ⟨rfl, rfl⟩ := hhandle
    have hopen : a₁.Open h m.arg0 id f := by
      have hself : a₁.channels h = { a.channels h with remoteId := m.arg0, state := .idle } := by
        rw [hchannels, channels_setChannel]
        exact if_pos ha.state
      exact ⟨hself ▸ .inl rfl, hself ▸ ha.localId, hself ▸ rfl, hself ▸ hrecvFunc, hindex⟩
    obtain ⟨-, rfl, rfl⟩ | ⟨hnot, -⟩ := hsent
    · obtain ⟨hpoll', hsame, hconn', -⟩ := hpoll.channelTasks
      exact ⟨by decide, rfl, hpoll', hconn'.trans hconn₁,
        .inr ⟨hopen.channelTasks hpoll, hcarries.congr hsame⟩⟩
    · rw [hconn₁] at hnot
      cases hnot

end Layer

/-! ## The connection -/

namespace Connection

/-- The USB host is setting up a device, or awaits one. -/
def Away (c : Connection δ) : Prop :=
  c.link = .detached ∨ (c.link = .configuring ∧ c.adbState = .disconnected)

/-- A device is attached, and the ADB layer awaits packets. -/
structure Up (c : Connection δ) : Prop where
  link : c.link = .running
  adbState : c.adbState ≠ .disconnected
  polling : c.adb.Polling

/-- A call of `ConnectionTasks` calls `ADBPacketTasks`. -/
def Polls (usb : UsbEvent) (c : Connection δ) : Prop :=
  usbHostTasks usb c.link = .running ∧ c.adbState ≠ .disconnected ∧
    (c.adb.connState = .waitConnect ∨ c.adb.connState = .connected)

instance (usb : UsbEvent) (c : Connection δ) : Decidable (c.Polls usb) :=
  inferInstanceAs (Decidable (_ ∧ _ ∧ (_ ∨ _)))

variable {c c' : Connection δ} {d d' : δ} {usb : UsbEvent} {t : Transfers} {fails : Bool}

theorem Up.polls (hc : c.Up) (husb : usb ≠ .detach)
    (hconn : c.adb.connState = .waitConnect ∨ c.adb.connState = .connected) : c.Polls usb :=
  ⟨(usbHostTasks_running_iff hc.link).2 husb, hc.adbState, hconn⟩

theorem Away.not_polls (hc : c.Away) : ¬ c.Polls usb := by
  rintro ⟨hlink, hstate, -⟩
  rcases hc with hdetached | ⟨-, hdisconnected⟩
  · rw [hdetached] at hlink
    cases usb <;> cases hlink
  · exact hstate hdisconnected

/-- The tasks of a device that is and stays attached are those of the ADB layer. -/
theorem connectionTasks_running (hlink : c.link = .running) (hstate : c.adbState ≠ .disconnected)
    (husb : usb ≠ .detach) (hr : c.connectionTasks usb t false d = some (c', d')) :
    ∃ r, c.adb.tasks true t d = some (r, c'.adb, d') ∧ (r ≠ -1 → c'.link = .running) ∧
      c'.adbState ≠ .disconnected := by
  obtain ⟨⟨c₁, d₁⟩, hadb, heq⟩ := Option.map_eq_some_iff.1 hr
  obtain ⟨rfl, rfl⟩ := Prod.mk.inj heq
  dsimp only
  rw [connAccessoryTasks_false]
  rcases connADBTasks_cases hadb with ⟨hl, -⟩ | ⟨-, hs, -⟩ | ⟨-, -, hs', r, htasks, hres⟩
  · exact absurd ((usbHostTasks_running_iff hlink).2 husb) hl
  · exact absurd hs hstate
  · exact ⟨r, htasks, fun hne => hres.trans (if_neg hne), hs'⟩

/-- With no device, the layer is left alone; with a new one, it is initialised. -/
theorem Away.connectionTasks (hc : c.Away)
    (hr : c.connectionTasks usb t false d = some (c', d')) :
    d' = d ∧ c'.adb.packet = c.adb.packet ∧
      (c'.Away ∨ (c'.link = .running ∧ c'.adbState ≠ .disconnected ∧
        c'.adb.connState = .waitAttach ∧ c'.adb.channels = fun _ => .zero)) := by
  obtain ⟨⟨c₁, d₁⟩, hadb, heq⟩ := Option.map_eq_some_iff.1 hr
  obtain ⟨rfl, rfl⟩ := Prod.mk.inj heq
  dsimp only
  rw [connAccessoryTasks_false]
  rcases connADBTasks_cases hadb with ⟨hl, rfl, rfl⟩ | ⟨hl, -, rfl, rfl⟩ | ⟨hl, hs, -⟩
  · refine ⟨rfl, rfl, .inl ?_⟩
    cases hlink : usbHostTasks usb c.link with
    | detached => exact .inl rfl
    | configuring => exact .inr ⟨rfl, rfl⟩
    | running => exact absurd hlink hl
  · exact ⟨rfl, rfl, .inr ⟨hl, AdbState.noConfusion, rfl, rfl⟩⟩
  · rcases hc with hdetached | ⟨-, hdisconnected⟩
    · dsimp only at hl
      rw [hdetached] at hl
      cases usb <;> cases hl
    · exact absurd hdisconnected hs

end Connection

/-! ## The other end -/

/-- How far the other end has come. -/
inductive Peer
  | silent
  | greeted
  /-- It has opened a channel, with the ids `remote` of its own and `id` of the layer. -/
  | answered (remote id : UInt32)

/-- What the other end may send to a layer: its `ADB_CNXN`, then its answer to a request, and then
packets for the channel. -/
inductive Peer.Sends (a : Layer δ) (m : Message) : Peer → Peer → Prop
  | greet (hcommand : m.command = adbCnxn) : Sends a m .silent .greeted
  | answer {h : Handle} (hcommand : m.command = adbOkay)
      (hasked : a.Asked h m.arg1) : Sends a m .greeted (.answered m.arg0 m.arg1)
  | talk {remote id : UInt32} (hm : m.For remote id) :
      Sends a m (.answered remote id) (.answered remote id)

/-- How far the other end is when it has sent a packet, if it may send it. -/
def Peer.next (a : Layer δ) (m : Message) : Peer → Option Peer
  | silent => if m.command = adbCnxn then some greeted else none
  | greeted =>
    if m.command = adbOkay ∧
        ∃ h, (a.channels h).state = .waitOpen ∧ (a.channels h).localId = m.arg1 then
      some (answered m.arg0 m.arg1)
    else none
  | answered remote id => if m.For remote id then some (answered remote id) else none

theorem Peer.sends_of_next {a : Layer δ} {m : Message} {peer peer' : Peer}
    (h : peer.next a m = some peer') : Peer.Sends a m peer peer' := by
  unfold next at h
  cases peer with
  | silent =>
    dsimp only at h
    split_ifs at h with hcommand
    obtain rfl := Option.some.inj h
    exact .greet hcommand
  | greeted =>
    dsimp only at h
    split_ifs at h with hanswer
    obtain rfl := Option.some.inj h
    obtain ⟨hcommand, k, hstate, hid⟩ := hanswer
    exact .answer hcommand ⟨hstate, hid⟩
  | answered remote id =>
    dsimp only at h
    split_ifs at h with hfor
    obtain rfl := Option.some.inj h
    exact .talk hfor

/-- The packets of the other end before it is connected. -/
inductive Peer.Greets : Peer → List Message → Prop
  | silent : Greets .silent []
  | greeted {m : Message} (hcommand : m.command = adbCnxn) : Greets .greeted [m]

theorem Peer.Greets.command {peer : Peer} {q : List Message} (hg : peer.Greets q) :
    ∀ m ∈ q, m.command = adbCnxn := by
  cases hg with
  | silent => exact fun m hm => absurd hm List.not_mem_nil
  | greeted hcommand =>
    intro m hm
    rwa [List.mem_singleton.1 hm]

/-- **The way to an open channel**: the states of the connection, with the packet layer as it will
be when it begins to receive, the state of the other end, and the packets that are under way. -/
inductive Opening (f : RecvFunc δ) (c : Connection δ) : Packet → Peer → List Message → Prop
  | away (hc : c.Away) : Opening f c c.adb.packet.recv .silent []
  | attached {peer : Peer} {q : List Message} (hlink : c.link = .running)
      (hstate : c.adbState ≠ .disconnected) (hconn : c.adb.connState = .waitAttach)
      (hzero : c.adb.channels = fun _ => .zero) (hgreets : peer.Greets q) :
      Opening f c c.adb.packet.recv peer q
  | waiting {peer : Peer} {q : List Message} (hup : c.Up) (hconn : c.adb.connState = .waitConnect)
      (hzero : c.adb.channels = fun _ => .zero) (hgreets : peer.Greets q) :
      Opening f c c.adb.packet peer q
  | asking (hup : c.Up) (hconn : c.adb.connState = .connected) (htable : c.adb.Table f) :
      Opening f c c.adb.packet .greeted []
  | answering {h : Handle} {m : Message} {q : List Message} (hup : c.Up)
      (hconn : c.adb.connState = .connected) (htable : c.adb.Table f)
      (hasked : c.adb.Asked h m.arg1) (hcommand : m.command = adbOkay)
      (hq : ∀ m' ∈ q, m'.For m.arg0 m.arg1) :
      Opening f c c.adb.packet (.answered m.arg0 m.arg1) (m :: q)

namespace Opening

variable {f : RecvFunc δ} {c c' : Connection δ} {p : Packet} {peer peer' : Peer}
  {q : List Message} {d d' : δ} {usb : UsbEvent} {t : Transfers} {near : Packet}
  {flight : List (List Byte)}

/-- The other end sends a packet. -/
theorem send {m : Message} (ho : Opening f c p peer q) (hlink : c.link = .running)
    (hs : Peer.Sends c.adb m peer peer') : Opening f c p peer' (q ++ [m]) := by
  cases hs with
  | greet hcommand =>
    cases ho with
    | away hc =>
      rcases hc with hdetached | ⟨hconfiguring, -⟩
      · exact absurd (hlink.symm.trans hdetached) Link.noConfusion
      · exact absurd (hlink.symm.trans hconfiguring) Link.noConfusion
    | attached _ hstate hconn hzero hgreets =>
      cases hgreets
      exact .attached hlink hstate hconn hzero (.greeted hcommand)
    | waiting hup hconn hzero hgreets =>
      cases hgreets
      exact .waiting hup hconn hzero (.greeted hcommand)
  | @answer h hcommand hasked =>
    -- nothing has been asked for while the table is empty
    have hnot {prop : Prop} (hzero : c.adb.channels = fun _ => .zero) : prop := by
      have hstate := hasked.state
      rw [hzero] at hstate
      cases hstate
    cases ho with
    | attached _ _ _ hzero _ => exact hnot hzero
    | waiting _ _ hzero _ => exact hnot hzero
    | asking hup hconn htable =>
      exact .answering hup hconn htable hasked hcommand fun m' hm' => absurd hm' List.not_mem_nil
  | talk hm =>
    cases ho with
    | attached _ _ _ _ hgreets => cases hgreets
    | waiting _ _ _ hgreets => cases hgreets
    | answering hup hconn htable hasked hcommand hq =>
      refine .answering hup hconn htable hasked hcommand fun m' hm' => ?_
      rcases List.mem_append.1 hm' with hold | hnew
      · exact hq m' hold
      · rwa [List.mem_singleton.1 hnew]

/-- A call of `ConnectionTasks` that does not call `ADBPacketTasks`. -/
theorem quiet (ho : Opening f c p peer q) (hc : Carries ⟨near, p, flight⟩ q)
    (hp : ¬ c.Polls usb) (husb : usb ≠ .detach)
    (hr : c.connectionTasks usb t false d = some (c', d')) :
    d' = d ∧ ∃ p', Opening f c' p' peer q ∧ Carries ⟨near, p', flight⟩ q := by
  cases ho with
  | away haway =>
    obtain ⟨rfl, hpacket, haway' | ⟨hlink, hstate, hconn, hzero⟩⟩ := haway.connectionTasks hr
    · exact ⟨rfl, _, .away haway', hpacket ▸ hc⟩
    · exact ⟨rfl, _, .attached hlink hstate hconn hzero .silent, hpacket ▸ hc⟩
  | attached hlink hstate hconn hzero hgreets =>
    obtain ⟨r, htasks, hlink', hstate'⟩ := Connection.connectionTasks_running hlink hstate husb hr
    obtain ⟨rfl, rfl, hpoll, hconn', hchannels, hsame⟩ := Layer.tasks_waitAttach hconn htasks
    exact ⟨rfl, _, .waiting ⟨hlink' (by decide), hstate', hpoll⟩ hconn' (hchannels.trans hzero)
      hgreets, hc.congr hsame⟩
  | waiting hup hconn => exact absurd (hup.polls husb (.inl hconn)) hp
  | asking hup hconn | answering hup hconn => exact absurd (hup.polls husb (.inr hconn)) hp

/-- A call of `ConnectionTasks` that calls `ADBPacketTasks`. -/
theorem poll {w₁ : Wire} (ho : Opening f c p peer q) (hc : Carries ⟨near, p, flight⟩ q)
    (hp : c.Polls usb) (husb : usb ≠ .detach) (ht : t.Succeed)
    (hs : Wire.Step ⟨near, c.adb.packet, flight⟩ (.farTasks t) w₁)
    (hr : c.connectionTasks usb t false d = some (c', d')) :
    d' = d ∧ ∃ ms q', q = ms ++ q' ∧ (∀ m ∈ ms, m.command ≠ adbWrte) ∧
      Carries ⟨near, c'.adb.packet, w₁.flight⟩ q' ∧
      (Opening f c' c'.adb.packet peer q' ∨
        ∃ h remote id, peer = .answered remote id ∧ c'.Up ∧ c'.adb.connState = .connected ∧
          c'.adb.Open h remote id f ∧ ∀ m ∈ q', m.For remote id) := by
  have hone {m : Message} {k : UInt32} (hm : m.command = k) (hk : k ≠ adbWrte) :
      ∀ m' ∈ [m], m'.command ≠ adbWrte := by
    intro m' hm'
    rw [List.mem_singleton.1 hm', hm]
    exact hk
  have hnone : ∀ m' ∈ ([] : List Message), m'.command ≠ adbWrte :=
    fun m' hm' => absurd hm' List.not_mem_nil
  cases ho with
  | away haway => exact absurd hp haway.not_polls
  | attached _ _ hconn =>
    rcases hp.2.2 with hconn' | hconn'
    · exact absurd (hconn.symm.trans hconn') ConnState.noConfusion
    · exact absurd (hconn.symm.trans hconn') ConnState.noConfusion
  | waiting hup hconn hzero hgreets =>
    obtain ⟨r, htasks, hlink', hstate'⟩ :=
      Connection.connectionTasks_running hup.link hup.adbState husb hr
    obtain ⟨hne, rfl, hpoll, hzero', q', hcarries, ⟨hconn', rfl⟩ | ⟨hconn', m, rfl⟩⟩ :=
      hup.polling.tasks_waitConnect hconn hzero hc hgreets.command rfl hs ht htasks
    · exact ⟨rfl, [], q', rfl, hnone, hcarries,
        .inl (.waiting ⟨hlink' hne, hstate', hpoll⟩ hconn' hzero' hgreets)⟩
    · cases hgreets with
      | greeted hcommand =>
        exact ⟨rfl, [m], [], rfl, hone hcommand (by decide), hcarries,
          .inl (.asking ⟨hlink' hne, hstate', hpoll⟩ hconn' (Layer.table_zero f hzero'))⟩
  | asking hup hconn htable =>
    obtain ⟨r, htasks, hlink', hstate'⟩ :=
      Connection.connectionTasks_running hup.link hup.adbState husb hr
    obtain ⟨hne, rfl, hpoll, hconn', htable', hcarries⟩ :=
      hup.polling.tasks_nil hconn htable hc rfl hs ht htasks
    exact ⟨rfl, [], [], rfl, hnone, hcarries,
      .inl (.asking ⟨hlink' hne, hstate', hpoll⟩ hconn' htable')⟩
  | @answering h m q hup hconn htable hasked hcommand hq =>
    obtain ⟨r, htasks, hlink', hstate'⟩ :=
      Connection.connectionTasks_running hup.link hup.adbState husb hr
    obtain ⟨hne, rfl, hpoll, hconn', ⟨hasked', htable', hcarries⟩ | ⟨hopen, hcarries⟩⟩ :=
      hasked.tasks htable hup.polling hconn hc hcommand rfl rfl hs ht htasks
    · exact ⟨rfl, [], m :: q, rfl, hnone, hcarries,
        .inl (.answering ⟨hlink' hne, hstate', hpoll⟩ hconn' htable' hasked' hcommand hq)⟩
    · exact ⟨rfl, [m], q, rfl, hone hcommand (by decide), hcarries,
        .inr ⟨h, m.arg0, m.arg1, rfl, ⟨hlink' hne, hstate', hpoll⟩, hconn', hopen, hq⟩⟩

end Opening

end TPadFire.Adb
