import TPadFire.Adb.Client

/-!
# Every channel gets its turn

A channel that has something to send keeps having it until it is served, or until it is given up:
the table is cleared, or the remote end closes the channel (`wants_apply`). As the channels are
served in turn, no other channel is served twice in the meantime, so that a channel waits for fewer
than `ADB_MAX_CHANNELS` packets (`served_within`).
-/

namespace TPadFire.Adb

open Firmware (Byte)
open RoundRobin (wait)

/-- A packet is sent. -/
def Event.isSent : Event → Bool
  | sent _ _ _ _ => true
  | opened _ | wrote _ _ | closing _ | received _ _ _ | cleared => false

/-- The event neither serves the channel `id` nor gives it up. -/
def Event.passes (id : UInt32) : Event → Bool
  | sent _ arg0 _ _ => arg0 != id
  | received command _ arg1 => command != adbClse || arg1 != id
  | cleared => false
  | opened _ | wrote _ _ | closing _ => true

theorem Event.passes_received {id command arg0 arg1 : UInt32} :
    (received command arg0 arg1).passes id = true ↔ ¬ (command = adbClse ∧ arg1 = id) := by
  simp [passes, or_iff_not_imp_left]

variable {δ : Type*} {c : Channel δ}

/-! ## What a channel has to send -/

theorem Channel.message_isSome_iff : c.message.isSome = true ↔
    c.state ≠ .free ∧ (c.state = .start ∨ c.pendingAck = true ∨ c.state = .closeRequested ∨
      (c.state = .idle ∧ c.data.isSome = true)) := by
  unfold message
  split_ifs with h1 h2 h3 h4
  · simp [h1]
  · simp [h2]
  · simp [h1, h3]
  · simp [h4]
  · split
    · rename_i hidle hdata
      simp [hidle, hdata]
    · rename_i hnot
      simp only [Option.isSome_none, Bool.false_eq_true, false_iff, h2, h3, h4, false_or, not_and]
      intro _ hidle hsome
      obtain ⟨data, hdata⟩ := Option.isSome_iff_exists.1 hsome
      exact hnot data hidle hdata

namespace Layer

variable {a a' : Layer δ} {d d' : δ} {h h' : Handle} {t : Transfers}

theorem wants_iff : a.wants h = true ↔
    (a.channels h).state ≠ .free ∧ ((a.channels h).state = .start ∨
      (a.channels h).pendingAck = true ∨ (a.channels h).state = .closeRequested ∨
      ((a.channels h).state = .idle ∧ (a.channels h).data.isSome = true)) :=
  Channel.message_isSome_iff

/-- The channel `h` of `a'` waits as in `a`: it has something to send if it had, under the same id,
and the cursor has not moved. -/
structure Waits (h : Handle) (a a' : Layer δ) : Prop where
  wants : a.wants h = true → a'.wants h = true
  localId : (a'.channels h).localId = (a.channels h).localId
  cursor : a'.currentChannel = a.currentChannel

theorem Waits.of_eq (hc : a'.channels = a.channels) (hn : a'.currentChannel = a.currentChannel) :
    Waits h a a' := by
  refine ⟨fun hw => ?_, by rw [hc], hn⟩
  unfold Layer.wants at hw ⊢
  rw [hc]
  exact hw

theorem Waits.trans {a₁ a₂ a₃ : Layer δ} (h₁ : Waits h a₁ a₂) (h₂ : Waits h a₂ a₃) :
    Waits h a₁ a₃ :=
  ⟨fun hw => h₂.wants (h₁.wants hw), h₂.localId.trans h₁.localId, h₂.cursor.trans h₁.cursor⟩

/-- An entry changes in a way that takes nothing from what it has to send. -/
theorem Waits.setChannel {c : Channel δ}
    (hc : h = h' → c.localId = (a.channels h).localId ∧
      ((a.channels h).message.isSome = true → c.message.isSome = true)) :
    Waits h a (a.setChannel h' c) := by
  by_cases hh : h = h'
  · obtain ⟨hid, hm⟩ := hc hh
    rw [← hh]
    refine ⟨fun hw => ?_, ?_, rfl⟩
    · unfold Layer.wants
      rw [channels_setChannel]
      exact hm hw
    · rw [channels_setChannel]
      exact hid
  · refine ⟨fun hw => ?_, ?_, rfl⟩
    · unfold Layer.wants
      rw [channels_setChannel_of_ne hh]
      exact hw
    · rw [channels_setChannel_of_ne hh]

/-! ## The steps -/

theorem okayChannel_message (arg0 : UInt32) (hm : c.message.isSome = true) :
    (okayChannel arg0 c).message.isSome = true := by
  rw [Channel.message_isSome_iff] at hm
  obtain ⟨hfree, hm⟩ := hm
  unfold okayChannel
  split_ifs with h1 h2
  · rw [Channel.message_isSome_iff]
    simp_all
  · rw [Channel.message_isSome_iff]
    simp_all
  · exact Channel.message_isSome_iff.2 ⟨hfree, hm⟩

/-- A packet leaves a channel with what it has to send, unless it closes it. -/
theorem waits_handlePacket (hp : a.handlePacket d = some (a', d'))
    (hclse : ¬ (a.packet.recvHeader.command = adbClse ∧
      a.packet.recvHeader.arg1 = (a.channels h).localId)) : Waits h a a' := by
  unfold handlePacket at hp
  dsimp only at hp
  split_ifs at hp with h1 h2 h3 h4 h5
  · obtain ⟨rfl, -⟩ := Prod.mk.inj (Option.some.inj hp)
    exact .of_eq rfl rfl
  · obtain ⟨rfl, -⟩ := Prod.mk.inj (Option.some.inj hp)
    exact .of_eq rfl rfl
  · split at hp
    · obtain ⟨rfl, -⟩ := Prod.mk.inj (Option.some.inj hp)
      refine .setChannel ?_
      rintro rfl
      refine ⟨?_, okayChannel_message _⟩
      unfold okayChannel
      split_ifs <;> rfl
    · obtain ⟨rfl, -⟩ := Prod.mk.inj (Option.some.inj hp)
      exact .of_eq rfl rfl
  · split at hp
    · rename_i h' haddr
      rcases closeChannel_cases hp with ⟨-, rfl⟩ | ⟨-, rfl⟩
      · exact .of_eq rfl rfl
      · refine .setChannel ?_
        rintro rfl
        exact absurd ⟨h4, (localId_of_addressed haddr).symm⟩ hclse
    · obtain ⟨rfl, -⟩ := Prod.mk.inj (Option.some.inj hp)
      exact .of_eq rfl rfl
  · split at hp
    · rename_i h' haddr
      rcases writeChannel_cases hp with ⟨-, rfl, -⟩ | ⟨-, rfl, -⟩
      · exact .of_eq rfl rfl
      · refine .setChannel ?_
        rintro rfl
        refine ⟨rfl, fun hm => ?_⟩
        rw [Channel.message_isSome_iff] at hm ⊢
        exact ⟨hm.1, .inr (.inl rfl)⟩
    · obtain ⟨rfl, -⟩ := Prod.mk.inj (Option.some.inj hp)
      exact .of_eq rfl rfl
  · obtain ⟨rfl, -⟩ := Prod.mk.inj (Option.some.inj hp)
    exact .of_eq rfl rfl

theorem waits_bufferUnref (a : Layer δ) : Waits h a a.bufferUnref := by
  unfold bufferUnref
  dsimp only
  split_ifs <;> exact .of_eq rfl rfl

/-- The first part of `ADBTasks`. -/
theorem waits_receiveTasks (hr : a.receiveTasks t d = some (a', d'))
    (hpass : ∀ p, a.handled t = some p →
      (Event.received p.command p.arg0 p.arg1).passes (a.channels h).localId = true) :
    Waits h a a' := by
  have hpacket : Waits h a { a with packet := a.packet.tasks t } := .of_eq rfl rfl
  unfold receiveTasks at hr
  dsimp only at hr
  split_ifs at hr with hcount
  · split at hr
    · obtain ⟨rfl, -⟩ := Prod.mk.inj (Option.some.inj hr)
      exact hpacket
    · obtain ⟨rfl, -⟩ := Prod.mk.inj (Option.some.inj hr)
      have herror : Waits h a { a with packet := a.packet.tasks t, connState := .error } :=
        .of_eq rfl rfl
      exact herror.trans (waits_bufferUnref _)
    · rename_i hst
      obtain ⟨⟨a₁, d₁⟩, hp, heq⟩ := Option.map_eq_some_iff.1 hr
      obtain ⟨rfl, -⟩ := Prod.mk.inj heq
      have hhandled := hpass _ (if_pos ⟨hcount, hst⟩)
      exact (hpacket.trans (waits_handlePacket hp (Event.passes_received.1 hhandled))).trans
        (waits_bufferUnref _)
  · obtain ⟨rfl, -⟩ := Prod.mk.inj (Option.some.inj hr)
    exact hpacket

/-- Serving another channel takes nothing from `h` and brings its turn nearer. -/
theorem wait_serve {m : UInt32 × UInt32 × List Byte} (hw : a.wants h = true)
    (hn : a.next = some h') (hne : h' ≠ h) :
    (a.serve h' m).wants h = true ∧ ((a.serve h' m).channels h).localId = (a.channels h).localId ∧
      1 + wait (a.serve h' m).currentChannel h ≤ wait a.currentChannel h := by
  have hch : (a.serve h' m).channels h = a.channels h := Function.update_of_ne hne.symm _ _
  refine ⟨?_, by rw [hch], ?_⟩
  · unfold wants at hw ⊢
    rw [hch]
    exact hw
  · have hlt := RoundRobin.wait_lt hn hw hne
    have hcur : (a.serve h' m).currentChannel = h' := rfl
    rw [hcur]
    omega

/-- What is left of the wait of the channel `h` after some events. -/
structure Nearer (h : Handle) (es : List Event) (a a' : Layer δ) : Prop where
  wants : a'.wants h = true
  localId : (a'.channels h).localId = (a.channels h).localId
  wait : es.countP Event.isSent + wait a'.currentChannel h ≤ wait a.currentChannel h

theorem Waits.nearer (hs : Waits h a a') (hw : a.wants h = true) {es : List Event}
    (hes : es.countP Event.isSent = 0) : Nearer h es a a' := by
  refine ⟨hs.wants hw, hs.localId, ?_⟩
  rw [hes, hs.cursor]
  omega

/-- The second part of `ADBTasks`. -/
theorem nearer_stateTasks (hw : a.wants h = true) {attached : Bool} {r : ℤ}
    (hr : a.stateTasks attached d = some (r, a', d'))
    (hpass : ∀ e ∈ a.stateEvents, e.passes (a.channels h).localId = true) :
    Nearer h a.stateEvents a a' := by
  unfold stateTasks at hr
  cases hs : a.connState with
  | waitAttach =>
    simp only [hs] at hr
    obtain ⟨-, rfl, -⟩ := (Prod.mk.inj (Option.some.inj hr)).imp_right Prod.mk.inj
    unfold stateEvents
    rw [hs]
    refine Waits.nearer ?_ hw rfl
    split_ifs <;> exact .of_eq rfl rfl
  | waitConnect =>
    simp only [hs] at hr
    obtain ⟨-, rfl, -⟩ := (Prod.mk.inj (Option.some.inj hr)).imp_right Prod.mk.inj
    unfold stateEvents
    rw [hs]
    exact Waits.nearer (.of_eq rfl rfl) hw rfl
  | connected =>
    simp only [hs] at hr
    obtain ⟨-, rfl, -⟩ := (Prod.mk.inj (Option.some.inj hr)).imp_right Prod.mk.inj
    rcases channelTasks_given hs with ⟨hes, heq | heq⟩ | ⟨h', m, hn, -, heq, hes⟩
    · rw [hes, heq]
      exact Waits.nearer (.of_eq rfl rfl) hw rfl
    · rw [hes, heq]
      have hwaits : Waits h a { a with connState := .error } := .of_eq rfl rfl
      exact hwaits.nearer hw rfl
    · rw [hes] at hpass ⊢
      rw [heq]
      have hne : h' ≠ h := by
        rintro rfl
        have hself := hpass _ (List.mem_singleton_self _)
        simp [Event.passes] at hself
      obtain ⟨hw', hid, hwait⟩ := wait_serve (m := m) hw hn hne
      exact ⟨hw', hid, hwait⟩
  | error =>
    unfold stateEvents at hpass
    rw [hs] at hpass
    exact absurd (hpass _ (List.mem_singleton_self _)) Bool.false_ne_true

/-- `ADBTasks` -/
theorem nearer_tasks (hw : a.wants h = true) {attached : Bool} {r : ℤ}
    (hr : a.tasks attached t d = some (r, a', d'))
    (hpass : ∀ e ∈ a.tasksEvents attached t d, e.passes (a.channels h).localId = true) :
    Nearer h (a.tasksEvents attached t d) a a' := by
  unfold tasks at hr
  unfold tasksEvents at hpass ⊢
  split_ifs at hr hpass ⊢ with hs hatt
  · obtain ⟨⟨a₁, d₁⟩, h₁, h₂⟩ := Option.bind_eq_some_iff.1 hr
    simp only [h₁, Option.map_some, Option.getD_some] at hpass ⊢
    have hwaits : Waits h a a₁ := by
      refine waits_receiveTasks h₁ fun p hp => hpass _ (List.mem_append_left _ ?_)
      rw [hp]
      exact List.mem_singleton_self _
    have hnear := nearer_stateTasks (hwaits.wants hw) h₂ fun e he => by
      rw [hwaits.localId]
      exact hpass e (List.mem_append_right _ he)
    refine ⟨hnear.wants, hnear.localId.trans hwaits.localId, ?_⟩
    have hnone : ((a.handled t).toList.map fun p =>
        Event.received p.command p.arg0 p.arg1).countP Event.isSent = 0 := by
      rw [List.countP_eq_zero]
      intro e he
      obtain ⟨p, -, rfl⟩ := List.mem_map.1 he
      exact Bool.false_ne_true
    have hwait := hnear.wait
    rw [hwaits.cursor] at hwait
    rw [List.countP_append, hnone]
    omega
  · exact absurd (hpass _ (List.mem_singleton_self _)) Bool.false_ne_true
  · exact nearer_stateTasks hw hr hpass

/-- An entry in use is not the one that `ADBOpen` takes. -/
theorem waits_adbOpen (hw : a.wants h = true) (name : List Byte) (f : RecvFunc δ) :
    Waits h a (a.adbOpen name f).2 := by
  unfold adbOpen
  split
  · rename_i h' hfree
    have hne : h ≠ h' := by
      rintro rfl
      have hstate := List.find?_some hfree
      exact (wants_iff.1 hw).1 (by simpa using hstate)
    exact (Waits.setChannel fun heq => absurd heq hne).trans (.of_eq rfl rfl)
  · exact .of_eq rfl rfl

theorem waits_adbWrite (h' : Handle) (data : List Byte) (a : Layer δ) :
    Waits h a (a.adbWrite h' data) := by
  refine .setChannel ?_
  rintro rfl
  refine ⟨rfl, fun hm => ?_⟩
  rw [Channel.message_isSome_iff] at hm ⊢
  exact ⟨hm.1, hm.2.imp_right <| Or.imp_right <| Or.imp_right fun hidle => ⟨hidle.1, rfl⟩⟩

theorem waits_adbClose (h' : Handle) (a : Layer δ) : Waits h a (a.adbClose h') := by
  unfold adbClose
  split_ifs with hfree
  · exact .of_eq rfl rfl
  · refine .setChannel ?_
    rintro rfl
    refine ⟨rfl, fun _ => ?_⟩
    rw [Channel.message_isSome_iff]
    simp

end Layer

open Layer

variable {a a' : Layer δ} {d d' : δ} {h : Handle}

/-- **A call of the layer** that neither serves nor gives up a channel that has something to send
brings its turn nearer by the packet that it sends. -/
theorem nearer_apply {op : Op δ} (hw : a.wants h = true) (hop : op.apply (a, d) = some (a', d'))
    (hpass : ∀ e ∈ op.events (a, d), e.passes (a.channels h).localId = true) :
    Nearer h (op.events (a, d)) a a' := by
  cases op with
  | adbInit => exact absurd (hpass _ (List.mem_singleton_self _)) Bool.false_ne_true
  | adbOpen name f =>
    obtain ⟨rfl, -⟩ := Prod.mk.inj (Option.some.inj hop)
    refine (waits_adbOpen hw name f).nearer hw ?_
    unfold Op.events
    dsimp only
    split <;> rfl
  | adbWrite h' data =>
    obtain ⟨rfl, -⟩ := Prod.mk.inj (Option.some.inj hop)
    refine (waits_adbWrite h' data a).nearer hw ?_
    unfold Op.events
    dsimp only
    split_ifs <;> rfl
  | adbClose h' =>
    obtain ⟨rfl, -⟩ := Prod.mk.inj (Option.some.inj hop)
    refine (waits_adbClose h' a).nearer hw ?_
    unfold Op.events
    dsimp only
    split_ifs <;> rfl
  | adbTasks attached t =>
    obtain ⟨⟨r, a₁, d₁⟩, htasks, heq⟩ := Option.map_eq_some_iff.1 hop
    obtain ⟨rfl, -⟩ := Prod.mk.inj heq
    exact nearer_tasks hw htasks hpass

/-- Along a run that neither serves nor gives up the channel, its turn comes nearer. -/
theorem nearer_run {ops : List (Op δ)} {es : List Event} {s s' : Layer δ × δ}
    (hr : (client δ).Emits (fun s op => op.events s) s ops es s') (hw : s.1.wants h = true)
    (hpass : ∀ e ∈ es, e.passes (s.1.channels h).localId = true) : Nearer h es s.1 s'.1 := by
  induction hr with
  | nil s => exact ⟨hw, rfl, by simp⟩
  | @cons s t u op ops es hstep _ ih =>
    have hfirst : Nearer h (op.events s) s.1 t.1 :=
      nearer_apply hw hstep fun e he => hpass e (List.mem_append_left _ he)
    have hrest := ih hfirst.wants fun e he => by
      rw [hfirst.localId]
      exact hpass e (List.mem_append_right _ he)
    refine ⟨hrest.wants, hrest.localId.trans hfirst.localId, ?_⟩
    have h₁ := hfirst.wait
    have h₂ := hrest.wait
    rw [List.countP_append]
    omega

/-- **Every channel gets its turn.** While a channel has something to send and is not given up, one
of any `ADB_MAX_CHANNELS` packets that the layer sends is for it. -/
theorem served_within {ops : List (Op δ)} {es : List Event}
    (hr : (client δ).Emits (fun s op => op.events s) (a, d) ops es (a', d'))
    (hw : a.wants h = true) (hcount : adbMaxChannels ≤ es.countP Event.isSent)
    (hclear : .cleared ∉ es)
    (hclse : ∀ arg0, .received adbClse arg0 (a.channels h).localId ∉ es) :
    ∃ command arg1 data, .sent command (a.channels h).localId arg1 data ∈ es := by
  by_contra hnot
  have hpass : ∀ e ∈ es, e.passes (a.channels h).localId = true := by
    intro e he
    cases e with
    | sent command arg0 arg1 data =>
      refine bne_iff_ne.2 ?_
      rintro rfl
      exact hnot ⟨command, arg1, data, he⟩
    | received command arg0 arg1 =>
      refine Event.passes_received.2 ?_
      rintro ⟨rfl, rfl⟩
      exact hclse arg0 he
    | cleared => exact absurd he hclear
    | opened _ | wrote _ _ | closing _ => rfl
  have hnear := (nearer_run hr hw hpass).wait
  dsimp only at hnear
  have hlt := RoundRobin.wait_lt_card a.currentChannel h
  omega

/-- All the channels have been asked for. -/
def crowded : Layer Unit :=
  ⟨.connected,
    fun h => ⟨.start, none, [0], UInt32.ofNat (h + 1) <<< 8 ||| .ofNat h, 0, false, none⟩, 1, 9,
    firstHandle,
    ⟨⟨0, 0, 0, 0, 0, 0⟩, ⟨0, 0, 0, 0, 0, 0⟩, .idle, .waitHeader, [], fun _ => 0⟩⟩

/-- What happens in 25 calls of `ADBTasks`: eight channels are served. -/
def crowdedEvents : List Event :=
  [.sent adbOpenCommand 513 0 [0], .sent adbOpenCommand 770 0 [0],
    .sent adbOpenCommand 1027 0 [0], .sent adbOpenCommand 1284 0 [0],
    .sent adbOpenCommand 1541 0 [0], .sent adbOpenCommand 1798 0 [0],
    .sent adbOpenCommand 2055 0 [0], .sent adbOpenCommand 256 0 [0]]

theorem served_within_crowded : ∃ a' d',
    (client Unit).Emits (fun s op => op.events s) (crowded, ())
      (List.replicate 25 (.adbTasks true ⟨true, some true, true, none⟩)) crowdedEvents (a', d') ∧
    ∃ command arg1 data, Event.sent command 1284 arg1 data ∈ crowdedEvents := by
  obtain ⟨⟨a', d'⟩, h⟩ : ∃ s', (client Unit).Emits (fun s op => op.events s) (crowded, ())
      (List.replicate 25 (.adbTasks true ⟨true, some true, true, none⟩)) crowdedEvents s' :=
    emits_of_performs _ _ (by decide +kernel)
  have hid : (crowded.channels ⟨4, by decide⟩).localId = 1284 := by decide
  have hclse : ∀ arg0, .received adbClse arg0 (crowded.channels ⟨4, by decide⟩).localId ∉
      crowdedEvents := by
    intro arg0 hmem
    simp [crowdedEvents] at hmem
  have hserved := served_within h (by decide) (by decide) (by decide) hclse
  rw [hid] at hserved
  exact ⟨a', d', h, hserved⟩

end TPadFire.Adb
