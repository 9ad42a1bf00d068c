import TPadFire.Adb.Client

/-!
# The calls of the callbacks

`ADBTasks` does two things: it changes the layer, and it calls the callbacks of the client. What it
does to the layer does not depend on what the callbacks do (`tasks_eq`): `notices` lists the calls,
each of them to a channel with data or with a null pointer, and the client's state is what the
callbacks make of it one after the other.

The call of a null pointer is the only thing that can go wrong, if the callbacks return. It does
(`tasks_eq_none_iff`): the entries of the table that have not been used since the table was cleared
are all zero, so that data for the channel 0 of the remote end 0 is for the first of them.
-/

namespace TPadFire.Adb

open Firmware (Byte RecvBuffer)

/-- A call of a callback, with data or with a null pointer. -/
structure Notice where
  handle : Handle
  data : Option (RecvBuffer × ℕ)

variable {δ : Type*}

namespace Layer

/-- The callback of a channel is called. -/
def notify (a : Layer δ) (d : δ) (n : Notice) : Option δ :=
  a.callRecvFunc n.handle (n.data.map Prod.fst) ((n.data.map Prod.snd).getD 0) d

/-- The callbacks are called, one after the other. -/
def notifyAll (a : Layer δ) (ns : List Notice) (d : δ) : Option δ := ns.foldlM a.notify d

/-- The call for an `ADB_CLSE` that addresses the entry `h`. -/
def closeNotices (h : Handle) (a : Layer δ) : List Notice :=
  match (a.channels h).state with
  | .waitOpen | .waitReady | .idle => [⟨h, none⟩]
  | .free | .start | .closeRequested | .waitClose => []

/-- The call for an `ADB_WRTE` that addresses the entry `h`. -/
def writeNotices (h : Handle) (arg0 dataLen : UInt32) (a : Layer δ) : List Notice :=
  let c := a.channels h
  if c.remoteId = arg0 ∧ c.state ≠ .closeRequested ∧ c.state ≠ .waitClose ∧ dataLen > 0 then
    [⟨h, some (a.packet.recvData, dataLen.toNat)⟩]
  else []

/-- The call of `ADBHandlePacket`. -/
def packetNotices (a : Layer δ) : List Notice :=
  let p := a.packet.recvHeader
  if p.command = adbClse then
    match a.addressed p.arg1 with
    | some h => a.closeNotices h
    | none => []
  else if p.command = adbWrte then
    match a.addressed p.arg1 with
    | some h => a.writeNotices h p.arg0 p.dataLength
    | none => []
  else []

/-- The calls of `ADBReset`. -/
def resetNotices (a : Layer δ) : List Notice :=
  ((List.finRange adbMaxChannels).filter fun h => (a.channels h).state ≠ .free).map (⟨·, none⟩)

/-- The calls of `ADBTasks`. -/
def notices (attached : Bool) (t : Transfers) (a : Layer δ) : List Notice :=
  if a.connState = .waitConnect ∨ a.connState = .connected then
    if attached then
      let a := { a with packet := a.packet.tasks t }
      if a.bufferRefcount > 0 then
        match a.packet.recvStatus with
        | .busy => []
        | .error => a.resetNotices
        | .ok => a.packetNotices
      else []
    else a.resetNotices
  else if a.connState = .error then a.resetNotices
  else []

variable {a a' : Layer δ} {d d' : δ} {h : Handle}

theorem notifyAll_nil (a : Layer δ) (d : δ) : a.notifyAll [] d = some d := rfl

theorem notifyAll_single (a : Layer δ) (n : Notice) (d : δ) :
    a.notifyAll [n] d = a.notify d n := by
  unfold notifyAll
  rw [List.foldlM_cons]
  cases a.notify d n <;> rfl

theorem notify_congr (hc : a'.channels = a.channels) : a'.notify = a.notify := by
  unfold notify callRecvFunc
  rw [hc]

/-! ## The layer and the calls -/

theorem closeChannel_eq (h : Handle) (a : Layer δ) :
    ∃ a', a'.connState = a.connState ∧
      ∀ d, a.closeChannel h d = (a.notifyAll (a.closeNotices h) d).map (a', ·) := by
  unfold closeChannel closeNotices
  cases (a.channels h).state with
  | waitOpen | waitReady | idle =>
    refine ⟨a.setChannel h { a.channels h with state := .free }, rfl, fun d => ?_⟩
    dsimp only
    rw [notifyAll_single]
    rfl
  | waitClose | closeRequested =>
    exact ⟨a.setChannel h { a.channels h with state := .free }, rfl, fun d => rfl⟩
  | free | start => exact ⟨a, rfl, fun d => rfl⟩

theorem writeChannel_eq (h : Handle) (arg0 dataLen : UInt32) (a : Layer δ) :
    ∃ a', a'.connState = a.connState ∧ ∀ d, a.writeChannel h arg0 dataLen d =
      (a.notifyAll (a.writeNotices h arg0 dataLen) d).map (a', ·) := by
  unfold writeChannel writeNotices
  by_cases hr : (a.channels h).remoteId = arg0
  · refine ⟨a.setChannel h { a.channels h with pendingAck := true }, rfl, fun d => ?_⟩
    simp only [hr, true_and, if_true]
    split_ifs
    · rw [notifyAll_single]
      rfl
    · rfl
  · refine ⟨a, rfl, fun d => ?_⟩
    simp only [hr, false_and, if_false]
    rfl

theorem packetNotices_of_ne (h4 : a.packet.recvHeader.command ≠ adbClse)
    (h5 : a.packet.recvHeader.command ≠ adbWrte) : a.packetNotices = [] := by
  unfold packetNotices
  rw [if_neg h4, if_neg h5]

theorem handlePacket_eq (a : Layer δ) :
    ∃ a', (a'.connState = a.connState ∨ a'.connState = .connected) ∧
      ∀ d, a.handlePacket d = (a.notifyAll a.packetNotices d).map (a', ·) := by
  unfold handlePacket
  dsimp only
  split_ifs with h1 h2 h3 h4 h5
  · rw [packetNotices_of_ne (by rw [h1]; decide) (by rw [h1]; decide)]
    exact ⟨{ a with connState := .connected }, .inr rfl, fun d => rfl⟩
  · rw [packetNotices_of_ne (by rw [h2]; decide) (by rw [h2]; decide)]
    exact ⟨a, .inl rfl, fun d => rfl⟩
  · rw [packetNotices_of_ne (by rw [h3]; decide) (by rw [h3]; decide)]
    cases a.addressed a.packet.recvHeader.arg1 with
    | some h =>
      exact ⟨a.setChannel h (okayChannel a.packet.recvHeader.arg0 (a.channels h)), .inl rfl,
        fun d => rfl⟩
    | none => exact ⟨a, .inl rfl, fun d => rfl⟩
  · unfold packetNotices
    rw [if_pos h4]
    cases a.addressed a.packet.recvHeader.arg1 with
    | some h =>
      obtain ⟨a', hs, ha'⟩ := a.closeChannel_eq h
      exact ⟨a', .inl hs, ha'⟩
    | none => exact ⟨a, .inl rfl, fun d => rfl⟩
  · unfold packetNotices
    rw [if_neg h4, if_pos h5]
    cases a.addressed a.packet.recvHeader.arg1 with
    | some h =>
      obtain ⟨a', hs, ha'⟩ :=
        a.writeChannel_eq h a.packet.recvHeader.arg0 a.packet.recvHeader.dataLength
      exact ⟨a', .inl hs, ha'⟩
    | none => exact ⟨a, .inl rfl, fun d => rfl⟩
  · rw [packetNotices_of_ne h4 h5]
    exact ⟨a, .inl rfl, fun d => rfl⟩

theorem adbReset_eq (a : Layer δ) :
    ∃ a', ∀ d, a.adbReset d = (a.notifyAll a.resetNotices d).map (a', ·) := by
  refine ⟨{ a with channels := fun _ => .zero, bufferRefcount := 0, connState := .waitAttach },
    fun d => ?_⟩
  have hfold (hs : List Handle) (d : δ) :
      hs.foldlM (fun d h => if (a.channels h).state = .free then some d
        else a.callRecvFunc h none 0 d) d =
      a.notifyAll ((hs.filter fun h => (a.channels h).state ≠ .free).map (⟨·, none⟩)) d := by
    induction hs generalizing d with
    | nil => rfl
    | cons h hs ih =>
      rw [List.foldlM_cons]
      by_cases hfree : (a.channels h).state = .free
      · rw [if_pos hfree, List.filter_cons_of_neg (by simp [hfree])]
        exact ih d
      · rw [if_neg hfree, List.filter_cons_of_pos (by simp [hfree]), List.map_cons]
        unfold notifyAll
        rw [List.foldlM_cons]
        change (a.callRecvFunc h none 0 d).bind _ = (a.callRecvFunc h none 0 d).bind _
        congr 1
        funext d₁
        exact ih d₁
  unfold adbReset
  rw [hfold]
  unfold resetNotices
  cases a.notifyAll _ d <;> rfl

theorem stateTasks_eq (hs : a.connState ≠ .error) (attached : Bool) :
    ∃ r a', ∀ d, a.stateTasks attached d = some (r, a', d) := by
  unfold stateTasks
  cases hc : a.connState with
  | error => exact absurd hc hs
  | waitAttach | waitConnect | connected => exact ⟨_, _, fun d => rfl⟩

theorem stateTasks_error (hs : a.connState = .error) (attached : Bool) :
    ∃ r a', ∀ d, a.stateTasks attached d = (a.notifyAll a.resetNotices d).map (r, a', ·) := by
  obtain ⟨a', ha'⟩ := a.adbReset_eq
  refine ⟨-1, a', fun d => ?_⟩
  unfold stateTasks
  rw [hs]
  dsimp only
  rw [ha', Option.map_map]
  rfl

theorem connState_bufferUnref (a : Layer δ) : a.bufferUnref.connState = a.connState := by
  unfold bufferUnref
  dsimp only
  split_ifs <;> rfl

theorem channels_bufferUnref (a : Layer δ) : a.bufferUnref.channels = a.channels := by
  unfold bufferUnref
  dsimp only
  split_ifs <;> rfl

/-- **The layer and the callbacks**: what `ADBTasks` does to the layer does not depend on the
callbacks, and what it does to the client is to call them. -/
theorem tasks_eq (attached : Bool) (t : Transfers) (a : Layer δ) :
    ∃ r a', ∀ d, a.tasks attached t d =
      (a.notifyAll (a.notices attached t) d).map (r, a', ·) := by
  unfold tasks notices
  by_cases hs : a.connState = .waitConnect ∨ a.connState = .connected
  · simp only [if_pos hs]
    have hne : a.connState ≠ .error := by
      rcases hs with hs | hs <;> rw [hs] <;> exact ConnState.noConfusion
    by_cases hatt : attached = true
    · simp only [if_pos hatt]
      unfold receiveTasks
      dsimp only
      by_cases href : a.bufferRefcount > 0
      · simp only [if_pos href]
        cases hst : (a.packet.tasks t).recvStatus with
        | busy =>
          obtain ⟨r, a', h⟩ :=
            stateTasks_eq (a := { a with packet := a.packet.tasks t }) hne attached
          exact ⟨r, a', h⟩
        | error =>
          obtain ⟨r, a', h⟩ := stateTasks_error
            (a := bufferUnref { a with packet := a.packet.tasks t, connState := .error })
            (connState_bufferUnref _) attached
          refine ⟨r, a', fun d => (h d).trans ?_⟩
          have hc := channels_bufferUnref
            { a with packet := a.packet.tasks t, connState := .error }
          have hnotices : resetNotices
              (bufferUnref { a with packet := a.packet.tasks t, connState := .error }) =
              a.resetNotices := by
            unfold resetNotices
            rw [hc]
          unfold notifyAll
          rw [hnotices, notify_congr (a := a) hc]
          rfl
        | ok =>
          obtain ⟨a₁, hs₁, h₁⟩ := handlePacket_eq { a with packet := a.packet.tasks t }
          have hne₁ : a₁.bufferUnref.connState ≠ .error := by
            rw [connState_bufferUnref]
            rcases hs₁ with hs₁ | hs₁ <;> rw [hs₁]
            · exact hne
            · exact ConnState.noConfusion
          obtain ⟨r, a', h⟩ := stateTasks_eq hne₁ attached
          refine ⟨r, a', fun d => ?_⟩
          dsimp only
          rw [h₁]
          have hc : notifyAll { a with packet := a.packet.tasks t } = a.notifyAll := rfl
          rw [hc]
          cases a.notifyAll _ d with
          | none => rfl
          | some d' => exact h d'
      · simp only [if_neg href]
        obtain ⟨r, a', h⟩ := stateTasks_eq (a := { a with packet := a.packet.tasks t }) hne attached
        exact ⟨r, a', h⟩
    · simp only [if_neg hatt]
      obtain ⟨a', h⟩ := a.adbReset_eq
      refine ⟨0, a', fun d => ?_⟩
      rw [h, Option.map_map]
      rfl
  · simp only [if_neg hs]
    by_cases herr : a.connState = .error
    · rw [if_pos herr]
      exact stateTasks_error herr attached
    · rw [if_neg herr]
      exact stateTasks_eq herr attached

end Layer

/-! ## What a call does to an entry -/

/-- What `ADBTasks` can do to an entry of the table, step by step. -/
inductive Change : Channel δ → Channel δ → Prop
  | sent {c : Channel δ} (h : c.state ≠ .free) : Change c c.sent
  | okay {c : Channel δ} (arg0 : UInt32) : Change c (Layer.okayChannel arg0 c)
  | acked {c : Channel δ} : Change c { c with pendingAck := true }
  | freed {c : Channel δ} : Change c { c with state := .free }
  | cleared {c : Channel δ} : Change c .zero

namespace Layer

section Entries

variable {a a' : Layer δ} {d d' : δ} {h : Handle} {t : Transfers} {p : Channel δ → Prop}

theorem entries_setChannel {c : Channel δ} (ha : ∀ h, p (a.channels h)) (hc : p c) (k : Handle) :
    ∀ h, p ((a.setChannel k c).channels h) := by
  intro h
  by_cases hk : h = k
  · rw [hk, channels_setChannel]
    exact hc
  · rw [channels_setChannel_of_ne hk]
    exact ha h

variable (hp : ∀ c c', Change c c' → p c → p c')
include hp

theorem entries_handlePacket (ha : ∀ h, p (a.channels h)) (hr : a.handlePacket d = some (a', d')) :
    ∀ h, p (a'.channels h) := by
  unfold handlePacket at hr
  dsimp only at hr
  split_ifs at hr with h1 h2 h3 h4 h5
  · obtain ⟨rfl, -⟩ := Prod.mk.inj (Option.some.inj hr)
    exact ha
  · obtain ⟨rfl, -⟩ := Prod.mk.inj (Option.some.inj hr)
    exact ha
  · split at hr
    · obtain ⟨rfl, -⟩ := Prod.mk.inj (Option.some.inj hr)
      exact entries_setChannel ha (hp _ _ (.okay _) (ha _)) _
    · obtain ⟨rfl, -⟩ := Prod.mk.inj (Option.some.inj hr)
      exact ha
  · split at hr
    · rcases closeChannel_cases hr with ⟨-, rfl⟩ | ⟨-, rfl⟩
      · exact ha
      · exact entries_setChannel ha (hp _ _ .freed (ha _)) _
    · obtain ⟨rfl, -⟩ := Prod.mk.inj (Option.some.inj hr)
      exact ha
  · split at hr
    · rcases writeChannel_cases hr with ⟨-, rfl, -⟩ | ⟨-, rfl, -⟩
      · exact ha
      · exact entries_setChannel ha (hp _ _ .acked (ha _)) _
    · obtain ⟨rfl, -⟩ := Prod.mk.inj (Option.some.inj hr)
      exact ha
  · obtain ⟨rfl, -⟩ := Prod.mk.inj (Option.some.inj hr)
    exact ha

theorem entries_adbReset (ha : ∀ h, p (a.channels h)) (hr : a.adbReset d = some (a', d')) :
    ∀ h, p (a'.channels h) := by
  obtain ⟨d₁, -, heq⟩ := Option.bind_eq_some_iff.1 hr
  obtain ⟨rfl, -⟩ := Prod.mk.inj (Option.some.inj heq)
  exact fun h => hp _ _ .cleared (ha h)

theorem entries_channelTasks (ha : ∀ h, p (a.channels h)) : ∀ h, p (a.channelTasks.channels h) := by
  rcases a.channelTasks_cases with ⟨-, heq⟩ | ⟨-, heq⟩ | ⟨-, -, heq⟩ | ⟨-, h, m, -, hm, heq⟩
  · rw [heq]
    exact ha
  · rw [heq]
    exact ha
  · rw [heq]
    exact ha
  · have hfree : (a.channels h).state ≠ .free := by
      intro hfree
      unfold Channel.message at hm
      rw [if_pos hfree] at hm
      cases hm
    rw [heq]
    exact entries_setChannel (a := sendFor (a.channels h) m.1 m.2.1 m.2.2
      { a with currentChannel := h }) ha (hp _ _ (.sent hfree) (ha h)) h

theorem entries_receiveTasks (ha : ∀ h, p (a.channels h))
    (hr : a.receiveTasks t d = some (a', d')) : ∀ h, p (a'.channels h) := by
  unfold receiveTasks at hr
  dsimp only at hr
  split_ifs at hr
  · split at hr
    · obtain ⟨rfl, -⟩ := Prod.mk.inj (Option.some.inj hr)
      exact ha
    · obtain ⟨rfl, -⟩ := Prod.mk.inj (Option.some.inj hr)
      rw [channels_bufferUnref]
      exact ha
    · obtain ⟨⟨a₁, d₁⟩, h₁, heq⟩ := Option.map_eq_some_iff.1 hr
      obtain ⟨rfl, -⟩ := Prod.mk.inj heq
      rw [channels_bufferUnref]
      exact entries_handlePacket hp (a := { a with packet := a.packet.tasks t }) ha h₁
  · obtain ⟨rfl, -⟩ := Prod.mk.inj (Option.some.inj hr)
    exact ha

theorem entries_stateTasks (ha : ∀ h, p (a.channels h)) {attached : Bool} {r : ℤ}
    (hr : a.stateTasks attached d = some (r, a', d')) : ∀ h, p (a'.channels h) := by
  unfold stateTasks at hr
  split at hr
  · obtain ⟨-, rfl, -⟩ := (Prod.mk.inj (Option.some.inj hr)).imp_right Prod.mk.inj
    split_ifs
    · exact ha
    · exact ha
  · obtain ⟨-, rfl, -⟩ := (Prod.mk.inj (Option.some.inj hr)).imp_right Prod.mk.inj
    exact ha
  · obtain ⟨-, rfl, -⟩ := (Prod.mk.inj (Option.some.inj hr)).imp_right Prod.mk.inj
    exact entries_channelTasks hp ha
  · obtain ⟨⟨a₁, d₁⟩, hreset, heq⟩ := Option.map_eq_some_iff.1 hr
    obtain ⟨-, rfl, -⟩ := (Prod.mk.inj heq).imp_right Prod.mk.inj
    exact entries_adbReset hp ha hreset

/-- **What every change keeps of an entry**, `ADBTasks` keeps of all of them. -/
theorem entries_tasks (ha : ∀ h, p (a.channels h)) {attached : Bool} {r : ℤ}
    (hr : a.tasks attached t d = some (r, a', d')) : ∀ h, p (a'.channels h) := by
  unfold tasks at hr
  split_ifs at hr
  · obtain ⟨⟨a₁, d₁⟩, h₁, h₂⟩ := Option.bind_eq_some_iff.1 hr
    exact entries_stateTasks hp (entries_receiveTasks hp ha h₁) h₂
  · obtain ⟨⟨a₁, d₁⟩, hreset, heq⟩ := Option.map_eq_some_iff.1 hr
    obtain ⟨-, rfl, -⟩ := (Prod.mk.inj heq).imp_right Prod.mk.inj
    exact entries_adbReset hp ha hreset
  · exact entries_stateTasks hp ha hr

end Entries

end Layer

/-! ## Null pointers -/

/-- The callback returns. -/
def RecvFunc.Total (f : RecvFunc δ) : Prop := ∀ h data n d, f h data n d ≠ none

/-- The callbacks that a call passes return. -/
def Op.Total : Op δ → Prop
  | .adbOpen _ recvFunc => RecvFunc.Total recvFunc
  | .adbInit | .adbWrite _ _ | .adbClose _ | .adbTasks _ _ => True

/-- An entry without a callback has not been used since the table was cleared. -/
structure Channel.Callable (c : Channel δ) : Prop where
  unused : c.recvFunc = none → c.state = .free ∧ c.localId = 0 ∧ c.remoteId = 0
  total : ∀ f, c.recvFunc = some f → RecvFunc.Total f

theorem Channel.callable_zero : (zero : Channel δ).Callable :=
  ⟨fun _ => ⟨rfl, rfl, rfl⟩, fun _ h => (by cases h)⟩

theorem Channel.Callable.change {c c' : Channel δ} (h : Change c c') (hc : c.Callable) :
    c'.Callable := by
  cases h with
  | sent hlive =>
    unfold Channel.sent
    have hne : c.recvFunc ≠ none := fun hnone => hlive (hc.unused hnone).1
    split_ifs <;> exact ⟨fun hnone => absurd hnone hne, hc.total⟩
  | okay arg0 =>
    unfold Layer.okayChannel
    split_ifs with h1 h2
    · refine ⟨fun hnone => ?_, hc.total⟩
      rw [(hc.unused hnone).1] at h1
      cases h1
    · refine ⟨fun hnone => ?_, hc.total⟩
      rw [(hc.unused hnone).1] at h2
      cases h2.1
    · exact hc
  | acked => exact ⟨hc.unused, hc.total⟩
  | freed => exact ⟨fun hnone => ⟨rfl, (hc.unused hnone).2⟩, hc.total⟩
  | cleared => exact callable_zero

namespace Layer

variable {a a' : Layer δ} {d d' : δ} {h : Handle} {t : Transfers}

/-- A call keeps the table callable. -/
theorem callable_apply {op : Op δ} (hop : op.Total) (ha : ∀ h, (a.channels h).Callable)
    (hr : op.apply (a, d) = some (a', d')) : ∀ h, (a'.channels h).Callable := by
  cases op with
  | adbInit =>
    obtain ⟨rfl, -⟩ := Prod.mk.inj (Option.some.inj hr)
    exact fun _ => Channel.callable_zero
  | adbOpen name f =>
    obtain ⟨rfl, -⟩ := Prod.mk.inj (Option.some.inj hr)
    unfold adbOpen
    split
    · refine entries_setChannel ha ⟨fun hnone => (by cases hnone), fun g hg => ?_⟩ _
      obtain rfl := Option.some.inj hg
      exact hop
    · exact ha
  | adbWrite k data =>
    obtain ⟨rfl, -⟩ := Prod.mk.inj (Option.some.inj hr)
    refine entries_setChannel ha ?_ k
    exact ⟨(ha k).unused, (ha k).total⟩
  | adbClose k =>
    obtain ⟨rfl, -⟩ := Prod.mk.inj (Option.some.inj hr)
    unfold adbClose
    split_ifs with hfree
    · exact ha
    · refine entries_setChannel ha ?_ k
      exact ⟨fun hnone => absurd ((ha k).unused hnone).1 hfree, (ha k).total⟩
  | adbTasks attached t =>
    obtain ⟨⟨r, a₁, d₁⟩, htasks, heq⟩ := Option.map_eq_some_iff.1 hr
    obtain ⟨rfl, -⟩ := Prod.mk.inj heq
    exact entries_tasks (fun _ _ hc => Channel.Callable.change hc) ha htasks

/-- Calls of callbacks fail only at a null pointer. -/
theorem notifyAll_eq_none_iff (ha : ∀ h, (a.channels h).Callable) {ns : List Notice} :
    a.notifyAll ns d = none ↔ ∃ n ∈ ns, (a.channels n.handle).recvFunc = none := by
  induction ns generalizing d with
  | nil => simp [notifyAll_nil]
  | cons n ns ih =>
    have hcons : a.notifyAll (n :: ns) d = (a.notify d n).bind (a.notifyAll ns) :=
      List.foldlM_cons ..
    rw [hcons, List.exists_mem_cons_iff]
    unfold notify callRecvFunc
    cases hf : (a.channels n.handle).recvFunc with
    | none => simp
    | some f =>
      rw [Option.bind_some]
      obtain ⟨d', hd'⟩ := Option.ne_none_iff_exists'.1
        ((ha n.handle).total f hf n.handle (n.data.map Prod.fst) ((n.data.map Prod.snd).getD 0) d)
      rw [hd', Option.bind_some, ih]
      simp

theorem addressed_zero_iff {arg1 : UInt32} (h0 : arg1 = 0) :
    a.addressed arg1 = some h ↔ (h : ℕ) = 0 ∧ (a.channels h).localId = 0 := by
  subst h0
  constructor
  · intro haddr
    refine ⟨?_, localId_of_addressed haddr⟩
    unfold addressed at haddr
    dsimp only at haddr
    split_ifs at haddr
    exact (congrArg Fin.val (Option.some.inj haddr)).symm
  · rintro ⟨hval, hid⟩
    have hh : h = firstHandle := Fin.ext hval
    subst hh
    unfold addressed
    dsimp only
    rw [dif_pos (by decide)]
    exact if_pos hid

/-- A free entry is called for data only. -/
theorem mem_packetNotices_iff {n : Notice} (hfree : (a.channels n.handle).state = .free) :
    n ∈ a.packetNotices ↔ a.packet.recvHeader.command = adbWrte ∧
      a.addressed a.packet.recvHeader.arg1 = some n.handle ∧
      (a.channels n.handle).remoteId = a.packet.recvHeader.arg0 ∧
      a.packet.recvHeader.dataLength > 0 ∧
      n.data = some (a.packet.recvData, a.packet.recvHeader.dataLength.toNat) := by
  obtain ⟨k, data⟩ := n
  dsimp only at hfree
  unfold packetNotices
  dsimp only
  by_cases h4 : a.packet.recvHeader.command = adbClse
  · rw [if_pos h4]
    refine iff_of_false (fun hmem => ?_) fun h => absurd (h4.symm.trans h.1) (by decide)
    cases ha : a.addressed a.packet.recvHeader.arg1 with
    | none =>
      rw [ha] at hmem
      exact absurd hmem List.not_mem_nil
    | some h =>
      rw [ha] at hmem
      dsimp only at hmem
      unfold closeNotices at hmem
      cases hs : (a.channels h).state <;> simp only [hs, List.mem_singleton, List.not_mem_nil,
        Notice.mk.injEq] at hmem
      all_goals
        rw [hmem.1, hs] at hfree
        cases hfree
  · rw [if_neg h4]
    by_cases h5 : a.packet.recvHeader.command = adbWrte
    · rw [if_pos h5]
      cases ha : a.addressed a.packet.recvHeader.arg1 with
      | none => simp
      | some h =>
        dsimp only
        unfold writeNotices
        dsimp only
        constructor
        · intro hmem
          split_ifs at hmem with hopen
          · obtain ⟨rfl, rfl⟩ := Notice.mk.inj (List.mem_singleton.1 hmem)
            exact ⟨h5, rfl, hopen.1, hopen.2.2.2, rfl⟩
          · exact absurd hmem List.not_mem_nil
        · rintro ⟨-, hk, hr, hlen, rfl⟩
          obtain rfl := Option.some.inj hk
          rw [if_pos ⟨hr, by rw [hfree]; decide, by rw [hfree]; decide, hlen⟩]
          exact List.mem_singleton_self _
    · rw [if_neg h5]
      exact iff_of_false List.not_mem_nil fun h => h5 h.1

/-- A call in a table that is callable reaches a null pointer in one way only. -/
theorem notices_null_iff (ha : ∀ h, (a.channels h).Callable) {attached : Bool} :
    (∃ n ∈ a.notices attached t, (a.channels n.handle).recvFunc = none) ↔
      (a.connState = .waitConnect ∨ a.connState = .connected) ∧ attached = true ∧
      ∃ p, a.handled t = some p ∧ p.command = adbWrte ∧ p.arg0 = 0 ∧ p.arg1 = 0 ∧
        p.dataLength > 0 ∧ (a.channels firstHandle).recvFunc = none := by
  have hreset {n : Notice} (hn : n ∈ a.resetNotices)
      (hnull : (a.channels n.handle).recvFunc = none) : False := by
    obtain ⟨k, hk, rfl⟩ := List.mem_map.1 hn
    have hlive := (List.mem_filter.1 hk).2
    exact absurd ((ha k).unused hnull).1 (by simpa using hlive)
  unfold notices handled
  by_cases hs : a.connState = .waitConnect ∨ a.connState = .connected
  · rw [if_pos hs]
    by_cases hatt : attached = true
    · rw [if_pos hatt]
      dsimp only
      by_cases href : a.bufferRefcount > 0
      · rw [if_pos href]
        cases hst : (a.packet.tasks t).recvStatus with
        | busy =>
          refine iff_of_false (fun ⟨n, hn, _⟩ => absurd hn List.not_mem_nil) ?_
          rintro ⟨-, -, p, hp, -⟩
          simp at hp
        | error =>
          refine iff_of_false (fun ⟨n, hn, hnull⟩ => hreset hn hnull) ?_
          rintro ⟨-, -, p, hp, -⟩
          simp at hp
        | ok =>
          have hmem {n : Notice} (hnull : (a.channels n.handle).recvFunc = none) :=
            mem_packetNotices_iff (a := { a with packet := a.packet.tasks t }) (n := n)
              ((ha n.handle).unused hnull).1
          rw [if_pos ⟨href, rfl⟩]
          constructor
          · rintro ⟨n, hn, hnull⟩
            obtain ⟨-, hid, hremote⟩ := (ha n.handle).unused hnull
            obtain ⟨hcommand, haddr, hr, hlen, -⟩ := (hmem hnull).1 hn
            have harg1 : (a.packet.tasks t).recvHeader.arg1 = 0 :=
              (localId_of_addressed haddr).symm.trans hid
            have hval := ((addressed_zero_iff harg1).1 haddr).1
            have hzero : n.handle = firstHandle := Fin.ext hval
            rw [hzero] at hnull
            exact ⟨hs, hatt, _, rfl, hcommand, hr.symm.trans hremote, harg1, hlen, hnull⟩
          · rintro ⟨-, -, p, hp, hcommand, harg0, harg1, hlen, hnull⟩
            obtain rfl := Option.some.inj hp
            obtain ⟨-, hid, hremote⟩ := (ha firstHandle).unused hnull
            refine ⟨⟨firstHandle, some (_, _)⟩,
              (hmem hnull).2 ⟨hcommand, ?_, ?_, hlen, rfl⟩, hnull⟩
            · exact (addressed_zero_iff harg1).2 ⟨rfl, hid⟩
            · exact hremote.trans harg0.symm
      · rw [if_neg href]
        refine iff_of_false (fun ⟨n, hn, _⟩ => absurd hn List.not_mem_nil) ?_
        rintro ⟨-, -, p, hp, -⟩
        simp [href] at hp
    · rw [if_neg hatt]
      exact iff_of_false (fun ⟨n, hn, hnull⟩ => hreset hn hnull) fun h => hatt h.2.1
  · rw [if_neg hs]
    refine iff_of_false (fun ⟨n, hn, hnull⟩ => ?_) fun h => hs h.1
    split_ifs at hn
    · exact hreset hn hnull
    · exact absurd hn List.not_mem_nil

end Layer

/-- **When `ADBTasks` calls a null pointer**: in every state that calls with callbacks that return
lead to, it does so if and only if the packet that arrives is an `ADB_WRTE` with data from the
remote end 0 for the channel 0 and the first entry has not been used since the table was cleared. -/
theorem tasks_eq_none_iff {a₀ a : Layer δ} {d₀ d : δ} {ops : List (Op δ)}
    (h₀ : ∀ h, a₀.channels h = .zero) (hr : (client δ).Run (a₀, d₀) ops (a, d))
    (hops : ∀ op ∈ ops, op.Total) (attached : Bool) (t : Transfers) :
    a.tasks attached t d = none ↔
      (a.connState = .waitConnect ∨ a.connState = .connected) ∧ attached = true ∧
      ∃ p, a.handled t = some p ∧ p.command = adbWrte ∧ p.arg0 = 0 ∧ p.arg1 = 0 ∧
        p.dataLength > 0 ∧ (a.channels firstHandle).recvFunc = none := by
  have ha : ∀ h, (a.channels h).Callable := by
    refine hr.invariant_mem (I := fun s => ∀ h, (s.1.channels h).Callable)
      (fun s op s' hop hc hstep => Layer.callable_apply (hops op hop) hc hstep) fun h => ?_
    dsimp only
    rw [h₀]
    exact Channel.callable_zero
  obtain ⟨r, a', heq⟩ := a.tasks_eq attached t
  rw [heq, Option.map_eq_none_iff, Layer.notifyAll_eq_none_iff ha, Layer.notices_null_iff ha]

/-- The remote end 0 sends data to the channel 0 before the connection is set up. -/
def intrusion : List (Op Unit) :=
  [.adbInit, .adbTasks true (smooth none), .adbTasks true (smooth none),
    .adbTasks true (smooth (some (Message.header ⟨adbWrte, 0, 0, [7]⟩).toBytes))]

theorem tasks_eq_none_intrusion : ∃ (a : Layer Unit) (d : Unit),
    (client Unit).Run (Layer.loaded, ()) intrusion (a, d) ∧
      a.tasks true (smooth (some [7])) d = none := by
  have hrun : (Lts.perform Op.apply (fun s op => op.events s) intrusion (Layer.loaded, ())).map
      (fun r => (r.1.1.connState, r.1.1.handled (smooth (some [7])),
        (r.1.1.channels firstHandle).recvFunc.isNone)) =
      some (.waitConnect, some (Message.header ⟨adbWrte, 0, 0, [7]⟩), true) := by decide +kernel
  obtain ⟨⟨⟨a, d⟩, es⟩, h, heq⟩ := Option.map_eq_some_iff.1 hrun
  simp only [Prod.mk.injEq, Option.isNone_iff_eq_none] at heq
  obtain ⟨hconn, hhandled, hnull⟩ := heq
  have hr : (client Unit).Run (Layer.loaded, ()) intrusion (a, d) :=
    (Lts.emits_of_perform (fun _ _ _ happly => happly) h).run
  have hops : ∀ op ∈ intrusion, op.Total := by
    intro op hop
    simp only [intrusion, List.mem_cons, List.not_mem_nil, or_false] at hop
    rcases hop with rfl | rfl | rfl | rfl <;> exact trivial
  exact ⟨a, d, hr, (tasks_eq_none_iff (fun _ => rfl) hr hops true _).2
    ⟨.inl hconn, rfl, _, hhandled, rfl, rfl, rfl, by decide, hnull⟩⟩

end TPadFire.Adb
