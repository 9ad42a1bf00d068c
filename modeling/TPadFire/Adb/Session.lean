import TPadFire.Adb.Client

/-!
# The sessions of the channels

A `Session` is what the remote end and the client may expect of one channel, named by its local id,
from `ADBOpen` on. `Session.step` is the rule: the channel is asked for at most once, before all
else that is sent for it, and no more once the client has closed it (an `ADB_CLSE` then goes out all
the same); data goes out only when it has been written by the client, to the stream that the remote end
has announced, and when the remote end has taken what went out before; what has gone out and been
taken does not go out again; acknowledgements are at most as many as the data packets that came in;
the channel is closed only when the client has asked for it, and nothing is sent once it is over.

The table of `adb.c` keeps the rule for all its channels, whatever the client calls and whatever
arrives in whatever order (`client_allowed`), as long as the counter of the local ids has not come
round. The proof relates an entry of the table to the session of its id (`Matches`) and carries
that along (`Tracks`).
-/

namespace TPadFire.Adb

open Firmware (Byte)

/-! ## The rule -/

/-- How far a channel has come. -/
inductive Stage
  | fresh
  | requested
  | opening
  | opened
  | closing
  | closed
  | over
  deriving DecidableEq

/-- What has happened to a channel. -/
structure Session where
  stage : Stage
  /-- The id that the remote end has given the channel. -/
  remote : Option UInt32
  /-- The remote end has taken all the data that was sent. -/
  credit : Bool
  /-- The number of data packets that have come in and are not acknowledged. -/
  owed : ℕ
  /-- The data that the client has written and that is not known to be taken. -/
  queued : Option (List Byte)
  deriving DecidableEq

namespace Session

/-- A channel that there has not been yet. -/
def new : Session := ⟨.fresh, none, false, 0, none⟩

/-- The session after a packet from the remote end. -/
def receive (command arg0 : UInt32) (s : Session) : Session :=
  if command = adbOkay then
    if s.stage = .opening then { s with stage := .opened, remote := some arg0, credit := true }
    else if s.stage = .opened ∧ s.credit = false ∧ s.remote = some arg0 then
      { s with credit := true, queued := none }
    else s
  else if command = adbClse then
    if s.stage = .fresh ∨ s.stage = .requested then s else { s with stage := .over }
  else if command = adbWrte then
    if s.stage = .fresh ∨ s.stage = .over then s else { s with owed := s.owed + 1 }
  else s

/-- The session after a packet to the remote end, if it is allowed. -/
def send (command arg1 : UInt32) (data : List Byte) (s : Session) : Option Session :=
  if command = adbOpenCommand then
    if s.stage = .requested then some { s with stage := .opening } else none
  else if command = adbWrte then
    if s.stage = .opened ∧ s.credit = true ∧ s.remote = some arg1 ∧ s.queued = some data then
      some { s with credit := false }
    else none
  else if s.remote = none ∨ s.remote = some arg1 then
    if command = adbOkay then
      if s.stage = .fresh ∨ s.stage = .requested ∨ s.stage = .over ∨ s.owed = 0 then none
      else some { s with owed := s.owed - 1 }
    else if command = adbClse then
      if s.stage = .closing then some { s with stage := .closed } else none
    else none
  else none

/-- **The rule of a session**: the next state of the channel `id`, if the event is allowed. -/
def step (id : UInt32) (s : Session) : Event → Option Session
  | .opened i =>
    if i = id then if s.stage = .fresh then some ⟨.requested, none, false, 0, none⟩ else none
    else some s
  | .wrote i data => some (if i = id then { s with queued := some data } else s)
  | .closing i =>
    some (if i = id ∧ s.stage ≠ .fresh ∧ s.stage ≠ .over then { s with stage := .closing } else s)
  | .sent command arg0 arg1 data => if arg0 = id then s.send command arg1 data else some s
  | .received command arg0 arg1 => some (if arg1 = id then s.receive command arg0 else s)
  | .cleared => some (if s.stage = .fresh then s else { s with stage := .over })

section Packets

variable (s : Session) (arg : UInt32) (data : List Byte)

theorem send_open : s.send adbOpenCommand arg data =
    if s.stage = .requested then some { s with stage := .opening } else none := if_pos rfl

theorem send_wrte : s.send adbWrte arg data =
    if s.stage = .opened ∧ s.credit = true ∧ s.remote = some arg ∧ s.queued = some data then
      some { s with credit := false }
    else none := by
  unfold send
  rw [if_neg (by decide), if_pos rfl]

theorem send_okay (h : s.remote = none ∨ s.remote = some arg) : s.send adbOkay arg data =
    if s.stage = .fresh ∨ s.stage = .requested ∨ s.stage = .over ∨ s.owed = 0 then none
    else some { s with owed := s.owed - 1 } := by
  unfold send
  rw [if_neg (by decide), if_neg (by decide), if_pos h, if_pos rfl]

theorem send_clse (h : s.remote = none ∨ s.remote = some arg) : s.send adbClse arg data =
    if s.stage = .closing then some { s with stage := .closed } else none := by
  unfold send
  rw [if_neg (by decide), if_neg (by decide), if_pos h, if_neg (by decide), if_pos rfl]

theorem receive_okay : s.receive adbOkay arg =
    if s.stage = .opening then { s with stage := .opened, remote := some arg, credit := true }
    else if s.stage = .opened ∧ s.credit = false ∧ s.remote = some arg then
      { s with credit := true, queued := none }
    else s := if_pos rfl

theorem receive_clse : s.receive adbClse arg =
    if s.stage = .fresh ∨ s.stage = .requested then s else { s with stage := .over } := by
  unfold receive
  rw [if_neg (by decide), if_pos rfl]

theorem receive_wrte : s.receive adbWrte arg =
    if s.stage = .fresh ∨ s.stage = .over then s else { s with owed := s.owed + 1 } := by
  unfold receive
  rw [if_neg (by decide), if_neg (by decide), if_pos rfl]

/-- Other packets are not for a channel. -/
theorem receive_other {command : UInt32} (h1 : command ≠ adbOkay) (h2 : command ≠ adbClse)
    (h3 : command ≠ adbWrte) : s.receive command arg = s := by
  unfold receive
  rw [if_neg h1, if_neg h2, if_neg h3]

end Packets

/-- What comes in makes no channel. -/
theorem receive_fresh {command arg0 : UInt32} {s : Session} :
    (s.receive command arg0).stage = .fresh ↔ s.stage = .fresh := by
  unfold receive
  split_ifs with h1 h2 h3 h4 h5 h6 h7
  · simp [h2]
  · rfl
  · rfl
  · rfl
  · exact iff_of_false id fun h => h5 (.inl h)
  · rfl
  · rfl
  · rfl

end Session

/-! ## Local ids -/

/-- The local id that `ADBOpen` gives the entry `h`, when the counter is at `c`. -/
def channelId (c : UInt32) (h : Handle) : UInt32 := c <<< 8 ||| .ofNat h

section Ids

variable {c c' : UInt32} {h h' : Handle}

theorem toNat_channelId (hc : c.toNat < 2 ^ 24) (h : Handle) :
    (channelId c h).toNat = 2 ^ 8 * c.toNat + h := by
  have hlt : (h : ℕ) < 2 ^ 8 := lt_trans h.isLt (by decide)
  have hh : (UInt32.ofNat (h : ℕ)).toNat = h :=
    UInt32.toNat_ofNat_of_lt' (lt_trans hlt (by decide))
  unfold channelId
  rw [UInt32.toNat_or, UInt32.toNat_shiftLeft, hh, show (8 : UInt32).toNat % 32 = 8 by decide,
    Nat.shiftLeft_eq, Nat.mod_eq_of_lt (by omega), mul_comm, ← Nat.two_pow_add_eq_or_of_lt hlt]

/-- The low byte of a local id is the handle. -/
theorem channelId_and (hc : c.toNat < 2 ^ 24) (h : Handle) :
    (channelId c h &&& 0xFF).toNat = h := by
  have hlt : (h : ℕ) < 2 ^ 8 := lt_trans h.isLt (by decide)
  rw [UInt32.toNat_and, toNat_channelId hc, show (0xFF : UInt32).toNat = 2 ^ 8 - 1 by decide,
    Nat.and_two_pow_sub_one_eq_mod]
  omega

/-- Until the counter comes round, no local id is given twice. -/
theorem channelId_injective (hc : c.toNat < 2 ^ 24) (hc' : c'.toNat < 2 ^ 24)
    (heq : channelId c h = channelId c' h') : c = c' ∧ h = h' := by
  have hn := congrArg UInt32.toNat heq
  have hlt : (h : ℕ) < 2 ^ 8 := lt_trans h.isLt (by decide)
  have hlt' : (h' : ℕ) < 2 ^ 8 := lt_trans h'.isLt (by decide)
  rw [toNat_channelId hc, toNat_channelId hc'] at hn
  exact ⟨UInt32.toNat_inj.1 (by omega), Fin.ext (by omega)⟩

end Ids

/-! ## Channels and their sessions -/

/-- The stage of a channel. -/
def ChanState.stage : ChanState → Stage
  | free => .over
  | start => .requested
  | waitOpen => .opening
  | idle | waitReady => .opened
  | closeRequested => .closing
  | waitClose => .closed

variable {δ : Type*} {c : Channel δ} {s : Session}

/-- An entry of the table is in the state of the session. -/
structure Matches (c : Channel δ) (s : Session) : Prop where
  stage : s.stage = c.state.stage
  opened : s.stage = .opened → s.remote = some c.remoteId ∧ (s.credit = true ↔ c.state = .idle)
  remote : s.remote = none ∨ s.remote = some c.remoteId
  owed : c.pendingAck = true → 0 < s.owed
  queued : s.queued = c.data

namespace Matches

/-- What the layer sends for a channel is allowed. -/
theorem send (hm : Matches c s) {m : UInt32 × UInt32 × List Byte} (h : c.message = some m) :
    ∃ s', s.send m.1 m.2.1 m.2.2 = some s' ∧ Matches c.sent s' := by
  unfold Channel.message at h
  unfold Channel.sent
  split_ifs at h with h1 h2 h3 h4
  · -- the channel is asked for
    obtain rfl := Option.some.inj h
    have hstage : s.stage = .requested := by
      rw [hm.stage, h2]
      rfl
    rw [Session.send_open, if_pos hstage, if_pos h2]
    exact ⟨_, rfl, rfl, fun h => (by cases h), hm.remote, hm.owed, hm.queued⟩
  · -- data is acknowledged
    obtain rfl := Option.some.inj h
    have hstage : ¬ (s.stage = .fresh ∨ s.stage = .requested ∨ s.stage = .over ∨ s.owed = 0) := by
      have howed := hm.owed h3
      rw [hm.stage]
      cases hs : c.state <;> simp_all [ChanState.stage] <;> omega
    rw [Session.send_okay _ _ _ hm.remote, if_neg hstage, if_neg h2, if_pos h3]
    exact ⟨_, rfl, hm.stage, hm.opened, hm.remote, fun h => absurd h Bool.false_ne_true, hm.queued⟩
  · -- the channel is closed
    obtain rfl := Option.some.inj h
    have hstage : s.stage = .closing := by
      rw [hm.stage, h4]
      rfl
    rw [Session.send_clse _ _ _ hm.remote, if_pos hstage, if_neg h2, if_neg h3, if_pos h4]
    exact ⟨_, rfl, rfl, fun h => (by cases h), hm.remote, hm.owed, hm.queued⟩
  · -- data goes out
    split at h
    · rename_i hidle hdata
      obtain rfl := Option.some.inj h
      have hstage : s.stage = .opened := by
        rw [hm.stage, hidle]
        rfl
      obtain ⟨hremote, hcredit⟩ := hm.opened hstage
      rw [Session.send_wrte, if_pos ⟨hstage, hcredit.2 hidle, hremote, hm.queued.trans hdata⟩,
        if_neg h2, if_neg h3, if_neg h4]
      exact ⟨_, rfl, hstage, fun _ => ⟨hremote, by simp⟩, hm.remote, hm.owed, hm.queued⟩
    · cases h

/-- An `ADB_OKAY` for the channel. -/
theorem okay (hm : Matches c s) (arg0 : UInt32) :
    Matches (Layer.okayChannel arg0 c) (s.receive adbOkay arg0) := by
  rw [Session.receive_okay]
  unfold Layer.okayChannel
  by_cases h1 : c.state = .waitOpen
  · have hstage : s.stage = .opening := by
      rw [hm.stage, h1]
      rfl
    rw [if_pos h1, if_pos hstage]
    exact ⟨rfl, fun _ => ⟨rfl, by simp⟩, .inr rfl, hm.owed, hm.queued⟩
  · have hne : s.stage ≠ .opening := by
      rw [hm.stage]
      cases hs : c.state <;> simp_all [ChanState.stage]
    rw [if_neg h1, if_neg hne]
    by_cases h2 : c.state = .waitReady ∧ c.remoteId = arg0
    · have hstage : s.stage = .opened := by
        rw [hm.stage, h2.1]
        rfl
      obtain ⟨hremote, hcredit⟩ := hm.opened hstage
      have hfalse : s.credit = false := by
        apply eq_false_of_ne_true
        rw [hcredit, h2.1]
        decide
      rw [if_pos h2, if_pos ⟨hstage, hfalse, h2.2 ▸ hremote⟩]
      exact ⟨hstage, fun _ => ⟨hremote, by simp⟩, .inr hremote, hm.owed, rfl⟩
    · have hnot : ¬ (s.stage = .opened ∧ s.credit = false ∧ s.remote = some arg0) := by
        rintro ⟨hstage, hfalse, hremote⟩
        obtain ⟨hremote', hcredit⟩ := hm.opened hstage
        rw [hm.stage] at hstage
        rw [hfalse] at hcredit
        refine h2 ⟨?_, Option.some.inj (hremote'.symm.trans hremote)⟩
        cases hs : c.state <;> simp_all [ChanState.stage]
      rw [if_neg h2, if_neg hnot]
      exact hm

/-- An `ADB_WRTE` for the channel. -/
theorem write (hm : Matches c s) (arg0 : UInt32) (hc : c.state ≠ .free) (ack : Bool) :
    Matches { c with pendingAck := ack } (s.receive adbWrte arg0) := by
  have hstage : ¬ (s.stage = .fresh ∨ s.stage = .over) := by
    rw [hm.stage]
    cases hs : c.state <;> simp_all [ChanState.stage]
  rw [Session.receive_wrte, if_neg hstage]
  exact ⟨hm.stage, hm.opened, hm.remote, fun _ => Nat.succ_pos _, hm.queued⟩

end Matches

/-- What `ADBOpen` writes, if it finds a free entry. -/
theorem Layer.adbOpen_channels {a : Layer δ} {h : Handle} (hfree : a.firstFree = some h)
    (name : List Byte) (f : RecvFunc δ) :
    (a.adbOpen name f).2.channels h =
      { a.channels h with
        state := .start
        name := name
        pendingAck := false
        data := none
        recvFunc := some f
        localId := channelId a.localIdCounter h } ∧
    (∀ h', h' ≠ h → (a.adbOpen name f).2.channels h' = a.channels h') ∧
    (a.adbOpen name f).2.localIdCounter = a.localIdCounter + 1 := by
  unfold Layer.adbOpen
  rw [hfree]
  exact ⟨Function.update_self .., fun h' hh => Function.update_of_ne hh .., rfl⟩

/-! ## The table and a session -/

/-- The table is in the state of the session `s` of the channel `id`, and `k` more channels can be
opened before the counter of the local ids comes round. -/
structure Tracks (id : UInt32) (k : ℕ) (a : Layer δ) (s : Session) : Prop where
  left : a.localIdCounter.toNat + k ≤ 2 ^ 24
  /-- The entries in use have local ids that were given out to them. -/
  ids : ∀ h, (a.channels h).state ≠ .free →
    ∃ c < a.localIdCounter, (a.channels h).localId = channelId c h
  fresh : s.stage ≠ .fresh → ∃ c < a.localIdCounter, ∃ h, id = channelId c h
  live : ∀ h, (a.channels h).state ≠ .free → (a.channels h).localId = id →
    Matches (a.channels h) s

namespace Tracks

variable {id : UInt32} {k : ℕ} {a a' : Layer δ} {s' : Session} {h h' : Handle}

theorem congr (ht : Tracks id k a s) (hc : a'.channels = a.channels)
    (hn : a'.localIdCounter = a.localIdCounter) : Tracks id k a' s := by
  constructor
  · rw [hn]
    exact ht.left
  · rw [hc, hn]
    exact ht.ids
  · rw [hn]
    exact ht.fresh
  · rw [hc]
    exact ht.live

theorem toNat_lt (ht : Tracks id k a s) {c : UInt32} (hc : c < a.localIdCounter) :
    c.toNat < 2 ^ 24 := by
  have hlt := UInt32.lt_iff_toNat_lt.1 hc
  have hle := ht.left
  omega

/-- A local id leads back to the entry that has it. -/
theorem and_localId (ht : Tracks id k a s) (hlive : (a.channels h).state ≠ .free) :
    ((a.channels h).localId &&& 0xFF).toNat = h := by
  obtain ⟨c, hc, heq⟩ := ht.ids h hlive
  rw [heq]
  exact channelId_and (ht.toNat_lt hc) h

/-- No two entries in use have the same local id. -/
theorem localId_injective (ht : Tracks id k a s) (hlive : (a.channels h).state ≠ .free)
    (hlive' : (a.channels h').state ≠ .free)
    (heq : (a.channels h).localId = (a.channels h').localId) : h = h' := by
  apply Fin.ext
  rw [← ht.and_localId hlive, ← ht.and_localId hlive', heq]

/-- An entry in use is addressed by its local id. -/
theorem addressed_localId (ht : Tracks id k a s) (hlive : (a.channels h).state ≠ .free) :
    a.addressed (a.channels h).localId = some h := by
  have hand := ht.and_localId hlive
  have hlt : ((a.channels h).localId &&& 0xFF).toNat < adbMaxChannels := hand ▸ h.isLt
  have heq : (⟨((a.channels h).localId &&& 0xFF).toNat, hlt⟩ : Handle) = h := Fin.ext hand
  unfold Layer.addressed
  rw [dif_pos hlt, heq, if_pos rfl]

/-- The entry of the channel moves on with its session. -/
theorem setChannel_own (ht : Tracks id k a s) (hlive : (a.channels h).state ≠ .free)
    (hid : (a.channels h).localId = id) {c : Channel δ} (hc : c.localId = (a.channels h).localId)
    (hm : c.state ≠ .free → Matches c s') : Tracks id k (a.setChannel h c) s' := by
  constructor
  · exact ht.left
  · intro h' hlive'
    by_cases hh : h' = h
    · rw [hh] at hlive' ⊢
      rw [Layer.channels_setChannel] at hlive' ⊢
      rw [hc]
      exact ht.ids h hlive
    · rw [Layer.channels_setChannel_of_ne hh] at hlive' ⊢
      exact ht.ids h' hlive'
  · intro _
    obtain ⟨n, hn, heq⟩ := ht.ids h hlive
    exact ⟨n, hn, h, hid ▸ heq⟩
  · intro h' hlive' hid'
    by_cases hh : h' = h
    · rw [hh] at hlive' ⊢
      rw [Layer.channels_setChannel] at hlive' ⊢
      exact hm hlive'
    · rw [Layer.channels_setChannel_of_ne hh] at hlive' hid'
      exact absurd (ht.localId_injective hlive' hlive (hid'.trans hid.symm)) hh

/-- The entry of another channel moves on, or one that is not in use changes. -/
theorem setChannel_other (ht : Tracks id k a s) {c : Channel δ}
    (hc : c.state ≠ .free → (a.channels h).state ≠ .free ∧ c.localId = (a.channels h).localId ∧
      c.localId ≠ id) : Tracks id k (a.setChannel h c) s := by
  constructor
  · exact ht.left
  · intro h' hlive'
    by_cases hh : h' = h
    · rw [hh] at hlive' ⊢
      rw [Layer.channels_setChannel] at hlive' ⊢
      obtain ⟨hlive, heq, -⟩ := hc hlive'
      rw [heq]
      exact ht.ids h hlive
    · rw [Layer.channels_setChannel_of_ne hh] at hlive' ⊢
      exact ht.ids h' hlive'
  · exact ht.fresh
  · intro h' hlive' hid'
    by_cases hh : h' = h
    · rw [hh] at hlive' hid'
      rw [Layer.channels_setChannel] at hlive' hid'
      exact absurd hid' (hc hlive').2.2
    · rw [Layer.channels_setChannel_of_ne hh] at hlive' hid' ⊢
      exact ht.live h' hlive' hid'

/-- With no entry in use for the channel, its session may do what it likes. -/
theorem of_not_live (ht : Tracks id k a s)
    (hnot : ∀ h, (a.channels h).state ≠ .free → (a.channels h).localId ≠ id)
    (hs : s'.stage ≠ .fresh → s.stage ≠ .fresh) : Tracks id k a s' :=
  ⟨ht.left, ht.ids, fun h => ht.fresh (hs h), fun h hlive hid => absurd hid (hnot h hlive)⟩

/-! ### The steps -/

/-- A packet is sent for the channel `h`. -/
theorem serve (ht : Tracks id k a s) {m : UInt32 × UInt32 × List Byte}
    (hm : (a.channels h).message = some m) :
    ∃ s', s.step id (.sent m.1 (a.channels h).localId m.2.1 m.2.2) = some s' ∧
      Tracks id k (a.serve h m) s' := by
  have hlive : (a.channels h).state ≠ .free := by
    intro hfree
    unfold Channel.message at hm
    rw [if_pos hfree] at hm
    cases hm
  have hsent : (a.channels h).sent.localId = (a.channels h).localId := by
    unfold Channel.sent
    split_ifs <;> rfl
  have ht' : Tracks id k
      ({ a with currentChannel := h }.sendFor (a.channels h) m.1 m.2.1 m.2.2) s := ht.congr rfl rfl
  by_cases hid : (a.channels h).localId = id
  · obtain ⟨s', hs', hm'⟩ := (ht.live h hlive hid).send hm
    exact ⟨s', (if_pos hid).trans hs', ht'.setChannel_own hlive hid hsent fun _ => hm'⟩
  · refine ⟨s, if_neg hid, ht'.setChannel_other fun _ => ⟨hlive, hsent, ?_⟩⟩
    rw [hsent]
    exact hid

/-- The second part of `ADBTasks` at work on the channels. -/
theorem channelTasks (ht : Tracks id k a s) (hconn : a.connState = .connected) :
    ∃ s', a.stateEvents.foldlM (Session.step id) s = some s' ∧ Tracks id k a.channelTasks s' := by
  rcases Layer.channelTasks_given hconn with ⟨hes, heq | heq⟩ | ⟨h, m, -, hm, heq, hes⟩
  · rw [hes, heq]
    exact ⟨s, rfl, ht⟩
  · rw [hes, heq]
    exact ⟨s, rfl, ht.congr rfl rfl⟩
  · rw [hes, heq]
    obtain ⟨s', hs', ht'⟩ := ht.serve hm
    refine ⟨s', ?_, ht'⟩
    rw [List.foldlM_cons, hs']
    rfl

/-- The table is cleared. -/
theorem cleared (ht : Tracks id k a s) (hfree : ∀ h, (a'.channels h).state = .free)
    (hn : a'.localIdCounter = a.localIdCounter) :
    ∃ s', [Event.cleared].foldlM (Session.step id) s = some s' ∧ Tracks id k a' s' := by
  refine ⟨_, rfl, ?_, fun h hlive => absurd (hfree h) hlive, ?_,
    fun h hlive => absurd (hfree h) hlive⟩
  · rw [hn]
    exact ht.left
  · rw [hn]
    split_ifs with hs
    · exact fun hne => absurd hs hne
    · exact fun _ => ht.fresh hs

/-- A packet that addresses no entry, or one that is not in use. -/
theorem receive_of_not_live (ht : Tracks id k a s) (command arg0 : UInt32) {arg1 : UInt32}
    (hnot : ∀ h, a.addressed arg1 = some h → (a.channels h).state = .free) :
    Tracks id k a (if arg1 = id then s.receive command arg0 else s) := by
  split_ifs with hid
  · refine ht.of_not_live (fun h hlive hid' => hlive (hnot h ?_)) ?_
    · rw [hid, ← hid']
      exact ht.addressed_localId hlive
    · exact fun hne hs => hne (Session.receive_fresh.2 hs)
  · exact ht

/-- A packet whose handling changes the entry that it addresses to `c`. -/
theorem receive_setChannel (ht : Tracks id k a s) (command arg0 : UInt32) {arg1 : UInt32}
    (haddr : a.addressed arg1 = some h) {c : Channel δ} (hc : c.localId = (a.channels h).localId)
    (hfree : (a.channels h).state = .free → c.state = .free)
    (hm : ∀ s, (a.channels h).state ≠ .free → Matches (a.channels h) s → c.state ≠ .free →
      Matches c (s.receive command arg0)) :
    Tracks id k (a.setChannel h c) (if arg1 = id then s.receive command arg0 else s) := by
  have hid := Layer.localId_of_addressed haddr
  by_cases hlive : (a.channels h).state = .free
  · have ht' := ht.receive_of_not_live command arg0 fun h' h₁ =>
      (Option.some.inj (haddr.symm.trans h₁)) ▸ hlive
    exact ht'.setChannel_other fun hne => absurd (hfree hlive) hne
  · split_ifs with hid'
    · exact ht.setChannel_own hlive (hid.trans hid') hc
        (hm s hlive (ht.live h hlive (hid.trans hid')))
    · exact ht.setChannel_other fun _ => ⟨hlive, hc, fun heq => hid' (hid ▸ hc ▸ heq)⟩

/-- The packet that has arrived is handled. -/
theorem handlePacket (ht : Tracks id k a s) {d d' : δ}
    (hp : a.handlePacket d = some (a', d')) :
    Tracks id k a'
      (if a.packet.recvHeader.arg1 = id then
        s.receive a.packet.recvHeader.command a.packet.recvHeader.arg0
      else s) := by
  have hother (h1 : a.packet.recvHeader.command ≠ adbOkay)
      (h2 : a.packet.recvHeader.command ≠ adbClse) (h3 : a.packet.recvHeader.command ≠ adbWrte) :
      (if a.packet.recvHeader.arg1 = id then
        s.receive a.packet.recvHeader.command a.packet.recvHeader.arg0 else s) = s := by
    rw [Session.receive_other _ _ h1 h2 h3, ite_self]
  unfold Layer.handlePacket at hp
  dsimp only at hp
  split_ifs at hp with h1 h2 h3 h4 h5
  · obtain ⟨rfl, -⟩ := Prod.mk.inj (Option.some.inj hp)
    rw [hother (by rw [h1]; decide) (by rw [h1]; decide) (by rw [h1]; decide)]
    exact ht.congr rfl rfl
  · obtain ⟨rfl, -⟩ := Prod.mk.inj (Option.some.inj hp)
    rw [hother (by rw [h2]; decide) (by rw [h2]; decide) (by rw [h2]; decide)]
    exact ht
  · rw [h3]
    split at hp
    · rename_i h haddr
      obtain ⟨rfl, -⟩ := Prod.mk.inj (Option.some.inj hp)
      refine ht.receive_setChannel _ _ haddr ?_ (Layer.okayChannel_free _ _).2
        fun s _ hm _ => hm.okay _
      unfold Layer.okayChannel
      split_ifs <;> rfl
    · rename_i hnone
      obtain ⟨rfl, -⟩ := Prod.mk.inj (Option.some.inj hp)
      exact ht.receive_of_not_live _ _ fun h hsome => absurd (hnone.symm.trans hsome) (by simp)
  · rw [h4]
    split at hp
    · rename_i h haddr
      rcases Layer.closeChannel_cases hp with ⟨hs, rfl⟩ | ⟨-, rfl⟩
      · rcases hs with hs | hs
        · exact ht.receive_of_not_live _ _ fun h' h₁ =>
            (Option.some.inj (haddr.symm.trans h₁)) ▸ hs
        · -- the close of a channel that has not been asked for is ignored
          have ht' := ht.receive_setChannel (c := a'.channels h) adbClse
            a'.packet.recvHeader.arg0 haddr rfl (fun hfree => hfree) fun s _ hm _ => by
              rw [Session.receive_clse, if_pos (.inr (by rw [hm.stage, hs]; rfl))]
              exact hm
          rwa [Layer.setChannel_self] at ht'
      · exact ht.receive_setChannel _ _ haddr rfl (fun _ => rfl) fun _ _ _ hne => absurd rfl hne
    · rename_i hnone
      obtain ⟨rfl, -⟩ := Prod.mk.inj (Option.some.inj hp)
      exact ht.receive_of_not_live _ _ fun h hsome => absurd (hnone.symm.trans hsome) (by simp)
  · rw [h5]
    split at hp
    · rename_i h haddr
      rcases Layer.writeChannel_cases hp with ⟨-, rfl, -⟩ | ⟨-, rfl, -⟩
      · have ht' := ht.receive_setChannel (c := a'.channels h) adbWrte
          a'.packet.recvHeader.arg0 haddr rfl (fun hfree => hfree)
          fun s hlive hm _ => hm.write a'.packet.recvHeader.arg0 hlive _
        rwa [Layer.setChannel_self] at ht'
      · exact ht.receive_setChannel _ _ haddr rfl (fun hfree => hfree)
          fun s hlive hm _ => hm.write _ hlive true
    · rename_i hnone
      obtain ⟨rfl, -⟩ := Prod.mk.inj (Option.some.inj hp)
      exact ht.receive_of_not_live _ _ fun h hsome => absurd (hnone.symm.trans hsome) (by simp)
  · obtain ⟨rfl, -⟩ := Prod.mk.inj (Option.some.inj hp)
    rw [hother h3 h4 h5]
    exact ht

theorem bufferUnref (ht : Tracks id k a s) : Tracks id k a.bufferUnref s := by
  unfold Layer.bufferUnref
  dsimp only
  split_ifs
  · exact ht.congr rfl rfl
  · exact ht.congr rfl rfl
  · exact ht.congr rfl rfl

/-- The first part of `ADBTasks`. -/
theorem receiveTasks (ht : Tracks id k a s) {t : Transfers} {d d' : δ}
    (hr : a.receiveTasks t d = some (a', d')) :
    ∃ s', ((a.handled t).toList.map fun p => Event.received p.command p.arg0 p.arg1).foldlM
      (Session.step id) s = some s' ∧ Tracks id k a' s' := by
  have ht' : Tracks id k { a with packet := a.packet.tasks t } s := ht.congr rfl rfl
  unfold Layer.receiveTasks at hr
  unfold Layer.handled
  dsimp only at hr
  split_ifs at hr with hcount
  · split at hr
    · rename_i hst
      obtain ⟨rfl, -⟩ := Prod.mk.inj (Option.some.inj hr)
      rw [if_neg (by rw [hst]; simp)]
      exact ⟨s, rfl, ht'⟩
    · rename_i hst
      obtain ⟨rfl, -⟩ := Prod.mk.inj (Option.some.inj hr)
      rw [if_neg (by rw [hst]; simp)]
      exact ⟨s, rfl, bufferUnref (ht'.congr rfl rfl)⟩
    · rename_i hst
      obtain ⟨⟨a₁, d₁⟩, hp, heq⟩ := Option.map_eq_some_iff.1 hr
      obtain ⟨rfl, -⟩ := Prod.mk.inj heq
      rw [if_pos ⟨hcount, hst⟩]
      exact ⟨_, rfl, (ht'.handlePacket hp).bufferUnref⟩
  · obtain ⟨rfl, -⟩ := Prod.mk.inj (Option.some.inj hr)
    rw [if_neg fun h => hcount h.1]
    exact ⟨s, rfl, ht'⟩

theorem adbReset (ht : Tracks id k a s) {d d' : δ} (hr : a.adbReset d = some (a', d')) :
    ∃ s', [Event.cleared].foldlM (Session.step id) s = some s' ∧ Tracks id k a' s' := by
  obtain ⟨d₁, -, hd⟩ := Option.bind_eq_some_iff.1 hr
  obtain ⟨rfl, -⟩ := Prod.mk.inj (Option.some.inj hd)
  exact ht.cleared (fun _ => rfl) rfl

/-- The second part of `ADBTasks`. -/
theorem stateTasks (ht : Tracks id k a s) {attached : Bool} {d d' : δ} {r : ℤ}
    (hr : a.stateTasks attached d = some (r, a', d')) :
    ∃ s', a.stateEvents.foldlM (Session.step id) s = some s' ∧ Tracks id k a' s' := by
  unfold Layer.stateTasks at hr
  cases hs : a.connState with
  | waitAttach =>
    simp only [hs] at hr
    obtain ⟨-, rfl, -⟩ := (Prod.mk.inj (Option.some.inj hr)).imp_right Prod.mk.inj
    unfold Layer.stateEvents
    rw [hs]
    refine ⟨s, rfl, ?_⟩
    split_ifs
    · exact ht.congr rfl rfl
    · exact ht
  | waitConnect =>
    simp only [hs] at hr
    obtain ⟨-, rfl, -⟩ := (Prod.mk.inj (Option.some.inj hr)).imp_right Prod.mk.inj
    unfold Layer.stateEvents
    rw [hs]
    exact ⟨s, rfl, ht⟩
  | connected =>
    simp only [hs] at hr
    obtain ⟨-, rfl, -⟩ := (Prod.mk.inj (Option.some.inj hr)).imp_right Prod.mk.inj
    exact ht.channelTasks hs
  | error =>
    simp only [hs] at hr
    obtain ⟨⟨a₁, d₁⟩, hreset, heq⟩ := Option.map_eq_some_iff.1 hr
    obtain ⟨-, rfl, -⟩ := (Prod.mk.inj heq).imp_right Prod.mk.inj
    unfold Layer.stateEvents
    rw [hs]
    exact ht.adbReset hreset

/-- `ADBTasks` -/
theorem tasks (ht : Tracks id k a s) {attached : Bool} {t : Transfers} {d d' : δ} {r : ℤ}
    (hr : a.tasks attached t d = some (r, a', d')) :
    ∃ s', (a.tasksEvents attached t d).foldlM (Session.step id) s = some s' ∧
      Tracks id k a' s' := by
  unfold Layer.tasks at hr
  unfold Layer.tasksEvents
  split_ifs at hr ⊢ with hs hatt
  · obtain ⟨⟨a₁, d₁⟩, h₁, h₂⟩ := Option.bind_eq_some_iff.1 hr
    obtain ⟨s₁, hs₁, ht₁⟩ := ht.receiveTasks h₁
    obtain ⟨s₂, hs₂, ht₂⟩ := ht₁.stateTasks h₂
    refine ⟨s₂, ?_, ht₂⟩
    rw [List.foldlM_append, hs₁, h₁]
    exact hs₂
  · obtain ⟨⟨a₁, d₁⟩, hreset, heq⟩ := Option.map_eq_some_iff.1 hr
    obtain ⟨-, rfl, -⟩ := (Prod.mk.inj heq).imp_right Prod.mk.inj
    exact ht.adbReset hreset
  · exact ht.stateTasks hr

/-- `ADBOpen` gives the channel an id that no other has had. -/
theorem adbOpen (ht : Tracks id (k + 1) a s) (hfree : a.firstFree = some h) (name : List Byte)
    (f : RecvFunc δ) :
    ∃ s', s.step id (.opened (channelId a.localIdCounter h)) = some s' ∧
      Tracks id k (a.adbOpen name f).2 s' := by
  have hleft := ht.left
  have hlt : a.localIdCounter.toNat < 2 ^ 24 := by omega
  have hsucc : (a.localIdCounter + 1).toNat = a.localIdCounter.toNat + 1 := by
    rw [UInt32.toNat_add, show (1 : UInt32).toNat = 1 by decide, Nat.mod_eq_of_lt (by omega)]
  have hnew {c : UInt32} (hc : c ≤ a.localIdCounter) : c < a.localIdCounter + 1 := by
    rw [UInt32.le_iff_toNat_le] at hc
    rw [UInt32.lt_iff_toNat_lt]
    omega
  -- an id that was given out is not the new one
  have hold {c : UInt32} (hc : c < a.localIdCounter) (h' : Handle) :
      channelId c h' ≠ channelId a.localIdCounter h := by
    intro heq
    obtain ⟨rfl, -⟩ := channelId_injective (ht.toNat_lt hc) hlt heq
    exact UInt32.lt_irrefl _ hc
  obtain ⟨hself, hother, hcount⟩ := Layer.adbOpen_channels hfree name f
  have hids : ∀ h', ((a.adbOpen name f).2.channels h').state ≠ .free →
      ∃ c < (a.adbOpen name f).2.localIdCounter,
        ((a.adbOpen name f).2.channels h').localId = channelId c h' := by
    intro h' hlive
    rw [hcount]
    by_cases hh : h' = h
    · rw [hh, hself]
      exact ⟨_, hnew (UInt32.le_refl _), rfl⟩
    · rw [hother h' hh] at hlive ⊢
      obtain ⟨c, hc, heq⟩ := ht.ids h' hlive
      exact ⟨c, hnew (UInt32.le_of_lt hc), heq⟩
  have hleft' : (a.adbOpen name f).2.localIdCounter.toNat + k ≤ 2 ^ 24 := by
    rw [hcount]
    omega
  by_cases hid : channelId a.localIdCounter h = id
  · have hs : s.stage = .fresh := by
      by_contra hne
      obtain ⟨c, hc, h', heq⟩ := ht.fresh hne
      exact hold hc h' (heq.symm.trans hid.symm)
    refine ⟨_, (if_pos hid).trans (if_pos hs), hleft', hids, fun _ => ?_, fun h' hlive hid' => ?_⟩
    · rw [hcount]
      exact ⟨_, hnew (UInt32.le_refl _), h, hid.symm⟩
    · by_cases hh : h' = h
      · rw [hh, hself]
        exact ⟨rfl, fun h => (by cases h), .inl rfl, fun h => absurd h Bool.false_ne_true, rfl⟩
      · rw [hother h' hh] at hlive hid'
        obtain ⟨c, hc, heq⟩ := ht.ids h' hlive
        exact absurd (heq.symm.trans (hid'.trans hid.symm)) (hold hc h')
  · refine ⟨s, if_neg hid, hleft', hids, fun hne => ?_, fun h' hlive hid' => ?_⟩
    · obtain ⟨c, hc, h', heq⟩ := ht.fresh hne
      rw [hcount]
      exact ⟨c, hnew (UInt32.le_of_lt hc), h', heq⟩
    · by_cases hh : h' = h
      · rw [hh, hself] at hid'
        exact absurd hid' hid
      · rw [hother h' hh] at hlive hid' ⊢
        exact ht.live h' hlive hid'

/-- The client writes to an entry. -/
theorem adbWrite (ht : Tracks id k a s) (hlive : (a.channels h).state ≠ .free)
    (data : List Byte) :
    ∃ s', s.step id (.wrote (a.channels h).localId data) = some s' ∧
      Tracks id k (a.adbWrite h data) s' := by
  unfold Layer.adbWrite
  refine ⟨_, rfl, ?_⟩
  split_ifs with hid
  · have hm := ht.live h hlive hid
    exact ht.setChannel_own hlive hid rfl fun _ => ⟨hm.stage, hm.opened, hm.remote, hm.owed, rfl⟩
  · exact ht.setChannel_other fun _ => ⟨hlive, rfl, hid⟩

/-- The client asks for the channel of an entry to be closed. -/
theorem adbClose (ht : Tracks id k a s) (hlive : (a.channels h).state ≠ .free) :
    ∃ s', s.step id (.closing (a.channels h).localId) = some s' ∧
      Tracks id k (a.adbClose h) s' := by
  unfold Layer.adbClose
  rw [if_neg hlive]
  refine ⟨_, rfl, ?_⟩
  by_cases hid : (a.channels h).localId = id
  · have hm := ht.live h hlive hid
    have hstage : s.stage ≠ .fresh ∧ s.stage ≠ .over := by
      rw [hm.stage]
      cases hs : (a.channels h).state <;> simp_all [ChanState.stage]
    rw [if_pos ⟨hid, hstage⟩]
    exact ht.setChannel_own hlive hid rfl
      fun _ => ⟨rfl, fun h => (by cases h), hm.remote, hm.owed, hm.queued⟩
  · rw [if_neg fun h => hid h.1]
    exact ht.setChannel_other fun _ => ⟨hlive, rfl, hid⟩

/-- **A call of the layer keeps to the rule**, for every channel. -/
theorem apply {op : Op δ} {d d' : δ}
    (ht : Tracks id (k + (op.events (a, d)).countP Event.isOpened) a s)
    (h : op.apply (a, d) = some (a', d')) :
    ∃ s', (op.events (a, d)).foldlM (Session.step id) s = some s' ∧ Tracks id k a' s' := by
  have hless {n : ℕ} (ht : Tracks id (k + n) a s) : Tracks id k a s := by
    have hleft := ht.left
    exact ⟨by omega, ht.ids, ht.fresh, ht.live⟩
  have hone {e : Event} (hs : ∃ s', s.step id e = some s' ∧ Tracks id k a' s') :
      ∃ s', [e].foldlM (Session.step id) s = some s' ∧ Tracks id k a' s' := by
    obtain ⟨s', hs', ht'⟩ := hs
    refine ⟨s', ?_, ht'⟩
    rw [List.foldlM_cons, hs']
    rfl
  cases op with
  | adbInit =>
    obtain ⟨rfl, -⟩ := Prod.mk.inj (Option.some.inj h)
    exact (hless ht).cleared (fun _ => rfl) rfl
  | adbOpen name f =>
    obtain ⟨rfl, -⟩ := Prod.mk.inj (Option.some.inj h)
    unfold Op.events at ht ⊢
    dsimp only at ht ⊢
    cases hfree : a.firstFree with
    | some h =>
      rw [hfree] at ht
      exact hone (ht.adbOpen hfree name f)
    | none =>
      refine ⟨s, rfl, ?_⟩
      unfold Layer.adbOpen
      rw [hfree]
      exact hless ht
  | adbWrite h' data =>
    obtain ⟨rfl, -⟩ := Prod.mk.inj (Option.some.inj h)
    unfold Op.events
    dsimp only
    split_ifs with hfree
    · refine ⟨s, rfl, ?_⟩
      unfold Layer.adbWrite
      exact (hless ht).setChannel_other fun hne => absurd hfree hne
    · exact hone ((hless ht).adbWrite hfree data)
  | adbClose h' =>
    obtain ⟨rfl, -⟩ := Prod.mk.inj (Option.some.inj h)
    unfold Op.events
    dsimp only
    split_ifs with hfree
    · refine ⟨s, rfl, ?_⟩
      unfold Layer.adbClose
      rw [if_pos hfree]
      exact hless ht
    · exact hone ((hless ht).adbClose hfree)
  | adbTasks attached t =>
    obtain ⟨⟨r, a₁, d₁⟩, htasks, heq⟩ := Option.map_eq_some_iff.1 h
    obtain ⟨rfl, -⟩ := Prod.mk.inj heq
    exact (hless ht).tasks htasks

end Tracks

/-- The layer as it is loaded: no entry is in use, and the counter of the local ids is at 1. -/
structure Layer.Loaded (a : Layer δ) : Prop where
  free : ∀ h, (a.channels h).state = .free
  counter : a.localIdCounter = 1

end TPadFire.Adb
