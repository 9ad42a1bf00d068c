import TPadFire.Adb.Packet

/-!
# The ADB layer

The connection state and the channel table of `adb.c`. A channel has a callback, which the layer
calls with each payload and, with a null pointer, when the remote end closes the channel. Callbacks
act on the state `δ` of the client and call nothing of this layer; a callback that does not return,
and the call of a null pointer, leave no result.

Packets are handled in `handlePacket` and sent for the channels in `channelTasks`. No entry of the
table is taken except by `adbOpen`, and none is given up by `tasks` but by a packet that closes it
or by an error of the connection (`taken_tasks`).
-/

namespace TPadFire.Adb

open Firmware (Byte RecvBuffer)

/-! ## Constants -/

/-- `ADB_CNXN` -/
def adbCnxn : UInt32 := 0x4e584e43

/-- `ADB_OPEN` -/
def adbOpenCommand : UInt32 := 0x4e45504f

/-- `ADB_OKAY` -/
def adbOkay : UInt32 := 0x59414b4f

/-- `ADB_CLSE` -/
def adbClse : UInt32 := 0x45534c43

/-- `ADB_WRTE` -/
def adbWrte : UInt32 := 0x45545257

/-- `ADB_VERSION` -/
def adbVersion : UInt32 := 0x01000000

/-- `ADB_MAX_CHANNELS` -/
abbrev adbMaxChannels : ℕ := 8

instance : NeZero adbMaxChannels := ⟨by decide⟩

/-- `ADB_HOSTNAME_STRING`, the string `host::` with the zero that ends it. -/
def adbHostnameString : List Byte := [0x68, 0x6f, 0x73, 0x74, 0x3a, 0x3a, 0x00]

/-! ## State -/

/-- `ADB_CHANNEL_HANDLE`, a valid one. -/
abbrev Handle := Fin adbMaxChannels

/-- The handle of the first entry of the table. -/
def firstHandle : Handle := ⟨0, by decide⟩

/-- `ADBChannelRecvFunc`, with the pointer to the data, its length and the client's state. -/
abbrev RecvFunc (δ : Type*) := Handle → Option RecvBuffer → ℕ → δ → Option δ

/-- `ADB_CONN_STATE` -/
inductive ConnState
  | error
  | waitAttach
  | waitConnect
  | connected
  deriving DecidableEq, Repr

/-- `ADB_CHAN_STATE` -/
inductive ChanState
  | free
  | start
  | waitOpen
  | idle
  | waitReady
  | closeRequested
  | waitClose
  deriving DecidableEq, Repr

/-- `ADB_CHANNEL` -/
structure Channel (δ : Type*) where
  state : ChanState
  /-- The data to write, if the pointer is not null. -/
  data : Option (List Byte)
  name : List Byte
  localId : UInt32
  remoteId : UInt32
  pendingAck : Bool
  /-- The callback, if the pointer is not null. -/
  recvFunc : Option (RecvFunc δ)

/-- The globals of the layer. -/
structure Layer (δ : Type*) where
  connState : ConnState
  channels : Handle → Channel δ
  bufferRefcount : ℕ
  localIdCounter : UInt32
  /-- `current_channel`, the static variable of `ADBChannelTasks`. -/
  currentChannel : Handle
  packet : Packet

variable {δ : Type*}

/-- An entry of the table whose bytes are all zero. -/
def Channel.zero : Channel δ := ⟨.free, none, [], 0, 0, false, none⟩

namespace Layer

/-- Replace the entry `h` of the table. -/
def setChannel (a : Layer δ) (h : Handle) (c : Channel δ) : Layer δ :=
  { a with channels := Function.update a.channels h c }

theorem setChannel_self (a : Layer δ) (h : Handle) : a.setChannel h (a.channels h) = a := by
  unfold setChannel
  rw [Function.update_eq_self]

@[simp] theorem channels_setChannel (a : Layer δ) (h : Handle) (c : Channel δ) :
    (a.setChannel h c).channels h = c := Function.update_self ..

theorem channels_setChannel_of_ne {h h' : Handle} (hne : h' ≠ h) (a : Layer δ) (c : Channel δ) :
    (a.setChannel h c).channels h' = a.channels h' := Function.update_of_ne hne ..

/-! ## The functions of `adb.c` -/

/-- `ADBConnected` -/
def connected (a : Layer δ) : Bool :=
  match a.connState with
  | .connected => true
  | .error | .waitAttach | .waitConnect => false

/-- Call the callback of a channel. -/
def callRecvFunc (a : Layer δ) (h : Handle) (data : Option RecvBuffer) (dataLen : ℕ) (d : δ) :
    Option δ :=
  (a.channels h).recvFunc.bind fun f => f h data dataLen d

/-- `ADBReset` -/
def adbReset (a : Layer δ) (d : δ) : Option (Layer δ × δ) := do
  let d ← (List.finRange adbMaxChannels).foldlM
    (fun d h => if (a.channels h).state = .free then some d else a.callRecvFunc h none 0 d) d
  return ({ a with channels := fun _ => .zero, bufferRefcount := 0, connState := .waitAttach }, d)

/-- `ADBBufferUnref` -/
def bufferUnref (a : Layer δ) : Layer δ :=
  let a := { a with bufferRefcount := a.bufferRefcount - 1 }
  if a.connState ≠ .connected then a
  else if a.bufferRefcount = 0 then { a with bufferRefcount := 1, packet := a.packet.recv }
  else a

/-- `ADBPacketSend` for the channel `c`. -/
def sendFor (c : Channel δ) (cmd remoteId : UInt32) (data : List Byte) (a : Layer δ) : Layer δ :=
  { a with packet := a.packet.send cmd c.localId remoteId data }

/-- The loop of `ADBChannelTasks`, with `n` rounds left: the first channel that has something to
send sends it. -/
def channelScan : ℕ → Layer δ → Layer δ
  | 0, a => a
  | n + 1, a =>
    let h := a.currentChannel + 1
    let a := { a with currentChannel := h }
    let c := a.channels h
    if c.state = .free then channelScan n a
    else if c.state = .start then
      (a.sendFor c adbOpenCommand 0 c.name).setChannel h { c with state := .waitOpen }
    else if c.pendingAck then
      (a.sendFor c adbOkay c.remoteId []).setChannel h { c with pendingAck := false }
    else if c.state = .closeRequested then
      (a.sendFor c adbClse c.remoteId []).setChannel h { c with state := .waitClose }
    else
      match c.state, c.data with
      | .idle, some data =>
        (a.sendFor c adbWrte c.remoteId data).setChannel h { c with state := .waitReady }
      | _, _ => channelScan n a

/-- `ADBChannelTasks` -/
def channelTasks (a : Layer δ) : Layer δ :=
  match a.packet.sendStatus with
  | .busy => a
  | .error => { a with connState := .error }
  | .ok => channelScan adbMaxChannels a

/-- The channel that a packet addresses by its second argument. -/
def addressed (a : Layer δ) (arg1 : UInt32) : Option Handle :=
  let h := (arg1 &&& 0xFF).toNat
  if hlt : h < adbMaxChannels then
    if (a.channels ⟨h, hlt⟩).localId = arg1 then some ⟨h, hlt⟩ else none
  else none

/-- The case `ADB_OKAY` of `ADBHandlePacket` on an entry of the table. -/
def okayChannel (arg0 : UInt32) (c : Channel δ) : Channel δ :=
  if c.state = .waitOpen then { c with remoteId := arg0, state := .idle }
  else if c.state = .waitReady ∧ c.remoteId = arg0 then { c with data := none, state := .idle }
  else c

/-- The case `ADB_CLSE` of `ADBHandlePacket` on the entry `h`. -/
def closeChannel (h : Handle) (a : Layer δ) (d : δ) : Option (Layer δ × δ) :=
  let freed := a.setChannel h { a.channels h with state := .free }
  match (a.channels h).state with
  | .waitOpen => (a.callRecvFunc h none 0 d).map fun d => (freed, d)
  | .waitClose | .closeRequested => some (freed, d)
  | .waitReady | .idle => (a.callRecvFunc h none 0 d).map fun d => (freed, d)
  | .free | .start => some (a, d)

/-- The case `ADB_WRTE` of `ADBHandlePacket` on the entry `h`. -/
def writeChannel (h : Handle) (arg0 dataLen : UInt32) (a : Layer δ) (d : δ) :
    Option (Layer δ × δ) :=
  let c := a.channels h
  if c.remoteId = arg0 then
    (if c.state ≠ .closeRequested ∧ c.state ≠ .waitClose ∧ dataLen > 0 then
      a.callRecvFunc h (some a.packet.recvData) dataLen.toNat d
    else some d).map fun d => (a.setChannel h { c with pendingAck := true }, d)
  else some (a, d)

/-- `ADBHandlePacket`, for the packet that was received. -/
def handlePacket (a : Layer δ) (d : δ) : Option (Layer δ × δ) :=
  let p := a.packet.recvHeader
  if p.command = adbCnxn then some ({ a with connState := .connected }, d)
  else if p.command = adbOpenCommand then some (a, d)
  else if p.command = adbOkay then
    match a.addressed p.arg1 with
    | some h => some (a.setChannel h (okayChannel p.arg0 (a.channels h)), d)
    | none => some (a, d)
  else if p.command = adbClse then
    match a.addressed p.arg1 with
    | some h => a.closeChannel h d
    | none => some (a, d)
  else if p.command = adbWrte then
    match a.addressed p.arg1 with
    | some h => a.writeChannel h p.arg0 p.dataLength d
    | none => some (a, d)
  else some (a, d)

/-- The first entry of the table that is free. -/
def firstFree (a : Layer δ) : Option Handle :=
  (List.finRange adbMaxChannels).find? fun h => (a.channels h).state = .free

/-- `ADBOpen` -/
def adbOpen (name : List Byte) (recvFunc : RecvFunc δ) (a : Layer δ) : Option Handle × Layer δ :=
  match a.firstFree with
  | some h =>
    (some h, { a.setChannel h { a.channels h with
        state := .start
        name := name
        pendingAck := false
        data := none
        recvFunc := some recvFunc
        localId := a.localIdCounter <<< 8 ||| .ofNat h }
      with localIdCounter := a.localIdCounter + 1 })
  | none => (none, a)

/-- `ADBWrite` -/
def adbWrite (h : Handle) (data : List Byte) (a : Layer δ) : Layer δ :=
  a.setChannel h { a.channels h with data := some data }

/-- `ADBClose` -/
def adbClose (h : Handle) (a : Layer δ) : Layer δ :=
  if (a.channels h).state = .free then a
  else a.setChannel h { a.channels h with state := .closeRequested }

/-- `ADBChannelReady`, for a valid handle. -/
def adbChannelReady (h : Handle) (a : Layer δ) : Bool :=
  match (a.channels h).state, (a.channels h).data with
  | .idle, none => true
  | _, _ => false

/-- `ADBBufferRef` -/
def adbBufferRef (a : Layer δ) : Layer δ := { a with bufferRefcount := a.bufferRefcount + 1 }

/-- `ADBInit` -/
def init (a : Layer δ) : Layer δ := { a with channels := fun _ => .zero, connState := .waitAttach }

/-- The first part of `ADBTasks`: advance the packet layer and handle a packet that has arrived. -/
def receiveTasks (t : Transfers) (a : Layer δ) (d : δ) : Option (Layer δ × δ) :=
  let a := { a with packet := a.packet.tasks t }
  if a.bufferRefcount > 0 then
    match a.packet.recvStatus with
    | .busy => some (a, d)
    | .error => some (bufferUnref { a with connState := .error }, d)
    | .ok => (a.handlePacket d).map fun r => (r.1.bufferUnref, r.2)
  else some (a, d)

/-- The second part of `ADBTasks`, with what it returns. -/
def stateTasks (attached : Bool) (a : Layer δ) (d : δ) : Option (ℤ × Layer δ × δ) :=
  match a.connState with
  | .waitAttach =>
    let a :=
      if attached then
        { a with
          packet := (a.packet.reset.recv).send adbCnxn adbVersion
            (.ofNat Firmware.adbPacketMaxRecvDataBytes) adbHostnameString
          bufferRefcount := 1
          connState := .waitConnect }
      else a
    some (if a.connected then 1 else 0, a, d)
  | .waitConnect => some (if a.connected then 1 else 0, a, d)
  | .connected =>
    let a := a.channelTasks
    some (if a.connected then 1 else 0, a, d)
  | .error => (a.adbReset d).map fun r => (-1, r)

/-- `ADBTasks` -/
def tasks (attached : Bool) (t : Transfers) (a : Layer δ) (d : δ) : Option (ℤ × Layer δ × δ) :=
  if a.connState = .waitConnect ∨ a.connState = .connected then
    if attached then do
      let r ← a.receiveTasks t d
      r.1.stateTasks attached r.2
    else (a.adbReset d).map fun r => (0, r)
  else a.stateTasks attached d

/-! ## The entries that are taken -/

/-- The entries of the table that are not free. -/
def taken (a : Layer δ) : Set Handle := {h | (a.channels h).state ≠ .free}

theorem mem_taken {a : Layer δ} {h : Handle} : h ∈ a.taken ↔ (a.channels h).state ≠ .free := Iff.rfl

theorem taken_congr {a a' : Layer δ} (h : a'.channels = a.channels) : a'.taken = a.taken := by
  unfold taken
  rw [h]

variable {a a' : Layer δ} {d d' : δ} {h : Handle} {t : Transfers}

/-- No entry is given up if none of those that are taken meets the condition for it. -/
theorem taken_eq_diff {p : Handle → Prop} (hp : ∀ h ∈ a.taken, ¬ p h) :
    a.taken = a.taken \ {h | p h} := by
  ext h
  exact ⟨fun hh => ⟨hh, hp h hh⟩, And.left⟩

/-- An entry that stays free, or stays taken. -/
theorem taken_setChannel {c : Channel δ} (hc : c.state = .free ↔ (a.channels h).state = .free) :
    (a.setChannel h c).taken = a.taken := by
  ext k
  simp only [mem_taken, setChannel]
  by_cases hk : k = h
  · rw [hk, Function.update_self]
    exact not_congr hc
  · rw [Function.update_of_ne hk]

theorem taken_setChannel_free {c : Channel δ} (hc : c.state = .free) :
    (a.setChannel h c).taken = a.taken \ {h} := by
  ext k
  simp only [mem_taken, setChannel, Set.mem_sdiff, Set.mem_singleton_iff]
  by_cases hk : k = h
  · rw [hk, Function.update_self]
    exact ⟨fun hne => absurd hc hne, fun hne => absurd rfl hne.2⟩
  · rw [Function.update_of_ne hk]
    exact ⟨fun hne => ⟨hne, hk⟩, And.left⟩

theorem taken_setChannel_taken {c : Channel δ} (hc : c.state ≠ .free) :
    (a.setChannel h c).taken = insert h a.taken := by
  ext k
  simp only [mem_taken, setChannel, Set.mem_insert_iff]
  by_cases hk : k = h
  · rw [hk, Function.update_self]
    exact ⟨fun _ => .inl rfl, fun _ => hc⟩
  · rw [Function.update_of_ne hk]
    exact ⟨.inr, fun hne => hne.resolve_left hk⟩

/-- Sending for the channels takes and gives up no entry. -/
theorem taken_channelScan (n : ℕ) (a : Layer δ) : (channelScan n a).taken = a.taken := by
  induction n generalizing a with
  | zero => rfl
  | succ n ih =>
    rw [channelScan]
    dsimp only
    have hscan := ih { a with currentChannel := a.currentChannel + 1 }
    have hset (c : Channel δ) (p : Packet)
        (hc : c.state = .free ↔ (a.channels (a.currentChannel + 1)).state = .free) :
        (setChannel { a with currentChannel := a.currentChannel + 1, packet := p }
          (a.currentChannel + 1) c).taken = a.taken :=
      taken_setChannel (a := { a with currentChannel := a.currentChannel + 1, packet := p }) hc
    split_ifs with h1 h2 h3 h4
    · exact hscan
    · exact hset _ _ (by simp [h2])
    · exact hset _ _ (by simp)
    · exact hset _ _ (by simp [h4])
    · split
      · rename_i hidle _
        exact hset _ _ (by simp [hidle])
      · exact hscan

theorem taken_channelTasks (a : Layer δ) : a.channelTasks.taken = a.taken := by
  unfold channelTasks
  split
  · rfl
  · rfl
  · exact taken_channelScan _ a

/-! ## What a packet closes -/

theorem localId_of_addressed {arg1 : UInt32} (ha : a.addressed arg1 = some h) :
    (a.channels h).localId = arg1 := by
  unfold addressed at ha
  dsimp only at ha
  split_ifs at ha with hlt heq
  obtain rfl := Option.some.inj ha
  exact heq

/-- The packet `p` closes the channel `h`: it is an `ADB_CLSE` that addresses it, and the channel
has been asked for. -/
def ClosedBy (a : Layer δ) (p : Header) (h : Handle) : Prop :=
  p.command = adbClse ∧ a.addressed p.arg1 = some h ∧ (a.channels h).state ≠ .start

theorem closeChannel_cases (hc : a.closeChannel h d = some (a', d')) :
    (((a.channels h).state = .free ∨ (a.channels h).state = .start) ∧ a' = a) ∨
    ((a.channels h).state ≠ .start ∧
      a' = a.setChannel h { a.channels h with state := .free }) := by
  unfold closeChannel at hc
  cases hs : (a.channels h).state with
  | waitOpen | waitReady | idle =>
    simp only [hs, Option.map_eq_some_iff, Prod.mk.injEq] at hc
    obtain ⟨-, -, rfl, -⟩ := hc
    exact .inr ⟨by simp, rfl⟩
  | waitClose | closeRequested =>
    simp only [hs, Option.some.injEq, Prod.mk.injEq] at hc
    exact .inr ⟨by simp, hc.1.symm⟩
  | free =>
    simp only [hs, Option.some.injEq, Prod.mk.injEq] at hc
    exact .inl ⟨.inl rfl, hc.1.symm⟩
  | start =>
    simp only [hs, Option.some.injEq, Prod.mk.injEq] at hc
    exact .inl ⟨.inr rfl, hc.1.symm⟩

theorem taken_closeChannel (hc : a.closeChannel h d = some (a', d')) :
    a'.taken = a.taken \ {k | k = h ∧ (a.channels h).state ≠ .start} := by
  rcases closeChannel_cases hc with ⟨hs, rfl⟩ | ⟨hs, rfl⟩
  · apply taken_eq_diff
    rintro k hk ⟨rfl, hk'⟩
    exact hs.elim hk hk'
  · rw [taken_setChannel_free rfl]
    congr 1
    ext k
    exact ⟨fun hk => ⟨hk, hs⟩, And.left⟩

/-- Data that arrives for a channel is acknowledged; it is given to the client unless the channel is
being closed. -/
theorem writeChannel_cases {arg0 dataLen : UInt32}
    (hc : a.writeChannel h arg0 dataLen d = some (a', d')) :
    ((a.channels h).remoteId ≠ arg0 ∧ a' = a ∧ d' = d) ∨
    ((a.channels h).remoteId = arg0 ∧ a' = a.setChannel h { a.channels h with pendingAck := true } ∧
      (((a.channels h).state ≠ .closeRequested ∧ (a.channels h).state ≠ .waitClose ∧ dataLen > 0 ∧
          a.callRecvFunc h (some a.packet.recvData) dataLen.toNat d = some d') ∨
        (¬ ((a.channels h).state ≠ .closeRequested ∧ (a.channels h).state ≠ .waitClose ∧
          dataLen > 0) ∧ d' = d))) := by
  unfold writeChannel at hc
  by_cases hr : (a.channels h).remoteId = arg0
  · rw [if_pos hr] at hc
    obtain ⟨d₁, hd, heq⟩ := Option.map_eq_some_iff.1 hc
    obtain ⟨rfl, rfl⟩ := Prod.mk.inj heq
    refine .inr ⟨hr, rfl, ?_⟩
    split_ifs at hd with hopen
    · exact .inl ⟨hopen.1, hopen.2.1, hopen.2.2, hd⟩
    · exact .inr ⟨hopen, (Option.some.inj hd).symm⟩
  · rw [if_neg hr] at hc
    obtain ⟨rfl, rfl⟩ := Prod.mk.inj (Option.some.inj hc)
    exact .inl ⟨hr, rfl, rfl⟩

theorem taken_writeChannel {arg0 dataLen : UInt32}
    (hc : a.writeChannel h arg0 dataLen d = some (a', d')) : a'.taken = a.taken := by
  unfold writeChannel at hc
  by_cases hr : (a.channels h).remoteId = arg0
  · rw [if_pos hr] at hc
    simp only [Option.map_eq_some_iff, Prod.mk.injEq] at hc
    obtain ⟨-, -, rfl, -⟩ := hc
    exact taken_setChannel Iff.rfl
  · rw [if_neg hr] at hc
    obtain ⟨rfl, -⟩ := Prod.mk.inj (Option.some.inj hc)
    rfl

theorem okayChannel_free (arg0 : UInt32) (c : Channel δ) :
    (okayChannel arg0 c).state = .free ↔ c.state = .free := by
  unfold okayChannel
  split_ifs with h1 h2
  · simp [h1]
  · simp [h2.1]
  · rfl

/-- Handling a packet gives up the entry that the packet closes, and no other. -/
theorem taken_handlePacket (hc : a.handlePacket d = some (a', d')) :
    a'.taken = a.taken \ {h | a.ClosedBy a.packet.recvHeader h} := by
  have hother (hp : a.packet.recvHeader.command ≠ adbClse) :
      a.taken = a.taken \ {h | a.ClosedBy a.packet.recvHeader h} :=
    taken_eq_diff fun h _ hclosed => hp hclosed.1
  unfold handlePacket at hc
  dsimp only at hc
  split_ifs at hc with h1 h2 h3 h4 h5
  · obtain ⟨rfl, -⟩ := Prod.mk.inj (Option.some.inj hc)
    exact hother (by rw [h1]; decide)
  · obtain ⟨rfl, -⟩ := Prod.mk.inj (Option.some.inj hc)
    exact hother (by rw [h2]; decide)
  · have hne : a.packet.recvHeader.command ≠ adbClse := by
      rw [h3]
      decide
    split at hc
    · obtain ⟨rfl, -⟩ := Prod.mk.inj (Option.some.inj hc)
      rw [taken_setChannel (okayChannel_free _ _)]
      exact hother hne
    · obtain ⟨rfl, -⟩ := Prod.mk.inj (Option.some.inj hc)
      exact hother hne
  · split at hc
    · rename_i h ha
      rw [taken_closeChannel hc]
      congr 1
      ext k
      constructor
      · rintro ⟨rfl, hk⟩
        exact ⟨h4, ha, hk⟩
      · rintro ⟨-, hk, hs⟩
        obtain rfl := Option.some.inj (ha.symm.trans hk)
        exact ⟨rfl, hs⟩
    · rename_i ha
      obtain ⟨rfl, -⟩ := Prod.mk.inj (Option.some.inj hc)
      apply taken_eq_diff
      intro h _ hclosed
      exact Option.some_ne_none _ (hclosed.2.1.symm.trans ha)
  · split at hc
    · rw [taken_writeChannel hc]
      exact hother h4
    · obtain ⟨rfl, -⟩ := Prod.mk.inj (Option.some.inj hc)
      exact hother h4
  · obtain ⟨rfl, -⟩ := Prod.mk.inj (Option.some.inj hc)
    exact hother h4

theorem taken_bufferUnref (a : Layer δ) : a.bufferUnref.taken = a.taken := by
  unfold bufferUnref
  dsimp only
  split_ifs <;> rfl

/-- The packet that arrives in a call of `ADBTasks` closes the channel `h`. -/
def Closes (t : Transfers) (a : Layer δ) (h : Handle) : Prop :=
  (a.connState = .waitConnect ∨ a.connState = .connected) ∧ a.bufferRefcount > 0 ∧
    (a.packet.tasks t).recvStatus = .ok ∧ a.ClosedBy (a.packet.tasks t).recvHeader h

theorem taken_receiveTasks (hs : a.connState = .waitConnect ∨ a.connState = .connected)
    (hc : a.receiveTasks t d = some (a', d')) : a'.taken = a.taken \ {h | a.Closes t h} := by
  unfold receiveTasks at hc
  dsimp only at hc
  split_ifs at hc with hr
  · split at hc
    · rename_i hstatus
      obtain ⟨rfl, -⟩ := Prod.mk.inj (Option.some.inj hc)
      exact taken_eq_diff fun h _ hclose => by cases hstatus.symm.trans hclose.2.2.1
    · rename_i hstatus
      obtain ⟨rfl, -⟩ := Prod.mk.inj (Option.some.inj hc)
      rw [taken_bufferUnref]
      exact taken_eq_diff fun h _ hclose => by cases hstatus.symm.trans hclose.2.2.1
    · rename_i hstatus
      simp only [Option.map_eq_some_iff, Prod.mk.injEq] at hc
      obtain ⟨⟨a₁, d₁⟩, hp, rfl, -⟩ := hc
      rw [taken_bufferUnref, taken_handlePacket hp]
      congr 1
      ext h
      exact ⟨fun hclosed => ⟨hs, hr, hstatus, hclosed⟩, fun hclose => hclose.2.2.2⟩
  · obtain ⟨rfl, -⟩ := Prod.mk.inj (Option.some.inj hc)
    exact taken_eq_diff fun h _ hclose => hr hclose.2.1

/-- The second part of `ADBTasks` gives up no entry, or it returns -1 and the connection is over. -/
theorem taken_stateTasks {attached : Bool} {r : ℤ}
    (hc : a.stateTasks attached d = some (r, a', d')) :
    (r = -1 ∧ a'.connected = false) ∨ (r ≠ -1 ∧ a'.taken = a.taken) := by
  have hne (b : Bool) : (if b then 1 else 0 : ℤ) ≠ -1 := by cases b <;> decide
  unfold stateTasks at hc
  split at hc
  · obtain ⟨rfl, rfl, -⟩ := (Prod.mk.inj (Option.some.inj hc)).imp_right Prod.mk.inj
    refine .inr ⟨hne _, taken_congr ?_⟩
    split_ifs <;> rfl
  · obtain ⟨rfl, rfl, -⟩ := (Prod.mk.inj (Option.some.inj hc)).imp_right Prod.mk.inj
    exact .inr ⟨hne _, rfl⟩
  · obtain ⟨rfl, rfl, -⟩ := (Prod.mk.inj (Option.some.inj hc)).imp_right Prod.mk.inj
    exact .inr ⟨hne _, taken_channelTasks a⟩
  · simp only [Option.map_eq_some_iff, Prod.mk.injEq] at hc
    obtain ⟨⟨a₁, d₁⟩, hreset, rfl, rfl, -⟩ := hc
    obtain ⟨d₂, -, hd₂⟩ := Option.bind_eq_some_iff.1 hreset
    obtain ⟨rfl, -⟩ := Prod.mk.inj (Option.some.inj hd₂)
    exact .inl ⟨rfl, rfl⟩

/-- **What `ADBTasks` does to the table**: with a device attached, it gives up the entry that an
arriving packet closes, and no other, unless it returns -1 and the connection is over. -/
theorem taken_tasks {r : ℤ} (hc : a.tasks true t d = some (r, a', d')) :
    (r = -1 ∧ a'.connected = false) ∨ (r ≠ -1 ∧ a'.taken = a.taken \ {h | a.Closes t h}) := by
  unfold tasks at hc
  rw [if_pos rfl] at hc
  split_ifs at hc with hs
  · obtain ⟨⟨a₁, d₁⟩, h₁, h₂⟩ := Option.bind_eq_some_iff.1 hc
    rw [← taken_receiveTasks hs h₁]
    exact taken_stateTasks h₂
  · refine (taken_stateTasks hc).imp_right fun h => ⟨h.1, h.2.trans ?_⟩
    exact taken_eq_diff fun h _ hclose => hs hclose.1

/-! ## Opening a channel -/

theorem firstFree_eq_none : a.firstFree = none ↔ a.taken = Set.univ := by
  unfold firstFree
  rw [List.find?_eq_none, Set.eq_univ_iff_forall]
  simp [mem_taken]

theorem adbOpen_eq_some {name : List Byte} {f : RecvFunc δ}
    (hopen : a.adbOpen name f = (some h, a')) :
    a.firstFree = some h ∧
      a' = { a.setChannel h { a.channels h with
          state := .start
          name := name
          pendingAck := false
          data := none
          recvFunc := some f
          localId := a.localIdCounter <<< 8 ||| .ofNat h }
        with localIdCounter := a.localIdCounter + 1 } := by
  unfold adbOpen at hopen
  cases hfree : a.firstFree with
  | none =>
    rw [hfree] at hopen
    cases hopen
  | some k =>
    rw [hfree] at hopen
    obtain ⟨heq, rfl⟩ := Prod.mk.inj hopen
    obtain rfl := Option.some.inj heq
    exact ⟨rfl, rfl⟩

theorem adbOpen_eq_none {name : List Byte} {f : RecvFunc δ}
    (hopen : a.adbOpen name f = (none, a')) : a' = a ∧ a.taken = Set.univ := by
  unfold adbOpen at hopen
  cases hfree : a.firstFree with
  | none =>
    rw [hfree] at hopen
    exact ⟨(Prod.mk.inj hopen).2.symm, firstFree_eq_none.1 hfree⟩
  | some k =>
    rw [hfree] at hopen
    cases hopen

/-- **What `ADBOpen` does to the table**: it takes an entry that was free. -/
theorem taken_adbOpen {name : List Byte} {f : RecvFunc δ}
    (hopen : a.adbOpen name f = (some h, a')) :
    h ∉ a.taken ∧ a'.taken = insert h a.taken ∧ (a'.channels h).state = .start := by
  obtain ⟨hf, rfl⟩ := adbOpen_eq_some hopen
  refine ⟨?_, ?_, ?_⟩
  · have hfree := List.find?_some hf
    rw [mem_taken, not_not]
    simpa using hfree
  · exact taken_setChannel_taken ChanState.noConfusion
  · simp [setChannel]

theorem taken_adbWrite (h : Handle) (data : List Byte) (a : Layer δ) :
    (a.adbWrite h data).taken = a.taken := taken_setChannel Iff.rfl

theorem taken_init (a : Layer δ) : a.init.taken = ∅ := by
  ext h
  exact ⟨fun hh => absurd rfl hh, False.elim⟩

end Layer

end TPadFire.Adb
