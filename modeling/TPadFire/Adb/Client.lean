import TPadFire.Adb.Turns
import TPadFire.Adb.Wire
import TPadFire.Foundations.Monitor

/-!
# The ADB layer and its client

The layer as a system of the calls that a program makes of it, in any order: `ADBInit`, `ADBOpen`,
`ADBWrite`, `ADBClose` and `ADBTasks`, the last with all that the USB layer may answer. Its state
is that of the layer and of the client's callbacks, which call nothing of the layer. No client here
keeps the receive buffer (`ADBBufferRef`).

`events` is what a call makes visible of the channels: what the client asks for, the packets that
`ADBHandlePacket` is given, and those that `ADBPacketSend` is given for a channel. The last are read
off the packet layer; `channelTasks_given` says which they are.
-/

namespace TPadFire.Adb

open Firmware (Byte)

/-- A call of the layer. -/
inductive Op (δ : Type*)
  | adbInit
  | adbOpen (name : List Byte) (recvFunc : RecvFunc δ)
  | adbWrite (h : Handle) (data : List Byte)
  | adbClose (h : Handle)
  | adbTasks (attached : Bool) (t : Transfers)

/-- What happens to the channels. A channel is named by its local id. -/
inductive Event
  /-- `ADBOpen` has taken an entry of the table for the channel. -/
  | opened (id : UInt32)
  /-- `ADBWrite` is called for the channel. -/
  | wrote (id : UInt32) (data : List Byte)
  /-- `ADBClose` is called for the channel. -/
  | closing (id : UInt32)
  /-- A packet is sent for a channel. -/
  | sent (command arg0 arg1 : UInt32) (data : List Byte)
  /-- A packet that has arrived is handled. -/
  | received (command arg0 arg1 : UInt32)
  /-- The table is cleared. -/
  | cleared
  deriving DecidableEq

/-- A channel is opened. -/
def Event.isOpened : Event → Bool
  | opened _ => true
  | wrote _ _ | closing _ | sent _ _ _ _ | received _ _ _ | cleared => false

/-- The packet that `ADBPacketSend` has been given between two states of the packet layer, if it has
been called: no other function puts a send into its first state. -/
def Packet.given (p p' : Packet) : List Event :=
  if p.sendState ≠ .start ∧ p'.sendState = .start then
    [.sent p'.sendHeader.command p'.sendHeader.arg0 p'.sendHeader.arg1 p'.sendData]
  else []

variable {δ : Type*}

namespace Layer

/-- The packet that a call of `ADBTasks` handles in its first part, if one has arrived. -/
def handled (t : Transfers) (a : Layer δ) : Option Header :=
  if a.bufferRefcount > 0 ∧ (a.packet.tasks t).recvStatus = .ok then
    some (a.packet.tasks t).recvHeader
  else none

/-- What the second part of `ADBTasks` does to the channels. -/
def stateEvents (a : Layer δ) : List Event :=
  match a.connState with
  | .waitAttach | .waitConnect => []
  | .connected => a.packet.given a.channelTasks.packet
  | .error => [.cleared]

/-- What `ADBTasks` does to the channels. -/
def tasksEvents (attached : Bool) (t : Transfers) (a : Layer δ) (d : δ) : List Event :=
  if a.connState = .waitConnect ∨ a.connState = .connected then
    if attached then
      (a.handled t).toList.map (fun p => .received p.command p.arg0 p.arg1) ++
        ((a.receiveTasks t d).map fun r => r.1.stateEvents).getD []
    else [.cleared]
  else a.stateEvents

/-- **What a call of `ADBChannelTasks` hands over**: no packet, or the message of the channel whose
turn it is. -/
theorem channelTasks_given {a : Layer δ} (hconn : a.connState = .connected) :
    (a.stateEvents = [] ∧ (a.channelTasks = a ∨ a.channelTasks = { a with connState := .error })) ∨
    ∃ h m, a.next = some h ∧ (a.channels h).message = some m ∧ a.channelTasks = a.serve h m ∧
      a.stateEvents = [.sent m.1 (a.channels h).localId m.2.1 m.2.2] := by
  unfold stateEvents
  rw [hconn]
  dsimp only
  rcases a.channelTasks_cases with ⟨-, heq⟩ | ⟨-, heq⟩ | ⟨-, -, heq⟩ | ⟨hs, h, m, hn, hm, heq⟩
  · exact .inl ⟨by rw [heq]; exact if_neg fun h => h.1 h.2, .inl heq⟩
  · exact .inl ⟨by rw [heq]; exact if_neg fun h => h.1 h.2, .inr heq⟩
  · exact .inl ⟨by rw [heq]; exact if_neg fun h => h.1 h.2, .inl heq⟩
  · refine .inr ⟨h, m, hn, hm, heq, ?_⟩
    have hidle : a.packet.sendState ≠ .start := by
      intro hstart
      unfold Packet.sendStatus at hs
      rw [hstart] at hs
      cases hs
    rw [heq]
    exact if_pos ⟨hidle, rfl⟩

end Layer

namespace Op

/-- A call. -/
def apply : Op δ → Layer δ × δ → Option (Layer δ × δ)
  | adbInit, (a, d) => some (a.init, d)
  | adbOpen name recvFunc, (a, d) => some ((a.adbOpen name recvFunc).2, d)
  | adbWrite h data, (a, d) => some (a.adbWrite h data, d)
  | adbClose h, (a, d) => some (a.adbClose h, d)
  | adbTasks attached t, (a, d) => (a.tasks attached t d).map Prod.snd

/-- What a call does to the channels. -/
def events : Op δ → Layer δ × δ → List Event
  | adbInit, _ => [.cleared]
  | adbOpen _ _, (a, _) =>
    match a.firstFree with
    | some h => [.opened (a.localIdCounter <<< 8 ||| .ofNat h)]
    | none => []
  | adbWrite h data, (a, _) =>
    if (a.channels h).state = .free then [] else [.wrote (a.channels h).localId data]
  | adbClose h, (a, _) =>
    if (a.channels h).state = .free then [] else [.closing (a.channels h).localId]
  | adbTasks attached t, (a, d) => a.tasksEvents attached t d

end Op

/-- The layer as a system of calls. -/
def client (δ : Type*) : Lts (Layer δ × δ) (Op δ) := ⟨fun s op s' => op.apply s = some s'⟩

/-- The layer as it is loaded, with no packet in its memory. -/
def Layer.loaded : Layer δ :=
  ⟨.error, fun _ => .zero, 0, 1, firstHandle,
    ⟨⟨0, 0, 0, 0, 0, 0⟩, ⟨0, 0, 0, 0, 0, 0⟩, .start, .start, [], fun _ => 0⟩⟩

/-- Calls that are made one after another, and what they do to the channels. -/
theorem emits_of_performs (ops : List (Op δ)) (s : Layer δ × δ) {es : List Event}
    (h : (Lts.perform Op.apply (fun s op => op.events s) ops s).map Prod.snd = some es) :
    ∃ s', (client δ).Emits (fun s op => op.events s) s ops es s' := by
  obtain ⟨⟨s', es'⟩, hrun, rfl⟩ := Option.map_eq_some_iff.1 h
  exact ⟨s', Lts.emits_of_perform (fun _ _ _ happly => happly) hrun⟩

@[simp] theorem client_step {s s' : Layer δ × δ} {op : Op δ} :
    (client δ).step s op s' ↔ op.apply s = some s' := Iff.rfl

end TPadFire.Adb
