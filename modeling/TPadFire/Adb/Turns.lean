import TPadFire.Adb.Channels
import TPadFire.Foundations.RoundRobin

/-!
# Whose turn it is to send

`ADBChannelTasks` sends for one channel at a time and goes on from the channel that it served last.
`Channel.message` is what a channel has to send, and `next` the channel that is served: the loop of
`ADBChannelTasks` is a round-robin scan (`channelScan_eq`), and `channelTasks_cases` says what a
call can have done.
-/

namespace TPadFire.Adb

open Firmware (Byte)

variable {δ : Type*}

/-- What a channel has to send: a command, the second argument and the data. -/
def Channel.message (c : Channel δ) : Option (UInt32 × UInt32 × List Byte) :=
  if c.state = .free then none
  else if c.state = .start then some (adbOpenCommand, 0, c.name)
  else if c.pendingAck then some (adbOkay, c.remoteId, [])
  else if c.state = .closeRequested then some (adbClse, c.remoteId, [])
  else
    match c.state, c.data with
    | .idle, some data => some (adbWrte, c.remoteId, data)
    | _, _ => none

/-- The channel when it has sent what it has to send. -/
def Channel.sent (c : Channel δ) : Channel δ :=
  if c.state = .start then { c with state := .waitOpen }
  else if c.pendingAck then { c with pendingAck := false }
  else if c.state = .closeRequested then { c with state := .waitClose }
  else { c with state := .waitReady }

theorem Channel.recvFunc_sent (c : Channel δ) : c.sent.recvFunc = c.recvFunc := by
  unfold sent
  split_ifs <;> rfl

theorem Channel.localId_sent (c : Channel δ) : c.sent.localId = c.localId := by
  unfold sent
  split_ifs <;> rfl

/-- An entry that has something to send is in use. -/
theorem Channel.ne_free_of_message {c : Channel δ} (hm : c.message ≠ none) : c.state ≠ .free := by
  intro hfree
  unfold message at hm
  exact hm (if_pos hfree)

namespace Layer

/-- The channel `h` has something to send. -/
def wants (a : Layer δ) (h : Handle) : Bool := (a.channels h).message.isSome

/-- The channel that is served next. -/
def next (a : Layer δ) : Option Handle := RoundRobin.scan a.wants adbMaxChannels a.currentChannel

/-- The message `m` is sent for the channel `h`, whose turn it was. -/
def serve (h : Handle) (m : UInt32 × UInt32 × List Byte) (a : Layer δ) : Layer δ :=
  ({ a with currentChannel := h }.sendFor (a.channels h) m.1 m.2.1 m.2.2).setChannel h
    (a.channels h).sent

variable {a : Layer δ} {h : Handle}

/-- A round of the loop serves the channel after the cursor or goes on to the next one. -/
theorem channelScan_succ (n : ℕ) (a : Layer δ) :
    channelScan (n + 1) a =
      match (a.channels (a.currentChannel + 1)).message with
      | some m => a.serve (a.currentChannel + 1) m
      | none => channelScan n { a with currentChannel := a.currentChannel + 1 } := by
  rw [channelScan]
  by_cases h1 : (a.channels (a.currentChannel + 1)).state = .free
  · simp only [Channel.message, h1, if_true]
  by_cases h2 : (a.channels (a.currentChannel + 1)).state = .start
  · simp only [Channel.message, serve, Channel.sent, h2, if_true, reduceCtorEq, if_false]
  by_cases h3 : (a.channels (a.currentChannel + 1)).pendingAck = true
  · simp only [Channel.message, serve, Channel.sent, h1, h2, h3, if_true, if_false]
  by_cases h4 : (a.channels (a.currentChannel + 1)).state = .closeRequested
  · simp only [Channel.message, serve, Channel.sent, h3, h4, if_true, reduceCtorEq, if_false,
      Bool.false_eq_true]
  · simp only [Channel.message, serve, Channel.sent, h1, h2, h3, h4, if_false, Bool.false_eq_true]
    cases (a.channels (a.currentChannel + 1)).state with
    | idle => cases (a.channels (a.currentChannel + 1)).data <;> rfl
    | free | start | waitOpen | waitReady | closeRequested | waitClose => rfl

/-- The loop of `ADBChannelTasks` is a scan of the channels for one that has something to send. -/
theorem channelScan_eq (n : ℕ) (a : Layer δ) :
    (∃ h m, RoundRobin.scan a.wants n a.currentChannel = some h ∧
      (a.channels h).message = some m ∧ channelScan n a = a.serve h m) ∨
    (RoundRobin.scan a.wants n a.currentChannel = none ∧
      channelScan n a = { a with currentChannel := (· + 1)^[n] a.currentChannel }) := by
  induction n generalizing a with
  | zero => exact .inr ⟨rfl, rfl⟩
  | succ n ih =>
    rw [channelScan_succ, RoundRobin.scan]
    cases hm : (a.channels (a.currentChannel + 1)).message with
    | some m =>
      have hw : a.wants (a.currentChannel + 1) = true := by
        unfold wants
        rw [hm]
        rfl
      exact .inl ⟨_, m, if_pos hw, hm, rfl⟩
    | none =>
      have hw : ¬ a.wants (a.currentChannel + 1) = true := by
        unfold wants
        rw [hm]
        exact Bool.false_ne_true
      rw [if_neg hw, Function.iterate_succ_apply]
      exact ih { a with currentChannel := a.currentChannel + 1 }

theorem iterate_adbMaxChannels (c : Handle) : (· + 1)^[adbMaxChannels] c = c := by
  revert c
  decide

/-- **What a call of `ADBChannelTasks` can have done**: nothing, or the connection has failed, or
it has sent the message of the channel whose turn it is. -/
theorem channelTasks_cases (a : Layer δ) :
    (a.packet.sendStatus = .busy ∧ a.channelTasks = a) ∨
    (a.packet.sendStatus = .error ∧ a.channelTasks = { a with connState := .error }) ∨
    (a.packet.sendStatus = .ok ∧ a.next = none ∧ a.channelTasks = a) ∨
    (a.packet.sendStatus = .ok ∧ ∃ h m, a.next = some h ∧ (a.channels h).message = some m ∧
      a.channelTasks = a.serve h m) := by
  unfold channelTasks
  cases hs : a.packet.sendStatus with
  | busy => exact .inl ⟨rfl, rfl⟩
  | error => exact .inr (.inl ⟨rfl, rfl⟩)
  | ok =>
    rcases channelScan_eq adbMaxChannels a with ⟨h, m, hn, hm, heq⟩ | ⟨hn, heq⟩
    · exact .inr (.inr (.inr ⟨rfl, h, m, hn, hm, heq⟩))
    · rw [iterate_adbMaxChannels] at heq
      exact .inr (.inr (.inl ⟨rfl, hn, heq⟩))

end Layer

end TPadFire.Adb
