import TPadFire.Foundations.Lts
import TPadFire.Host.Server

/-!
# `isConnected` and the list of clients

`startTPad` starts the server and then registers a listener, which sets `isConnected` when a client
connects and clears it when one disconnects. The accept thread adds the clients to the list, after
their communication threads have been started. A client is taken off the list, and the listener is
called, by its communication thread when that ends, and by a thread whose write to the client fails.
Threads are interleaved in any order: a step of `system` is one step of one thread.

The flag is that of the last notification, whatever other clients there are, so it follows the list
only as long as every notification comes at the right time (`Timely`); `isConnected_tracks` is about
such runs, and in `isConnected_lost` one of two clients leaves. A sending thread that is left alone
does what `Server.send` does (`send_run`).
-/

namespace TPadFire.Host

open Firmware (Byte)

/-- How far `startTPad` has come. -/
inductive Startup
  | initial
  | started
  | registered
  deriving DecidableEq

/-- The accept thread: in `accept`, with a new client, with one that is on the list, or after an
exception. -/
inductive Accept (κ : Type*)
  | waiting
  | created (client : κ)
  | added (client : κ)
  | ended

/-- The thread is going to call the listener. -/
def Accept.Connecting {κ : Type*} : Accept κ → Prop
  | waiting | ended => False
  | created _ | added _ => True

/-- The communication thread of a client. -/
inductive Communication
  | absent
  | running
  /-- It has left its loop. -/
  | exited
  /-- It has taken its client off the list. -/
  | removed
  | ended
  deriving DecidableEq

/-- A thread in `Server.send`: the clients that are left of the snapshot, and how far it is with a
broken one. -/
inductive Sender (κ : Type*)
  | idle
  | sending (rest : List κ)
  | broken (client : κ) (rest : List κ)
  | closed (client : κ) (rest : List κ)
  | removed (client : κ) (rest : List κ)

/-- The broken client that the thread is going to take off the list. -/
def Sender.removing {κ : Type*} : Sender κ → Option κ
  | idle | sending _ | removed _ _ => none
  | broken c _ | closed c _ => some c

/-- The thread is going to call the listener. -/
def Sender.Disconnecting {κ : Type*} : Sender κ → Prop
  | idle | sending _ => False
  | broken _ _ | closed _ _ | removed _ _ => True

theorem Sender.disconnecting_of_removing {κ : Type*} {p : Sender κ} {c : κ}
    (h : p.removing = some c) : p.Disconnecting := by
  cases p with
  | idle => cases h
  | sending rest => cases h
  | removed c rest => cases h
  | broken c rest => trivial
  | closed c rest => trivial

/-- The server and its threads, with clients `κ` and sending threads `τ`. -/
structure Connections (κ τ : Type*) where
  startup : Startup
  clients : List κ
  isConnected : Bool
  accept : Accept κ
  communication : κ → Communication
  keepAlive : κ → Bool
  sender : τ → Sender κ

/-- The steps of the threads. -/
inductive Action (κ τ : Type*)
  /-- `startTPad` -/
  | start
  | addListener
  /-- The accept thread. -/
  | create (client : κ)
  | reject
  | add
  | connected
  /-- The communication thread of a client. -/
  | exit (client : κ)
  | remove (client : κ)
  | disconnected (client : κ)
  /-- A thread that sends. -/
  | snapshot (thread : τ)
  | write (thread : τ)
  | abort (thread : τ)
  | fail (thread : τ)
  | close (thread : τ)
  | removeBroken (thread : τ)
  | disconnectedBroken (thread : τ)
  | finish (thread : τ)

namespace Connections

variable {κ τ : Type*} [DecidableEq κ] [DecidableEq τ]

/-- Before `startTPad` starts the server. -/
def initial : Connections κ τ where
  startup := .initial
  clients := []
  isConnected := false
  accept := .waiting
  communication _ := .absent
  keepAlive _ := true
  sender _ := .idle

/-- The listeners are called: the only one, if it has been registered, sets the flag. -/
def notify (n : Connections κ τ) (connected : Bool) : Connections κ τ :=
  { n with isConnected := if n.startup = .registered then connected else n.isConnected }

/-- A communication thread goes on. -/
def setCommunication (n : Connections κ τ) (c : κ) (p : Communication) : Connections κ τ :=
  { n with communication := Function.update n.communication c p }

/-- A thread that sends goes on. -/
def setSender (n : Connections κ τ) (t : τ) (p : Sender κ) : Connections κ τ :=
  { n with sender := Function.update n.sender t p }

/-- One step of one thread. -/
inductive Step : Connections κ τ → Action κ τ → Connections κ τ → Prop
  | start {n : Connections κ τ} (h : n.startup = .initial) :
      Step n .start { n with startup := .started }
  | addListener {n : Connections κ τ} (h : n.startup = .started) :
      Step n .addListener { n with startup := .registered }
  | create {n : Connections κ τ} {c : κ} (hs : n.startup ≠ .initial) (ha : n.accept = .waiting)
      (hc : n.communication c = .absent) :
      Step n (.create c) { n.setCommunication c .running with accept := .created c }
  | reject {n : Connections κ τ} (h : n.accept = .waiting) :
      Step n .reject { n with accept := .ended }
  | add {n : Connections κ τ} {c : κ} (h : n.accept = .created c) :
      Step n .add { n with clients := n.clients ++ [c], accept := .added c }
  | connected {n : Connections κ τ} {c : κ} (h : n.accept = .added c) :
      Step n .connected { n.notify true with accept := .waiting }
  | exit {n : Connections κ τ} {c : κ} (h : n.communication c = .running) :
      Step n (.exit c) (n.setCommunication c .exited)
  | remove {n : Connections κ τ} {c : κ} (h : n.communication c = .exited) :
      Step n (.remove c) { n.setCommunication c .removed with clients := n.clients.erase c }
  | disconnected {n : Connections κ τ} {c : κ} (h : n.communication c = .removed) :
      Step n (.disconnected c) ((n.notify false).setCommunication c .ended)
  | snapshot {n : Connections κ τ} {t : τ} (h : n.sender t = .idle) :
      Step n (.snapshot t) (n.setSender t (.sending n.clients))
  | write {n : Connections κ τ} {t : τ} {c : κ} {rest : List κ}
      (h : n.sender t = .sending (c :: rest)) : Step n (.write t) (n.setSender t (.sending rest))
  | abort {n : Connections κ τ} {t : τ} {c : κ} {rest : List κ}
      (h : n.sender t = .sending (c :: rest)) : Step n (.abort t) (n.setSender t .idle)
  | fail {n : Connections κ τ} {t : τ} {c : κ} {rest : List κ}
      (h : n.sender t = .sending (c :: rest)) : Step n (.fail t) (n.setSender t (.broken c rest))
  | close {n : Connections κ τ} {t : τ} {c : κ} {rest : List κ}
      (h : n.sender t = .broken c rest) :
      Step n (.close t)
        { n.setSender t (.closed c rest) with keepAlive := Function.update n.keepAlive c false }
  | removeBroken {n : Connections κ τ} {t : τ} {c : κ} {rest : List κ}
      (h : n.sender t = .closed c rest) :
      Step n (.removeBroken t)
        { n.setSender t (.removed c rest) with clients := n.clients.erase c }
  | disconnectedBroken {n : Connections κ τ} {t : τ} {c : κ} {rest : List κ}
      (h : n.sender t = .removed c rest) :
      Step n (.disconnectedBroken t) ((n.notify false).setSender t (.sending rest))
  | finish {n : Connections κ τ} {t : τ} (h : n.sender t = .sending []) :
      Step n (.finish t) (n.setSender t .idle)

/-- The threads, in any order. -/
def system : Lts (Connections κ τ) (Action κ τ) := ⟨Step⟩

/-! ## A sending thread -/

/-- The step is one of the sending thread `t`. -/
def OfSender (t : τ) (a : Action κ τ) : Prop :=
  a = .snapshot t ∨ a = .write t ∨ a = .abort t ∨ a = .fail t ∨ a = .close t ∨
    a = .removeBroken t ∨ a = .disconnectedBroken t ∨ a = .finish t

theorem sendEach_run {ι : Type*} (write : κ → Write) (data : List Byte) {t : τ} {cs : List κ}
    {n : Connections κ τ} {s : Server ι κ} (ht : n.sender t = .sending cs)
    (hs : s.clients = n.clients) :
    ∃ as n', system.Run n as n' ∧ (∀ a ∈ as, OfSender t a) ∧ n'.sender t = .idle ∧
      n'.clients = (Server.sendEach write data cs s).server.clients := by
  induction cs generalizing n s with
  | nil =>
    refine ⟨[.finish t], _, .cons (.finish ht) (.nil _), ?_, Function.update_self .., hs.symm⟩
    simp [OfSender]
  | cons c cs ih =>
    rw [Server.sendEach, Client.send]
    cases write c with
    | written =>
      obtain ⟨as, n', hrun, hof, hn'⟩ := ih (n := n.setSender t (.sending cs)) (s := s)
        (Function.update_self ..) hs
      exact ⟨.write t :: as, n', .cons (.write ht) hrun,
        List.forall_mem_cons.2 ⟨by simp [OfSender], hof⟩, hn'⟩
    | ioException =>
      refine ⟨[.abort t], _, .cons (.abort ht) (.nil _), ?_, Function.update_self .., hs.symm⟩
      simp [OfSender]
    | socketException =>
      -- the thread closes the client and takes it off the list before it goes on
      obtain ⟨n₁, hstep₁, ht₁, hn₁⟩ : ∃ n₁, Step n (.fail t) n₁ ∧
          n₁.sender t = .broken c cs ∧ n₁.clients = n.clients :=
        ⟨_, .fail ht, Function.update_self .., rfl⟩
      obtain ⟨n₂, hstep₂, ht₂, hn₂⟩ : ∃ n₂, Step n₁ (.close t) n₂ ∧
          n₂.sender t = .closed c cs ∧ n₂.clients = n₁.clients :=
        ⟨_, .close ht₁, Function.update_self .., rfl⟩
      obtain ⟨n₃, hstep₃, ht₃, hn₃⟩ : ∃ n₃, Step n₂ (.removeBroken t) n₃ ∧
          n₃.sender t = .removed c cs ∧ n₃.clients = n₂.clients.erase c :=
        ⟨_, .removeBroken ht₂, Function.update_self .., rfl⟩
      obtain ⟨n₄, hstep₄, ht₄, hn₄⟩ : ∃ n₄, Step n₃ (.disconnectedBroken t) n₄ ∧
          n₄.sender t = .sending cs ∧ n₄.clients = n₃.clients :=
        ⟨_, .disconnectedBroken ht₃, Function.update_self .., rfl⟩
      obtain ⟨as, n', hrun, hof, hn'⟩ := ih (n := n₄) (s := (s.disconnectClient c).1) ht₄
        (by rw [hn₄, hn₃, hn₂, hn₁, ← hs]; rfl)
      refine ⟨_, n', .cons hstep₁ <| .cons hstep₂ <| .cons hstep₃ <| .cons hstep₄ hrun, ?_, hn'⟩
      simp only [List.forall_mem_cons]
      exact ⟨by simp [OfSender], by simp [OfSender], by simp [OfSender], by simp [OfSender], hof⟩

/-- **A sending thread alone** does what `Server.send` does: a run of its steps takes it through the
list and leaves the clients that `Server.send` leaves. -/
theorem send_run {ι : Type*} (write : κ → Write) (data : List Byte) {t : τ} {n : Connections κ τ}
    {s : Server ι κ} (ht : n.sender t = .idle) (hs : s.clients = n.clients) :
    ∃ as n', system.Run n as n' ∧ (∀ a ∈ as, OfSender t a) ∧ n'.sender t = .idle ∧
      n'.clients = (s.send write data).server.clients := by
  obtain ⟨as, n', hrun, hof, hn'⟩ := sendEach_run write data
    (n := n.setSender t (.sending n.clients)) (s := s) (Function.update_self ..) hs
  rw [← hs] at hn'
  exact ⟨.snapshot t :: as, n', .cons (.snapshot ht) hrun,
    List.forall_mem_cons.2 ⟨by simp [OfSender], hof⟩, hn'⟩

/-! ## What is pending -/

/-- The client is on the list, and nothing is under way that takes it off. -/
structure Staying (n : Connections κ τ) (c : κ) : Prop where
  mem : c ∈ n.clients
  running : n.communication c = .running
  keepAlive : n.keepAlive c = true
  sender : ∀ t, (n.sender t).removing ≠ some c

/-- The accept thread has a client to announce. -/
def ConnectPending (n : Connections κ τ) : Prop := n.accept.Connecting

/-- The communication thread has left its loop, or is going to, and has not yet ended. -/
def Leaving (n : Connections κ τ) (c : κ) : Prop :=
  n.communication c = .exited ∨ n.communication c = .removed ∨
    (n.communication c = .running ∧ n.keepAlive c = false)

/-- A thread has a disconnection to announce. -/
def DisconnectPending (n : Connections κ τ) : Prop :=
  (∃ c, n.Leaving c) ∨ ∃ t, (n.sender t).Disconnecting

/-- No step of `startTPad`, of a connection, of a disconnection or of a sender is pending. -/
structure Quiescent (n : Connections κ τ) : Prop where
  startup : n.startup = .registered
  accept : ¬n.ConnectPending
  communication : ∀ c, ¬n.Leaving c
  sender : ∀ t, n.sender t = .idle

/-- The step comes at the right time. The listener is registered, and a disconnection announced,
with no client that stays, unless a connection is still to be announced; a connection is announced
with one that stays, unless a disconnection is still to be announced; and a client is added before
its communication thread has taken it off the list. -/
def Timely (n : Connections κ τ) : Action κ τ → Prop
  | .addListener => (∃ c, n.Staying c) → n.ConnectPending
  | .add => ∀ c, n.accept = .created c →
      n.communication c = .running ∨ n.communication c = .exited
  | .connected => n.startup = .registered → (∃ c, n.Staying c) ∨ n.DisconnectPending
  | .disconnected _ | .disconnectedBroken _ =>
      n.startup = .registered → (∃ c, n.Staying c) → n.ConnectPending
  | .start | .create _ | .reject | .exit _ | .remove _ | .snapshot _ | .write _ | .abort _
  | .fail _ | .close _ | .removeBroken _ | .finish _ => True

/-! ## The list -/

/-- The list has no client twice, nor one whose communication thread has taken it off. -/
structure Listed (n : Connections κ τ) : Prop where
  nodup : n.clients.Nodup
  created : ∀ c, n.accept = .created c → c ∉ n.clients
  communication : ∀ c ∈ n.clients, n.communication c = .running ∨ n.communication c = .exited

variable {n n' : Connections κ τ} {a : Action κ τ}

omit [DecidableEq κ] [DecidableEq τ] in
/-- A step that takes clients off the list, or none. -/
theorem Listed.of_sublist (h : n.Listed) (hclients : n'.clients.Sublist n.clients)
    (haccept : ∀ c, n'.accept = .created c → n.accept = .created c)
    (hcomm : ∀ c ∈ n'.clients, n'.communication c = n.communication c) : n'.Listed where
  nodup := h.nodup.sublist hclients
  created c hc hmem := h.created c (haccept c hc) (hclients.subset hmem)
  communication c hc := by
    rw [hcomm c hc]
    exact h.communication c (hclients.subset hc)

theorem listed_step (h : n.Listed) (hstep : system.step n a n') (ht : n.Timely a) : n'.Listed := by
  cases hstep with
  | start _ => exact h.of_sublist (.refl _) (fun _ => id) fun _ _ => rfl
  | addListener _ => exact h.of_sublist (.refl _) (fun _ => id) fun _ _ => rfl
  | @create c _ _ hc =>
    have hnew : c ∉ n.clients := fun hmem => by
      rcases h.communication c hmem with hrun | hrun <;> simp [hc] at hrun
    refine ⟨h.nodup, fun c' hc' => ?_, fun c' hc' => ?_⟩
    · cases hc'
      exact hnew
    · have hne : c' ≠ c := fun heq => hnew (heq ▸ hc')
      simpa [setCommunication, hne] using h.communication c' hc'
  | reject _ => exact h.of_sublist (.refl _) (fun _ hc => by cases hc) fun _ _ => rfl
  | @add c hc =>
    refine ⟨?_, fun c' hc' => (by cases hc'), fun c' hc' => ?_⟩
    · exact List.nodup_append'.2 ⟨h.nodup, List.nodup_singleton c,
        List.disjoint_singleton.2 (h.created c hc)⟩
    · rcases List.mem_append.1 hc' with hmem | hmem
      · exact h.communication c' hmem
      · rw [List.mem_singleton.1 hmem]
        exact ht c hc
  | connected _ =>
    exact h.of_sublist (.refl _) (fun _ hc => by cases hc) fun _ _ => rfl
  | @exit c hc =>
    refine ⟨h.nodup, h.created, fun c' hc' => ?_⟩
    by_cases heq : c' = c
    · exact .inr (by simp [setCommunication, heq])
    · simpa [setCommunication, heq] using h.communication c' hc'
  | @remove c hc =>
    refine h.of_sublist List.erase_sublist (fun _ => id) fun c' hc' => ?_
    have hne : c' ≠ c := (h.nodup.mem_erase_iff.1 hc').1
    simp [setCommunication, hne]
  | @disconnected c hc =>
    refine h.of_sublist (.refl _) (fun _ => id) fun c' hc' => ?_
    have hne : c' ≠ c := fun heq => by
      have hcomm := h.communication c' hc'
      simp [heq, hc] at hcomm
    simp [setCommunication, notify, hne]
  | snapshot _ => exact h.of_sublist (.refl _) (fun _ => id) fun _ _ => rfl
  | write _ => exact h.of_sublist (.refl _) (fun _ => id) fun _ _ => rfl
  | abort _ => exact h.of_sublist (.refl _) (fun _ => id) fun _ _ => rfl
  | fail _ => exact h.of_sublist (.refl _) (fun _ => id) fun _ _ => rfl
  | close _ => exact h.of_sublist (.refl _) (fun _ => id) fun _ _ => rfl
  | removeBroken _ => exact h.of_sublist List.erase_sublist (fun _ => id) fun _ _ => rfl
  | disconnectedBroken _ => exact h.of_sublist (.refl _) (fun _ => id) fun _ _ => rfl
  | finish _ => exact h.of_sublist (.refl _) (fun _ => id) fun _ _ => rfl

/-! ## The flag -/

/-- With a client that stays the flag is set, or a connection is still to be announced; with none
it is clear, or a disconnection is. -/
structure Tracked (n : Connections κ τ) : Prop where
  unregistered : n.startup ≠ .registered → n.isConnected = false
  connected : n.startup = .registered → (∃ c, n.Staying c) →
    n.isConnected = true ∨ n.ConnectPending
  disconnected : n.startup = .registered → (¬∃ c, n.Staying c) →
    n.isConnected = false ∨ n.DisconnectPending

section Frame

omit [DecidableEq κ] [DecidableEq τ]

/-- A step that announces nothing: a client comes to stay with its connection to be announced, and
ceases to with its disconnection to be announced. -/
theorem Tracked.of_quiet (h : n.Tracked)
    (hstartup : n'.startup = .registered ↔ n.startup = .registered)
    (hflag : n'.isConnected = n.isConnected) (hconnect : n.ConnectPending → n'.ConnectPending)
    (hdisconnect : n.DisconnectPending → n'.DisconnectPending)
    (hcome : ∀ c, n'.Staying c → n.Staying c ∨ n'.ConnectPending)
    (hgo : ∀ c, n.Staying c → n'.Staying c ∨ n'.DisconnectPending) : n'.Tracked := by
  refine ⟨fun hs => ?_, fun hs hstay => ?_, fun hs hnone => ?_⟩
  · rw [hflag]
    exact h.unregistered (mt hstartup.2 hs)
  · obtain ⟨c, hc⟩ := hstay
    rw [hflag]
    rcases hcome c hc with hc' | hpending
    · exact (h.connected (hstartup.1 hs) ⟨c, hc'⟩).imp_right hconnect
    · exact .inr hpending
  · rw [hflag]
    by_cases hstay : ∃ c, n.Staying c
    · obtain ⟨c, hc⟩ := hstay
      exact (hgo c hc).elim (fun hc' => absurd ⟨c, hc'⟩ hnone) .inr
    · exact (h.disconnected (hstartup.1 hs) hstay).imp_right hdisconnect

/-- A step on the way to announce a disconnection. -/
theorem Tracked.of_pending (h : n.Tracked) (hstartup : n'.startup = n.startup)
    (hflag : n'.isConnected = n.isConnected) (haccept : n'.accept = n.accept)
    (hcome : ∀ c, n'.Staying c → n.Staying c) (hpending : n'.DisconnectPending) : n'.Tracked :=
  h.of_quiet (by rw [hstartup]) hflag
    (by rw [ConnectPending, ConnectPending, haccept]; exact id)
    (fun _ => hpending) (fun c hc => .inl (hcome c hc)) fun _ _ => .inr hpending

/-- A disconnection is announced. -/
theorem Tracked.of_disconnected (h : n.Tracked) (hstartup : n'.startup = n.startup)
    (hflag : n'.isConnected = (n.notify false).isConnected) (haccept : n'.accept = n.accept)
    (hcome : ∀ c, n'.Staying c → n.Staying c)
    (ht : n.startup = .registered → (∃ c, n.Staying c) → n.ConnectPending) : n'.Tracked := by
  refine ⟨fun hs => ?_, fun hs hstay => ?_, fun hs _ => .inl ?_⟩
  · rw [hstartup] at hs
    rw [hflag, notify, if_neg hs]
    exact h.unregistered hs
  · rw [hstartup] at hs
    rw [ConnectPending, haccept]
    exact .inr (ht hs (hstay.imp hcome))
  · rw [hstartup] at hs
    rw [hflag, notify, if_pos hs]

end Frame

omit [DecidableEq κ] in
/-- A step of a thread in `Server.send` that has to do with no broken client. -/
theorem Tracked.setSender (h : n.Tracked) {t : τ} {p : Sender κ}
    (hold : ¬(n.sender t).Disconnecting) (hnew : ¬p.Disconnecting) : (n.setSender t p).Tracked := by
  have hsame : ∀ t', (n.sender t').Disconnecting →
      (n.setSender t p).sender t' = n.sender t' := fun t' ht' => by
    have hne : t' ≠ t := fun heq => hold (heq ▸ ht')
    simp [Connections.setSender, hne]
  refine h.of_quiet Iff.rfl rfl id ?_ (fun c hc => .inl ?_) fun c hc => .inl ?_
  · rintro (hleave | ⟨t', ht'⟩)
    · exact .inl hleave
    · exact .inr ⟨t', by rwa [hsame t' ht']⟩
  · refine ⟨hc.mem, hc.running, hc.keepAlive, fun t' ht' => hc.sender t' ?_⟩
    rw [hsame t' (Sender.disconnecting_of_removing ht'), ht']
  · refine ⟨hc.mem, hc.running, hc.keepAlive, fun t' ht' => ?_⟩
    by_cases heq : t' = t
    · rw [heq, Connections.setSender] at ht'
      simp only [Function.update_self] at ht'
      exact hnew (Sender.disconnecting_of_removing ht')
    · refine hc.sender t' ?_
      simpa [Connections.setSender, heq] using ht'

omit [DecidableEq κ] in
/-- A client that no thread removes after a step of `t` was removed by none before, if not by
`t`. -/
theorem not_removing {t : τ} {p : Sender κ} {c : κ} (hold : (n.sender t).removing ≠ some c)
    (h : ∀ t', ((n.setSender t p).sender t').removing ≠ some c) :
    ∀ t', (n.sender t').removing ≠ some c := fun t' => by
  by_cases heq : t' = t
  · rwa [heq]
  · simpa [Connections.setSender, heq] using h t'

theorem tracked_step (hl : n.Listed) (h : n.Tracked) (hstep : system.step n a n')
    (ht : n.Timely a) : n'.Tracked := by
  cases hstep with
  | start hs =>
    refine h.of_quiet ?_ rfl id id (fun c hc => .inl ⟨hc.1, hc.2, hc.3, hc.4⟩)
      fun c hc => .inl ⟨hc.1, hc.2, hc.3, hc.4⟩
    simp [hs]
  | addListener hs =>
    have hflag := h.unregistered (by simp [hs])
    refine ⟨fun hr => absurd rfl hr, fun _ ⟨c, hc⟩ => .inr ?_, fun _ _ => .inl hflag⟩
    exact ht ⟨c, hc.1, hc.2, hc.3, hc.4⟩
  | @create c _ _ hc =>
    have hsame : ∀ c' p, n.communication c' = p → p ≠ .absent →
        (n.setCommunication c .running).communication c' = p := fun c' p hp hne => by
      have hne' : c' ≠ c := fun heq => hne (by rw [← hp, heq, hc])
      simp [setCommunication, hne', hp]
    refine h.of_quiet Iff.rfl rfl (fun _ => trivial) ?_ (fun _ _ => .inr trivial)
      fun c' hc' => .inl ⟨hc'.mem, hsame c' _ hc'.running (by decide), hc'.keepAlive, hc'.sender⟩
    rintro (⟨c', hexit | hremoved | ⟨hrun, hkeep⟩⟩ | hsender)
    · exact .inl ⟨c', .inl (hsame c' _ hexit (by decide))⟩
    · exact .inl ⟨c', .inr (.inl (hsame c' _ hremoved (by decide)))⟩
    · exact .inl ⟨c', .inr (.inr ⟨hsame c' _ hrun (by decide), hkeep⟩)⟩
    · exact .inr hsender
  | reject ha =>
    refine h.of_quiet Iff.rfl rfl (fun hp => ?_) id
      (fun c hc => .inl ⟨hc.mem, hc.running, hc.keepAlive, hc.sender⟩)
      fun c hc => .inl ⟨hc.mem, hc.running, hc.keepAlive, hc.sender⟩
    rw [ConnectPending, ha] at hp
    exact hp.elim
  | @add c hc =>
    exact h.of_quiet Iff.rfl rfl (fun _ => trivial) id (fun _ _ => .inr trivial) fun c' hc' =>
      .inl ⟨List.mem_append_left _ hc'.mem, hc'.running, hc'.keepAlive, hc'.sender⟩
  | connected hc =>
    refine ⟨fun hs => ?_, fun hs _ => .inl (if_pos hs), fun hs hnone => .inr ?_⟩
    · exact (if_neg hs).trans (h.unregistered hs)
    · refine (ht hs).resolve_left fun ⟨c, hc⟩ => hnone ⟨c, ?_⟩
      exact ⟨hc.mem, hc.running, hc.keepAlive, hc.sender⟩
  | @exit c hc =>
    refine h.of_pending rfl rfl rfl (fun c' hc' => ?_)
      (.inl ⟨c, .inl (by simp [setCommunication])⟩)
    have hne : c' ≠ c := fun heq => by simpa [setCommunication, heq] using hc'.running
    exact ⟨hc'.mem, by simpa [setCommunication, hne] using hc'.running, hc'.keepAlive, hc'.sender⟩
  | @remove c hc =>
    refine h.of_pending rfl rfl rfl (fun c' hc' => ?_)
      (.inl ⟨c, .inr (.inl (by simp [setCommunication]))⟩)
    have hne : c' ≠ c := fun heq => by simpa [setCommunication, heq] using hc'.running
    exact ⟨List.mem_of_mem_erase hc'.mem, by simpa [setCommunication, hne] using hc'.running,
      hc'.keepAlive, hc'.sender⟩
  | @disconnected c hc =>
    refine h.of_disconnected rfl rfl rfl (fun c' hc' => ?_) ht
    have hne : c' ≠ c := fun heq => by simpa [setCommunication, heq] using hc'.running
    exact ⟨hc'.mem, by simpa [setCommunication, hne, notify] using hc'.running, hc'.keepAlive,
      hc'.sender⟩
  | snapshot hs => exact h.setSender (by simp [hs, Sender.Disconnecting]) id
  | write hs => exact h.setSender (by simp [hs, Sender.Disconnecting]) id
  | abort hs => exact h.setSender (by simp [hs, Sender.Disconnecting]) id
  | @fail t c rest hs =>
    refine h.of_pending rfl rfl rfl (fun c' hc' => ?_)
      (.inr ⟨t, by simp [Connections.setSender, Sender.Disconnecting]⟩)
    exact ⟨hc'.mem, hc'.running, hc'.keepAlive, not_removing (by simp [hs, Sender.removing])
      hc'.sender⟩
  | @close t c rest hs =>
    refine h.of_pending rfl rfl rfl (fun c' hc' => ?_)
      (.inr ⟨t, by simp [Connections.setSender, Sender.Disconnecting]⟩)
    have hne : c' ≠ c := fun heq => by simpa [heq] using hc'.keepAlive
    exact ⟨hc'.mem, hc'.running, by simpa [hne] using hc'.keepAlive,
      not_removing (by simp [hs, Sender.removing, hne.symm]) hc'.sender⟩
  | @removeBroken t c rest hs =>
    refine h.of_pending rfl rfl rfl (fun c' hc' => ?_)
      (.inr ⟨t, by simp [Connections.setSender, Sender.Disconnecting]⟩)
    have hne : c' ≠ c := (hl.nodup.mem_erase_iff.1 hc'.mem).1
    exact ⟨List.mem_of_mem_erase hc'.mem, hc'.running, hc'.keepAlive,
      not_removing (by simp [hs, Sender.removing, hne.symm]) hc'.sender⟩
  | disconnectedBroken hs =>
    refine h.of_disconnected rfl rfl rfl (fun c' hc' => ?_) ht
    exact ⟨hc'.mem, hc'.running, hc'.keepAlive, not_removing (by simp [hs, Sender.removing])
      hc'.sender⟩
  | finish hs => exact h.setSender (by simp [hs, Sender.Disconnecting]) id

/-! ## Runs -/

omit [DecidableEq κ] [DecidableEq τ] in
/-- In a quiescent state the clients on the list are those that stay. -/
theorem Quiescent.staying_iff (h : n.Quiescent) (hl : n.Listed) {c : κ} :
    n.Staying c ↔ c ∈ n.clients := by
  refine ⟨Staying.mem, fun hc => ?_⟩
  have hleave := h.communication c
  rw [Leaving] at hleave
  push Not at hleave
  have hrun := (hl.communication c hc).resolve_right hleave.1
  refine ⟨hc, hrun, by simpa using hleave.2.2 hrun, fun t ht => ?_⟩
  rw [h.sender t] at ht
  cases ht

omit [DecidableEq κ] [DecidableEq τ] in
theorem Quiescent.tracks (h : n.Quiescent) (hl : n.Listed) (hn : n.Tracked) :
    (n.isConnected = true ↔ n.clients ≠ []) ∧ ∀ c ∈ n.clients, n.communication c ≠ .ended := by
  have hdis : ¬n.DisconnectPending := by
    rintro (⟨c, hc⟩ | ⟨t, ht⟩)
    · exact h.communication c hc
    · rw [h.sender t] at ht
      exact ht
  refine ⟨⟨fun hflag hnil => ?_, fun hne => ?_⟩, fun c hc hend => ?_⟩
  · have hnone : ¬∃ c, n.Staying c := fun ⟨c, hc⟩ => by simpa [hnil] using hc.mem
    simpa [hflag] using (hn.disconnected h.startup hnone).resolve_right hdis
  · obtain ⟨c, hc⟩ := List.exists_mem_of_ne_nil _ hne
    exact (hn.connected h.startup ⟨c, (h.staying_iff hl).2 hc⟩).resolve_right h.accept
  · simpa [hend] using hl.communication c hc

/-- **`isConnected` tracks the list of clients** in every run with timely steps: whenever nothing is
pending it is set exactly when there is a client on the list, and none on the list has ended. -/
theorem isConnected_tracks {as : List (Action κ τ)}
    (hrun : (system.restrict Timely).Run initial as n) (h : n.Quiescent) :
    (n.isConnected = true ↔ n.clients ≠ []) ∧ ∀ c ∈ n.clients, n.communication c ≠ .ended := by
  have hinv : n.Listed ∧ n.Tracked := by
    refine hrun.invariant (I := fun n => n.Listed ∧ n.Tracked) (fun n a n' hn hstep => ?_) ?_
    · exact ⟨listed_step hn.1 hstep.1 hstep.2, tracked_step hn.1 hn.2 hstep.1 hstep.2⟩
    · exact ⟨⟨List.nodup_nil, fun c hc => (by cases hc), fun c hc => (by cases hc)⟩,
        ⟨fun _ => rfl, fun hs => (by cases hs), fun hs => (by cases hs)⟩⟩
  exact h.tracks hinv.1 hinv.2

/-- Two clients connect, and the first leaves before the second is announced. -/
def takeover : List (Action ℕ Unit) :=
  [.start, .addListener, .create 0, .add, .connected, .create 1, .add, .exit 0, .remove 0,
    .disconnected 0, .connected]

/-- A write to the second client fails, and its thread ends. -/
def breakOff : List (Action ℕ Unit) :=
  [.snapshot (), .fail (), .close (), .removeBroken (), .disconnectedBroken (), .exit 1, .remove 1,
    .disconnected 1, .finish ()]

theorem isConnected_tracks_two : ∃ n n' : Connections ℕ Unit,
    (system.restrict Timely).Run initial takeover n ∧ n.Quiescent ∧ n.clients = [1] ∧
      ((n.isConnected = true ↔ n.clients ≠ []) ∧ ∀ c ∈ n.clients, n.communication c ≠ .ended) ∧
    (system.restrict Timely).Run n breakOff n' ∧ n'.Quiescent ∧ n'.clients = [] ∧
      ((n'.isConnected = true ↔ n'.clients ≠ []) ∧
        ∀ c ∈ n'.clients, n'.communication c ≠ .ended) := by
  obtain ⟨n, n', hrun, hn, hclients, hrun', hn', hclients'⟩ : ∃ n n' : Connections ℕ Unit,
      (system.restrict Timely).Run initial takeover n ∧ n.Quiescent ∧ n.clients = [1] ∧
      (system.restrict Timely).Run n breakOff n' ∧ n'.Quiescent ∧ n'.clients = [] := by
    refine ⟨_, _, .cons ⟨.start rfl, trivial⟩ <| .cons ⟨.addListener rfl, ?_⟩ <|
      .cons ⟨.create (by decide) rfl rfl, trivial⟩ <| .cons ⟨.add rfl, ?_⟩ <|
      .cons ⟨.connected rfl, ?_⟩ <| .cons ⟨.create (by decide) rfl rfl, trivial⟩ <|
      .cons ⟨.add rfl, ?_⟩ <| .cons ⟨.exit rfl, trivial⟩ <| .cons ⟨.remove rfl, trivial⟩ <|
      .cons ⟨.disconnected rfl, ?_⟩ <| .cons ⟨.connected rfl, ?_⟩ <| .nil _,
      ⟨rfl, id, fun c => ?_, fun _ => rfl⟩, rfl,
      .cons ⟨.snapshot rfl, trivial⟩ <| .cons ⟨.fail rfl, trivial⟩ <|
      .cons ⟨.close rfl, trivial⟩ <| .cons ⟨.removeBroken rfl, trivial⟩ <|
      .cons ⟨.disconnectedBroken rfl, ?_⟩ <| .cons ⟨.exit rfl, trivial⟩ <|
      .cons ⟨.remove rfl, trivial⟩ <| .cons ⟨.disconnected rfl, ?_⟩ <|
      .cons ⟨.finish rfl, trivial⟩ <| .nil _, ⟨rfl, id, fun c => ?_, fun _ => rfl⟩, rfl⟩
    · rintro ⟨c, hc⟩
      cases hc.mem
    · rintro c ⟨⟩
      exact .inl rfl
    · exact fun _ => .inl ⟨0, List.mem_singleton_self 0, rfl, rfl, fun _ hc => (by cases hc)⟩
    · rintro c ⟨⟩
      exact .inl rfl
    · -- the second client stays, and is still to be announced
      exact fun _ _ => trivial
    · exact fun _ => .inl ⟨1, List.mem_singleton_self 1, rfl, rfl, fun _ hc => (by cases hc)⟩
    · rintro (hc | hc | ⟨-, hc⟩) <;> rcases c with _ | _ | c <;> cases hc
    · rintro - ⟨c, hc⟩
      cases hc.mem
    · rintro - ⟨c, hc⟩
      cases hc.mem
    · rintro (hc | hc | ⟨hr, hc⟩)
      · rcases c with _ | _ | c <;> cases hc
      · rcases c with _ | _ | c <;> cases hc
      · rcases c with _ | _ | c <;> cases hr
  exact ⟨n, n', hrun, hn, hclients, isConnected_tracks hrun hn, hrun', hn', hclients',
    isConnected_tracks (hrun.append hrun') hn'⟩

/-- Two clients connect and one leaves: the flag is clear, with the other on the list. A client that
leaves before it is added stays on the list, with its thread ended. -/
theorem isConnected_lost :
    (∃ n : Connections ℕ Unit, system.Run initial [.start, .addListener, .create 0, .add,
      .connected, .create 1, .add, .connected, .exit 0, .remove 0, .disconnected 0] n ∧
      n.Quiescent ∧
      n.isConnected = false ∧ n.clients = [1]) ∧
    ∃ n : Connections ℕ Unit, system.Run initial [.start, .addListener, .create 0, .exit 0,
      .remove 0, .disconnected 0, .add, .connected] n ∧ n.Quiescent ∧
      n.clients = [0] ∧ n.communication 0 = .ended := by
  constructor
  · refine ⟨_, .cons (.start rfl) <| .cons (.addListener rfl) <|
      .cons (.create (by decide) rfl rfl) <| .cons (.add rfl) <| .cons (.connected rfl) <|
      .cons (.create (by decide) rfl rfl) <| .cons (.add rfl) <| .cons (.connected rfl) <|
      .cons (.exit rfl) <| .cons (.remove rfl) <| .cons (.disconnected rfl) <| .nil _,
      ⟨rfl, id, fun c => ?_, fun _ => rfl⟩, rfl, rfl⟩
    rintro (hc | hc | ⟨-, hc⟩) <;> rcases c with _ | _ | c <;> cases hc
  · refine ⟨_, .cons (.start rfl) <| .cons (.addListener rfl) <|
      .cons (.create (by decide) rfl rfl) <| .cons (.exit rfl) <| .cons (.remove rfl) <|
      .cons (.disconnected rfl) <| .cons (.add rfl) <| .cons (.connected rfl) <| .nil _,
      ⟨rfl, id, fun c => ?_, fun _ => rfl⟩, rfl, rfl⟩
    rintro (hc | hc | ⟨-, hc⟩) <;> rcases c with _ | c <;> cases hc

end Connections

end TPadFire.Host
