import Mathlib.Data.List.Nodup
import TPadFire.Host.TPad

/-!
# Sending to all clients

`Server.send` goes through the list of clients as it was at the start, and a client whose socket is
broken takes itself off that list on the way. The other clients are served all the same, once each
and in their order (`broken_connection`).

What the sockets do with a write is a parameter. The methods return the server, the calls they made
in order, and whether an `IOException` left them.
-/

namespace TPadFire.Host

open Firmware (Byte)

/-- The outcome of `output.write` and `output.flush`. -/
inductive Write
  | written
  | socketException
  | ioException
  deriving DecidableEq

/-- A call on a client's socket or on a listener. -/
inductive ServerCall (ι κ : Type*)
  | write (client : κ) (data : List Byte)
  | close (client : κ)
  | onClientDisconnect (listener : ι) (client : κ)

/-- The write that a call is. -/
def ServerCall.written {ι κ : Type*} : ServerCall ι κ → Option (κ × List Byte)
  | write c data => some (c, data)
  | close _ => none
  | onClientDisconnect _ _ => none

/-- The listener and the client of a disconnection. -/
def ServerCall.disconnected {ι κ : Type*} : ServerCall ι κ → Option (ι × κ)
  | write _ _ => none
  | close _ => none
  | onClientDisconnect l c => some (l, c)

/-- `Server`, with listeners of type `ι` and clients of type `κ`. -/
structure Server (ι κ : Type*) where
  clients : List κ
  listeners : List ι
  /-- `listeners` is a `HashSet`, in the order of its iterator. -/
  listeners_nodup : listeners.Nodup

/-- What a method that sends did. -/
structure Sent (ι κ : Type*) where
  server : Server ι κ
  calls : List (ServerCall ι κ)
  ioException : Bool

section Methods

variable {ι κ : Type*} [DecidableEq κ] (write : κ → Write) (data : List Byte)

/-- `disconnectClient` -/
def Server.disconnectClient (s : Server ι κ) (client : κ) :
    Server ι κ × List (ServerCall ι κ) :=
  ({ s with clients := s.clients.erase client },
    s.listeners.map fun l => .onClientDisconnect l client)

/-- `Client.send` -/
def Client.send (client : κ) (s : Server ι κ) : Sent ι κ :=
  match write client with
  | .written => ⟨s, [.write client data], false⟩
  | .socketException =>
    let (s', calls) := s.disconnectClient client
    ⟨s', .close client :: calls, false⟩
  | .ioException => ⟨s, [], true⟩

/-- The loop of `Server.send` over what is left of its snapshot. -/
def Server.sendEach : List κ → Server ι κ → Sent ι κ
  | [], s => ⟨s, [], false⟩
  | c :: cs, s =>
    let first := Client.send write data c s
    if first.ioException then first
    else
      let rest := sendEach cs first.server
      ⟨rest.server, first.calls ++ rest.calls, rest.ioException⟩

/-- `Server.send` -/
def Server.send (s : Server ι κ) : Sent ι κ := sendEach write data s.clients s

/-- A method of `TPad` that sends the message `m`. An `IOException` is caught and logged; there is
no result when the encoder throws. -/
def TPad.send (rt : Runtime) (m : Message) (s : Server ι κ) : Option (Sent ι κ) :=
  (encode rt m).map fun data => s.send write data

/-! ## The loop -/

/-- The calls of `Client.send`, when no `IOException` leaves it. -/
def callsFor (listeners : List ι) (c : κ) : List (ServerCall ι κ) :=
  if write c = .socketException then .close c :: listeners.map fun l => .onClientDisconnect l c
  else [.write c data]

variable {write data}

theorem Client.send_eq {s : Server ι κ} {c : κ} (h : write c ≠ .ioException) :
    Client.send write data c s =
      ⟨{ s with clients := s.clients.diff ([c].filter fun c => write c = .socketException) },
        callsFor write data s.listeners c, false⟩ := by
  rw [Client.send, callsFor]
  cases hw : write c with
  | written => simp [hw]
  | socketException => simp [hw, Server.disconnectClient]
  | ioException => exact absurd hw h

/-- The loop takes off the broken clients of the snapshot, and no others. -/
theorem Server.sendEach_eq {cs : List κ} {s : Server ι κ} (h : ∀ c ∈ cs, write c ≠ .ioException) :
    sendEach write data cs s =
      ⟨{ s with clients := s.clients.diff (cs.filter fun c => write c = .socketException) },
        cs.flatMap (callsFor write data s.listeners), false⟩ := by
  induction cs generalizing s with
  | nil => simp [sendEach]
  | cons c cs ih =>
    rw [sendEach, Client.send_eq (h c List.mem_cons_self)]
    simp only [Bool.false_eq_true, if_false]
    rw [ih fun c' hc' => h c' (List.mem_cons_of_mem c hc')]
    simp only [← List.diff_append, ← List.filter_append, List.singleton_append,
      List.flatMap_cons]

omit [DecidableEq κ] in
theorem filterMap_written (listeners : List ι) (cs : List κ) :
    (cs.flatMap (callsFor write data listeners)).filterMap ServerCall.written =
      (cs.filter fun c => write c ≠ .socketException).map fun c => (c, data) := by
  induction cs with
  | nil => rfl
  | cons c cs ih =>
    rw [List.flatMap_cons, List.filterMap_append, ih, callsFor]
    by_cases hc : write c = .socketException
    · simp [hc, ServerCall.written]
    · simp [hc, ServerCall.written]

omit [DecidableEq κ] in
theorem filterMap_disconnected (listeners : List ι) (cs : List κ) :
    (cs.flatMap (callsFor write data listeners)).filterMap ServerCall.disconnected =
      (cs.filter fun c => write c = .socketException).flatMap fun c =>
        listeners.map fun l => (l, c) := by
  induction cs with
  | nil => rfl
  | cons c cs ih =>
    have hcalls : (listeners.map fun l => (.onClientDisconnect l c : ServerCall ι κ)).filterMap
        ServerCall.disconnected = listeners.map fun l => (l, c) := by
      rw [List.filterMap_map, ← List.filterMap_eq_map]
      rfl
    rw [List.flatMap_cons, List.filterMap_append, ih, callsFor]
    by_cases hc : write c = .socketException
    · rw [if_pos hc, List.filterMap_cons_none rfl, hcalls, List.filter_cons_of_pos (by simp [hc]),
        List.flatMap_cons]
    · simp [hc, ServerCall.disconnected]

/-! ## Broken connections -/

/-- The two overloads of `send` have something to send for every friction. -/
theorem encode_send (rt : Runtime) {m : Message}
    (hm : (∃ f, m = .mag f) ∨ ∃ friction, m = .texture friction) :
    ∃ data, encode rt m = some data := by
  rcases hm with ⟨f, rfl⟩ | ⟨friction, rfl⟩
  · exact ⟨_, rfl⟩
  · exact ⟨_, generateTexture_eq friction⟩

/-- **A broken connection does not cost the others their command.** Whatever clients there are and
whichever of their sockets are broken, `send` writes the message once to each of the others in
their order, throws nothing, leaves the others in the list, and calls every listener once for each
client that failed. -/
theorem broken_connection {s : Server ι κ} (hs : s.clients.Nodup)
    (hw : ∀ c ∈ s.clients, write c ≠ .ioException) (rt : Runtime) {m : Message}
    (hm : (∃ f, m = .mag f) ∨ ∃ friction, m = .texture friction) :
    ∃ data r, encode rt m = some data ∧ TPad.send write rt m s = some r ∧ r.ioException = false ∧
      r.server.clients = s.clients.filter (fun c => write c ≠ .socketException) ∧
      r.server.listeners = s.listeners ∧
      r.calls.filterMap ServerCall.written =
        (s.clients.filter fun c => write c ≠ .socketException).map (fun c => (c, data)) ∧
      r.calls.filterMap ServerCall.disconnected =
        (s.clients.filter fun c => write c = .socketException).flatMap fun c =>
          s.listeners.map fun l => (l, c) := by
  obtain ⟨data, hdata⟩ := encode_send rt hm
  have hclients : s.clients.diff (s.clients.filter fun c => write c = .socketException) =
      s.clients.filter fun c => write c ≠ .socketException := by
    rw [hs.sdiff_eq_filter]
    refine List.filter_congr fun c hc => ?_
    simp [List.mem_filter, hc]
  refine ⟨data, s.send write data, hdata, by rw [TPad.send, hdata]; rfl, ?_⟩
  rw [Server.send, Server.sendEach_eq hw]
  exact ⟨rfl, hclients, rfl, filterMap_written s.listeners s.clients,
    filterMap_disconnected s.listeners s.clients⟩

end Methods

/-- The server of a `TPad` with five clients. -/
def fiveClients : Server Unit (Fin 5) := ⟨List.finRange 5, [()], List.nodup_singleton ()⟩

/-- The second, the third and the last of the five are broken. -/
def brokenOf (c : Fin 5) : Write := if c ∈ [1, 2, 4] then .socketException else .written

theorem broken_connection_five :
    ∃ data r, encode ⟨fun _ => 0, fun _ => 0⟩ (.mag 1) = some data ∧
      TPad.send brokenOf ⟨fun _ => 0, fun _ => 0⟩ (.mag 1) fiveClients = some r ∧
      r.server.clients = [0, 3] ∧
      r.calls.filterMap ServerCall.written = [(0, data), (3, data)] ∧
      r.calls.filterMap ServerCall.disconnected = [((), 1), ((), 2), ((), 4)] := by
  have hnodup : fiveClients.clients.Nodup := List.nodup_finRange 5
  have hwrite : ∀ c ∈ fiveClients.clients, brokenOf c ≠ .ioException := by decide
  obtain ⟨data, r, hdata, hr, -, hclients, -, hwritten, hdisconnected⟩ :=
    broken_connection hnodup hwrite ⟨fun _ => 0, fun _ => 0⟩ (m := .mag 1) (.inl ⟨1, rfl⟩)
  exact ⟨data, r, hdata, hr, hclients, hwritten, hdisconnected⟩

end TPadFire.Host
