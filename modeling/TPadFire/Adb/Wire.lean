import TPadFire.Adb.Packet
import TPadFire.Foundations.Monitor

/-!
# Packets over a wire

Two ends of a link run the machines of `adb_packet.c`: one sends packets, the other receives them.
A write puts what it is given on the wire, a read takes the next thing from it; the calls of
`ADBPacketTasks` at both ends, and how long the transfers take, are in any order, and transfers may
fail at any time (`Wire.Step`). The packets that are sent have no more data than the receive buffer
has room for; `ADBPacketSend` leaves that to its caller. The machines of the two directions share
nothing, so one direction is enough.

A header comes off the wire as it was put on it (`Header.ofBytes_toBytes`). The packets that are
taken at the far end are those that were sent, in order and unchanged (`wire_delivers`): the
transfers on the wire, with what the near end has still to write, are what the far end has still to
read (`Carries`).
-/

namespace TPadFire.Adb

open Firmware (Byte RecvBuffer adbPacketMaxRecvDataBytes receive)

/-! ## Headers as bytes -/

/-- The memory of a word. -/
def wordBytes (w : UInt32) : List Byte :=
  [.ofNat w.toNat, .ofNat (w.toNat / 2 ^ 8), .ofNat (w.toNat / 2 ^ 16), .ofNat (w.toNat / 2 ^ 24)]

/-- The memory of a header. -/
def Header.toBytes (hd : Header) : List Byte :=
  wordBytes hd.command ++ (wordBytes hd.arg0 ++ (wordBytes hd.arg1 ++ (wordBytes hd.dataLength ++
    (wordBytes hd.dataCheck ++ wordBytes hd.magic))))

@[simp] theorem length_wordBytes (w : UInt32) : (wordBytes w).length = 4 := rfl

theorem ofDigits_wordBytes (w : UInt32) :
    Nat.ofDigits 256 ((wordBytes w).map UInt8.toNat) = w.toNat := by
  have hlt := w.toNat_lt
  simp only [wordBytes, List.map_cons, List.map_nil, Nat.ofDigits_cons, Nat.ofDigits_nil,
    UInt8.toNat_ofNat']
  omega

theorem word_append_zero (w : UInt32) (l : List Byte) : word (wordBytes w ++ l) 0 = w := by
  unfold word
  rw [mul_zero, List.drop_zero, List.take_left' (length_wordBytes w), ofDigits_wordBytes,
    UInt32.ofNat_toNat]

theorem word_append_succ (w : UInt32) (l : List Byte) (k : ℕ) :
    word (wordBytes w ++ l) (k + 1) = word l k := by
  unfold word
  rw [mul_add, mul_one, Nat.add_comm, ← List.drop_drop, List.drop_left' (length_wordBytes w)]

theorem word_self (w : UInt32) : word (wordBytes w) 0 = w := by
  have h := word_append_zero w []
  rwa [List.append_nil] at h

@[simp] theorem Header.length_toBytes (hd : Header) : hd.toBytes.length = headerSize := rfl

/-- **A header is read as it was written.** -/
theorem Header.ofBytes_toBytes (hd : Header) : Header.ofBytes hd.toBytes = hd := by
  unfold Header.ofBytes Header.toBytes
  simp only [word_append_zero, word_append_succ, word_self]

/-! ## Packets -/

/-- What a packet says. -/
structure Message where
  command : UInt32
  arg0 : UInt32
  arg1 : UInt32
  data : List Byte
  deriving DecidableEq

/-- The header of a packet. -/
def Message.header (m : Message) : Header :=
  ⟨m.command, m.arg0, m.arg1, .ofNat m.data.length, Packet.adbChecksum m.data, ~~~m.command⟩

/-- The transfers of a packet. -/
def Message.transfers (m : Message) : List (List Byte) :=
  m.header.toBytes :: (if m.data = [] then [] else [m.data])

namespace Packet

/-- What a call of `ADBPacketSendTasks` hands to `USBHostAndroidWrite`, if it starts a transfer. -/
def writes (t : Transfers) (p : Packet) : List (List Byte) :=
  match p.sendState with
  | .start => if t.write then [p.sendHeader.toBytes] else []
  | .waitHeader =>
    if t.txComplete = some true ∧ p.sendHeader.dataLength ≠ 0 ∧ t.write = true then
      [p.sendData.take p.sendHeader.dataLength.toNat]
    else []
  | .waitData | .idle | .error => []

/-- A transfer in ends in a call of `ADBPacketRecvTasks`: whether it succeeds, and its bytes. -/
def reads (t : Transfers) (p : Packet) : Option (Bool × List Byte) :=
  match p.recvState with
  | .waitHeader | .waitData => t.rxComplete
  | .start | .idle | .error => none

/-- The packet that has been received. -/
def received (p : Packet) : Message :=
  ⟨p.recvHeader.command, p.recvHeader.arg0, p.recvHeader.arg1,
    p.recvData.contents p.recvHeader.dataLength.toNat⟩

end Packet

/-! ## The link -/

/-- A link in one direction: the two ends, and the transfers that have been started at the near end
and have not been read at the far end. -/
structure Wire where
  near : Packet
  far : Packet
  flight : List (List Byte)

/-- What an end of the link does. -/
inductive WireOp
  /-- The near end sends a packet. -/
  | send (m : Message)
  | nearTasks (t : Transfers)
  | farTasks (t : Transfers)
  /-- The packet that has arrived is taken, and the next one is awaited. -/
  | take

/-- What an end of the link can do. A packet is sent when the one before it is out, and is not
longer than the other end takes. A transfer that succeeds brings what was written first and has not
been read; one that fails brings anything. -/
inductive Wire.Step : Wire → WireOp → Wire → Prop
  | send {w : Wire} {m : Message} (hok : w.near.sendStatus = .ok)
      (hlen : m.data.length ≤ adbPacketMaxRecvDataBytes) :
      Step w (.send m) { w with near := w.near.send m.command m.arg0 m.arg1 m.data }
  | nearTasks {w : Wire} {t : Transfers} :
      Step w (.nearTasks t) { w with
        near := w.near.sendTasks t
        flight := w.flight ++ w.near.writes t }
  | farIdle {w : Wire} {t : Transfers} (hr : w.far.reads t = none) :
      Step w (.farTasks t) { w with far := w.far.recvTasks t }
  | farFails {w : Wire} {t : Transfers} {l : List Byte} (hr : w.far.reads t = some (false, l)) :
      Step w (.farTasks t) { w with far := w.far.recvTasks t }
  | farReads {w : Wire} {t : Transfers} {l : List Byte} {rest : List (List Byte)}
      (hr : w.far.reads t = some (true, l)) (hf : w.flight = l :: rest) :
      Step w (.farTasks t) { w with far := w.far.recvTasks t, flight := rest }
  | take {w : Wire} (hok : w.far.recvStatus = .ok) : Step w .take { w with far := w.far.recv }

/-- The link as a system. -/
def wire : Lts Wire WireOp := ⟨Wire.Step⟩

/-- What an end of the link does, if it can do it. -/
def WireOp.apply : WireOp → Wire → Option Wire
  | send m, w =>
    if w.near.sendStatus = .ok ∧ m.data.length ≤ adbPacketMaxRecvDataBytes then
      some { w with near := w.near.send m.command m.arg0 m.arg1 m.data }
    else none
  | nearTasks t, w =>
    some { w with near := w.near.sendTasks t, flight := w.flight ++ w.near.writes t }
  | farTasks t, w =>
    match w.far.reads t, w.flight with
    | none, _ | some (false, _), _ => some { w with far := w.far.recvTasks t }
    | some (true, l), l' :: rest =>
      if l = l' then some { w with far := w.far.recvTasks t, flight := rest } else none
    | some (true, _), [] => none
  | take, w => if w.far.recvStatus = .ok then some { w with far := w.far.recv } else none

theorem wire_step_of_apply {op : WireOp} {w w' : Wire} (h : op.apply w = some w') :
    wire.step w op w' := by
  cases op with
  | send m =>
    unfold WireOp.apply at h
    dsimp only at h
    split_ifs at h with hok
    obtain rfl := Option.some.inj h
    exact .send hok.1 hok.2
  | nearTasks t =>
    obtain rfl := Option.some.inj h
    exact .nearTasks
  | farTasks t =>
    unfold WireOp.apply at h
    dsimp only at h
    split at h
    · obtain rfl := Option.some.inj h
      exact .farIdle ‹_›
    · obtain rfl := Option.some.inj h
      exact .farFails ‹_›
    · split_ifs at h with hl
      obtain rfl := Option.some.inj h
      subst hl
      exact .farReads ‹_› ‹_›
    · cases h
  | take =>
    unfold WireOp.apply at h
    dsimp only at h
    split_ifs at h with hok
    obtain rfl := Option.some.inj h
    exact .take hok

/-- The packets that are sent and taken. -/
def WireOp.traffic (w : Wire) : WireOp → List (Traffic Message)
  | send m => [.entered m]
  | take => [.left w.far.received]
  | nearTasks _ | farTasks _ => []

/-- A link on which nothing has been sent: the far end awaits a packet. -/
structure Wire.Fresh (w : Wire) : Prop where
  near : w.near.sendState = .idle
  far : w.far.recvState = .start
  flight : w.flight = []

/-! ## The machines at work on a packet -/

section Machines

variable {m : Message} {p : Packet} {t : Transfers}

theorem toNat_dataLength (hm : m.data.length ≤ adbPacketMaxRecvDataBytes) :
    m.header.dataLength.toNat = m.data.length :=
  UInt32.toNat_ofNat_of_lt' (lt_of_le_of_lt hm (by decide))

theorem dataLength_eq_zero (hm : m.data.length ≤ adbPacketMaxRecvDataBytes) :
    m.header.dataLength = (0 : UInt32) ↔ m.data = [] := by
  rw [← UInt32.toNat_inj, toNat_dataLength hm, ← List.length_eq_zero_iff]
  exact Iff.rfl

/-- A header that was sent passes the checks of the far end. -/
theorem recvTasks_header (hs : p.recvState = .waitHeader)
    (hr : t.rxComplete = some (true, m.header.toBytes))
    (hm : m.data.length ≤ adbPacketMaxRecvDataBytes) :
    p.recvTasks t = { p with
      recvHeader := m.header
      recvState := if m.data = [] then .idle else if t.read then .waitData else .error } := by
  have hmagic : m.header.command = ~~~m.header.magic := (UInt32.not_not ..).symm
  have hcheck : ¬ (m.header.toBytes.length ≠ headerSize ∨ m.header.command ≠ ~~~m.header.magic ∨
      m.header.dataLength.toNat > adbPacketMaxRecvDataBytes) := by
    rw [toNat_dataLength hm]
    rintro (h | h | h)
    · exact h rfl
    · exact h hmagic
    · omega
  unfold Packet.recvTasks
  simp only [hs, hr, Header.ofBytes_toBytes, Bool.not_true, Bool.false_eq_true, if_false]
  rw [if_neg hcheck]
  by_cases hdata : m.data = []
  · rw [if_pos ((dataLength_eq_zero hm).2 hdata), if_pos hdata]
  · rw [if_neg fun h => hdata ((dataLength_eq_zero hm).1 h), if_neg hdata]

/-- The data that was sent has the checksum of its header. -/
theorem recvTasks_data (hs : p.recvState = .waitData) (hh : p.recvHeader = m.header)
    (hr : t.rxComplete = some (true, m.data)) (hm : m.data.length ≤ adbPacketMaxRecvDataBytes) :
    p.recvTasks t = { p with recvData := receive m.data p.recvData, recvState := .idle } := by
  have hcontents : (receive m.data p.recvData).contents m.data.length = m.data :=
    Block.contents_overlay _ hm
  unfold Packet.recvTasks
  simp only [hs, hr, hh, Bool.not_true, Bool.false_eq_true, false_or, toNat_dataLength hm,
    ne_eq, not_true_eq_false, if_false, hcontents]
  exact if_neg (not_not.2 rfl)

end Machines

/-! ## What the link carries -/

/-- What the far end has read of the first packet that has not been taken. -/
def Consumed (p : Packet) (q : List Message) (l : List (List Byte)) : Prop :=
  match p.recvState with
  | .start | .waitHeader => l = []
  | .waitData => ∃ m r, q = m :: r ∧ m.data ≠ [] ∧ p.recvHeader = m.header ∧ l = [m.header.toBytes]
  | .idle => ∃ m r, q = m :: r ∧ p.received = m ∧ l = m.transfers
  | .error => False

/-- What the near end has still to write of the packet that it sends. -/
def Pending (p : Packet) (l : List (List Byte)) : Prop :=
  match p.sendState with
  | .start => ∃ m : Message, m.data.length ≤ adbPacketMaxRecvDataBytes ∧ p.sendHeader = m.header ∧
      p.sendData = m.data ∧ l = m.transfers
  | .waitHeader => ∃ m : Message, m.data.length ≤ adbPacketMaxRecvDataBytes ∧
      p.sendHeader = m.header ∧ p.sendData = m.data ∧ l = if m.data = [] then [] else [m.data]
  | .waitData | .idle => l = []
  | .error => True

/-- **What a link carries**: until the far end gives up, the transfers of the packets that were sent
and have not been taken are those that have been read, those on the wire and those still to be
written. -/
structure Carries (w : Wire) (q : List Message) : Prop where
  short : ∀ m ∈ q, m.data.length ≤ adbPacketMaxRecvDataBytes
  stream : w.far.recvState ≠ .error → ∃ l l', Consumed w.far q l ∧ Pending w.near l' ∧
    q.flatMap Message.transfers = l ++ (w.flight ++ l')

section Steps

variable {p : Packet} {q : List Message} {t : Transfers} {l : List (List Byte)}

/-- What is still to be written is written. -/
theorem Pending.sendTasks (h : Pending p l) :
    ∃ l', Pending (p.sendTasks t) l' ∧ l = p.writes t ++ l' := by
  have herror {p' : Packet} (hp : p'.sendState = .error) (l : List (List Byte)) : Pending p' l := by
    unfold Pending
    rw [hp]
    trivial
  unfold Pending at h
  unfold Packet.sendTasks Packet.writes
  cases hs : p.sendState with
  | start =>
    simp only [hs] at h ⊢
    obtain ⟨m, hm, hh, hd, rfl⟩ := h
    by_cases hw : t.write = true
    · rw [if_pos hw, if_pos hw]
      refine ⟨if m.data = [] then [] else [m.data], ⟨m, hm, hh, hd, rfl⟩, ?_⟩
      rw [hh]
      rfl
    · rw [if_neg hw, if_neg hw]
      exact ⟨_, herror rfl _, rfl⟩
  | waitHeader =>
    simp only [hs] at h ⊢
    obtain ⟨m, hm, hh, hd, rfl⟩ := h
    cases ht : t.txComplete with
    | none =>
      refine ⟨if m.data = [] then [] else [m.data], ?_, rfl⟩
      unfold Pending
      simp only [hs]
      exact ⟨m, hm, hh, hd, rfl⟩
    | some ok =>
      cases ok with
      | false => exact ⟨_, herror rfl _, rfl⟩
      | true =>
        dsimp only
        rw [hh, hd]
        by_cases hdata : m.data = []
        · rw [if_pos ((dataLength_eq_zero hm).2 hdata), if_pos hdata,
            if_neg fun hc => hc.2.1 ((dataLength_eq_zero hm).2 hdata)]
          exact ⟨[], rfl, rfl⟩
        · have hne : m.header.dataLength ≠ 0 := fun h0 => hdata ((dataLength_eq_zero hm).1 h0)
          rw [if_neg hne, if_neg hdata]
          by_cases hw : t.write = true
          · rw [if_pos hw, if_pos ⟨rfl, hne, hw⟩, toNat_dataLength hm, List.take_length]
            exact ⟨[], rfl, rfl⟩
          · rw [if_neg hw, if_neg fun hc => hw hc.2.2]
            exact ⟨_, herror rfl _, rfl⟩
  | waitData =>
    simp only [hs] at h ⊢
    obtain rfl := h
    cases ht : t.txComplete with
    | none =>
      refine ⟨[], ?_, rfl⟩
      unfold Pending
      simp only [hs]
    | some ok =>
      refine ⟨[], ?_, rfl⟩
      cases ok with
      | false => exact herror rfl _
      | true => rfl
  | idle =>
    simp only [hs] at h ⊢
    refine ⟨l, ?_, rfl⟩
    unfold Pending
    simp only [hs]
    exact h
  | error => exact ⟨l, herror hs l, rfl⟩

/-- Another packet is sent behind those that have not been taken. -/
theorem Consumed.append (h : Consumed p q l) (m : Message) : Consumed p (q ++ [m]) l := by
  unfold Consumed at h ⊢
  cases hs : p.recvState with
  | start | waitHeader =>
    simp only [hs] at h ⊢
    exact h
  | waitData =>
    simp only [hs] at h ⊢
    obtain ⟨m', r, rfl, h⟩ := h
    exact ⟨m', r ++ [m], rfl, h⟩
  | idle =>
    simp only [hs] at h ⊢
    obtain ⟨m', r, rfl, h⟩ := h
    exact ⟨m', r ++ [m], rfl, h⟩
  | error =>
    simp only [hs] at h

/-- A call of `ADBPacketRecvTasks` at the far end in which no transfer ends. -/
theorem Consumed.recvTasks_idle (h : Consumed p q l) (hr : p.reads t = none)
    (hne : (p.recvTasks t).recvState ≠ .error) : Consumed (p.recvTasks t) q l := by
  unfold Packet.reads at hr
  unfold Packet.recvTasks at hne ⊢
  cases hs : p.recvState with
  | start =>
    simp only [hs] at hne ⊢
    unfold Consumed at h
    simp only [hs] at h
    by_cases hread : t.read = true
    · rw [if_pos hread]
      exact h
    · rw [if_neg hread] at hne
      exact absurd rfl hne
  | waitHeader | waitData =>
    simp only [hs] at hr ⊢
    rw [hr]
    exact h
  | idle | error => exact h

/-- The far end reads the next transfer. -/
theorem Consumed.recvTasks (h : Consumed p q l)
    (hq : ∀ m ∈ q, m.data.length ≤ adbPacketMaxRecvDataBytes) {b : List Byte}
    {rest : List (List Byte)} (hr : p.reads t = some (true, b))
    (hstream : q.flatMap Message.transfers = l ++ (b :: rest))
    (hne : (p.recvTasks t).recvState ≠ .error) : Consumed (p.recvTasks t) q (l ++ [b]) := by
  unfold Packet.reads at hr
  unfold Consumed at h
  cases hs : p.recvState with
  | waitHeader =>
    simp only [hs] at h hr
    subst h
    cases q with
    | nil => cases hstream
    | cons m q =>
      obtain ⟨rfl, -⟩ := List.cons.inj hstream
      rw [recvTasks_header hs hr (hq m List.mem_cons_self)] at hne ⊢
      unfold Consumed
      by_cases hdata : m.data = []
      · simp only [hdata, if_true]
        refine ⟨m, q, rfl, ?_, ?_⟩
        · unfold Packet.received
          have hzero : m.header.dataLength.toNat = 0 := by
            rw [toNat_dataLength (hq m List.mem_cons_self), hdata]
            rfl
          have hnil : p.recvData.contents 0 = m.data := hdata.symm ▸ rfl
          dsimp only
          rw [hzero, hnil]
          rfl
        · unfold Message.transfers
          rw [if_pos hdata]
          rfl
      · simp only [hdata, if_false] at hne ⊢
        by_cases hread : t.read = true
        · rw [if_pos hread]
          exact ⟨m, q, rfl, hdata, rfl, rfl⟩
        · rw [if_neg hread] at hne
          exact absurd rfl hne
  | waitData =>
    simp only [hs] at h hr
    obtain ⟨m, q, rfl, hdata, hh, rfl⟩ := h
    rw [List.flatMap_cons] at hstream
    unfold Message.transfers at hstream
    rw [if_neg hdata] at hstream
    obtain ⟨-, hstream⟩ := List.cons.inj hstream
    obtain ⟨rfl, -⟩ := List.cons.inj hstream
    have hm := hq m List.mem_cons_self
    rw [recvTasks_data hs hh hr hm]
    unfold Consumed
    refine ⟨m, q, rfl, ?_, ?_⟩
    · unfold Packet.received
      dsimp only
      rw [hh, toNat_dataLength hm, show (receive m.data p.recvData).contents m.data.length = m.data
        from Block.contents_overlay _ hm]
      rfl
    · unfold Message.transfers
      rw [if_neg hdata]
      rfl
  | start | idle | error =>
    simp only [hs] at hr
    cases hr

end Steps

theorem sendStatus_eq_ok {p : Packet} : p.sendStatus = .ok ↔ p.sendState = .idle := by
  unfold Packet.sendStatus
  cases hs : p.sendState <;> simp [PacketState.busy]

theorem recvStatus_eq_ok {p : Packet} : p.recvStatus = .ok ↔ p.recvState = .idle := by
  unfold Packet.recvStatus
  cases hs : p.recvState <;> simp [PacketState.busy]

/-- What the far end has given up stays so. -/
theorem recvTasks_error {p : Packet} (t : Transfers) (hs : p.recvState = .error) :
    (p.recvTasks t).recvState = .error := by
  unfold Packet.recvTasks
  simp only [hs]

/-- A transfer that fails is an error. -/
theorem recvTasks_fails {p : Packet} {t : Transfers} {l : List Byte}
    (hr : p.reads t = some (false, l)) : (p.recvTasks t).recvState = .error := by
  unfold Packet.reads at hr
  unfold Packet.recvTasks
  cases hs : p.recvState with
  | waitHeader | waitData =>
    simp only [hs] at hr ⊢
    simp only [hr, Bool.not_false, true_or, if_true]
  | start | idle | error =>
    simp only [hs] at hr
    cases hr

/-- **A step of the link** keeps what it carries. -/
theorem Carries.step {w w' : Wire} {q : List Message} {op : WireOp} (hc : Carries w q)
    (hs : Wire.Step w op w') :
    ∃ q', (op.traffic w).foldlM Traffic.fifo q = some q' ∧ Carries w' q' := by
  cases hs with
  | @send m hok hlen =>
    refine ⟨q ++ [m], rfl, ?_, fun hne => ?_⟩
    · intro m' hm'
      rcases List.mem_append.1 hm' with h | h
      · exact hc.short m' h
      · rw [List.mem_singleton.1 h]
        exact hlen
    · obtain ⟨l, l', hl, hl', heq⟩ := hc.stream hne
      unfold Pending at hl'
      simp only [sendStatus_eq_ok.1 hok] at hl'
      subst hl'
      refine ⟨l, m.transfers, hl.append m, ⟨m, hlen, rfl, rfl, rfl⟩, ?_⟩
      rw [List.flatMap_append, heq, List.flatMap_singleton, List.append_nil, List.append_assoc]
  | @nearTasks t =>
    refine ⟨q, rfl, hc.short, fun hne => ?_⟩
    obtain ⟨l, l', hl, hl', heq⟩ := hc.stream hne
    obtain ⟨l'', hl'', rfl⟩ := hl'.sendTasks (t := t)
    exact ⟨l, l'', hl, hl'', by rw [heq, List.append_assoc]⟩
  | @farIdle t hr =>
    refine ⟨q, rfl, hc.short, fun hne => ?_⟩
    obtain ⟨l, l', hl, hl', heq⟩ := hc.stream fun herr => hne (recvTasks_error t herr)
    exact ⟨l, l', hl.recvTasks_idle hr hne, hl', heq⟩
  | farFails hr => exact ⟨q, rfl, hc.short, fun hne => absurd (recvTasks_fails hr) hne⟩
  | @farReads t b rest hr hf =>
    refine ⟨q, rfl, hc.short, fun hne => ?_⟩
    obtain ⟨l, l', hl, hl', heq⟩ := hc.stream fun herr => hne (recvTasks_error t herr)
    rw [hf, List.cons_append] at heq
    refine ⟨l ++ [b], l', hl.recvTasks hc.short hr heq hne, hl', ?_⟩
    rw [heq, List.append_assoc, List.singleton_append]
  | take hok =>
    have hidle := recvStatus_eq_ok.1 hok
    obtain ⟨l, l', hl, hl', heq⟩ := hc.stream (by rw [hidle]; decide)
    unfold Consumed at hl
    simp only [hidle] at hl
    obtain ⟨m, q, rfl, hm, rfl⟩ := hl
    refine ⟨q, ?_, fun m' hm' => hc.short m' (List.mem_cons_of_mem _ hm'), fun _ => ?_⟩
    · rw [← hm]
      exact Traffic.foldlM_left _ q
    · exact ⟨[], l', rfl, hl', List.append_cancel_left heq⟩

theorem Wire.Fresh.carries {w : Wire} (hw : w.Fresh) : Carries w [] := by
  refine ⟨fun m hm => absurd hm List.not_mem_nil, fun _ => ⟨[], [], ?_, ?_, ?_⟩⟩
  · unfold Consumed
    simp only [hw.far]
  · unfold Pending
    simp only [hw.near]
  · rw [hw.flight]
    rfl

/-- A link on which everything that was sent has been taken: the far end awaits a packet. -/
structure Wire.AtRest (w : Wire) : Prop where
  near : w.near.sendState = .idle
  flight : w.flight = []
  far : w.far.recvState = .start ∨ w.far.recvState = .waitHeader

/-- A link at rest carries nothing. -/
theorem Carries.eq_nil {w : Wire} {q : List Message} (hc : Carries w q) (hw : w.AtRest) :
    q = [] := by
  obtain ⟨l, l', hl, hl', hstream⟩ := hc.stream (by rcases hw.far with h | h <;> rw [h] <;> decide)
  have hl0 : l = [] := by
    unfold Consumed at hl
    rcases hw.far with h | h <;> simpa only [h] using hl
  have hl0' : l' = [] := by
    unfold Pending at hl'
    simpa only [hw.near] using hl'
  rw [hw.flight, hl0, hl0'] at hstream
  cases q with
  | nil => rfl
  | cons m q => cases hstream

/-- A link in whose memory there is no packet. -/
def still : Wire :=
  let p : Packet := ⟨⟨0, 0, 0, 0, 0, 0⟩, ⟨0, 0, 0, 0, 0, 0⟩, .idle, .start, [], fun _ => 0⟩
  ⟨p, p, []⟩

theorem still_fresh : still.Fresh := ⟨rfl, rfl, rfl⟩

/-- A packet with data. -/
def greeting : Message := ⟨0x45545257, 256, 9, [5, 6]⟩

/-- Every transfer succeeds, and one of the bytes `l`, if there is one, comes in. -/
def smooth (l : Option (List Byte)) : Transfers := ⟨true, some true, true, l.map (true, ·)⟩

/-- The packet is sent, transferred and taken. -/
def exchange : List WireOp :=
  [.send greeting, .nearTasks (smooth none), .farTasks (smooth none),
    .farTasks (smooth (some greeting.header.toBytes)), .nearTasks (smooth none),
    .farTasks (smooth (some greeting.data)), .nearTasks (smooth none), .take]

theorem exchange_emits : ∃ w', wire.Emits WireOp.traffic still exchange
    [.entered greeting, .left greeting] w' ∧
    w'.near.sendState = .idle ∧ w'.flight = [] ∧ w'.far.recvState = .start := by
  have hrun : (Lts.perform WireOp.apply WireOp.traffic exchange still).map (fun r =>
      (r.2, r.1.near.sendState, r.1.flight, r.1.far.recvState)) =
      some ([.entered greeting, .left greeting], .idle, [], .start) := by decide +kernel
  obtain ⟨⟨w', es⟩, h, heq⟩ := Option.map_eq_some_iff.1 hrun
  simp only [Prod.mk.injEq] at heq
  obtain ⟨rfl, hend⟩ := heq
  exact ⟨w', Lts.emits_of_perform (fun _ _ _ => wire_step_of_apply) h, hend⟩

/-- **What is taken is what was sent.** Whatever the ends do and however long the transfers take,
the packets taken at the far end are the first of those sent at the near end, in order and
unchanged; and they are all of them when the link is at rest. -/
theorem wire_delivers {w w' : Wire} (hw : w.Fresh) {ops : List WireOp} {es : List (Traffic Message)}
    (h : wire.Emits WireOp.traffic w ops es w') :
    Traffic.exits es <+: Traffic.entries es ∧
    (w'.near.sendState = .idle → w'.flight = [] →
      (w'.far.recvState = .start ∨ w'.far.recvState = .waitHeader) →
      Traffic.exits es = Traffic.entries es) := by
  obtain ⟨q, hfold, hc⟩ := h.accepted (R := Carries) (fun w op w' q hc hs => hc.step hs) hw.carries
  have heq := Traffic.entries_eq hfold
  rw [List.nil_append] at heq
  refine ⟨⟨q, heq.symm⟩, fun hnear hflight hfar => ?_⟩
  rw [heq, hc.eq_nil ⟨hnear, hflight, hfar⟩, List.append_nil]

/-- The exchange puts a link at rest, with the packet taken as it was sent. -/
theorem wire_delivers_greeting :
    ∃ w', wire.Emits WireOp.traffic still exchange [.entered greeting, .left greeting] w' ∧
      w'.near.sendState = .idle ∧ w'.flight = [] ∧ w'.far.recvState = .start ∧
      Traffic.exits [.entered greeting, .left greeting] =
        Traffic.entries [.entered greeting, .left greeting] := by
  obtain ⟨w', h, hnear, hflight, hfar⟩ := exchange_emits
  have heq := (wire_delivers still_fresh h).2 hnear hflight (.inl hfar)
  exact ⟨w', h, hnear, hflight, hfar, heq⟩

/-! ## Errors -/

/-- The transfers of a step start when they are asked for, and none that ends has failed. -/
def WireOp.Succeeds : WireOp → Prop
  | nearTasks t => t.write = true ∧ t.txComplete ≠ some false
  | farTasks t => t.read = true ∧ ∀ l, t.rxComplete ≠ some (false, l)
  | send _ | take => True

/-- Neither end has given up. -/
def Wire.Sound (w : Wire) : Prop := w.near.sendState ≠ .error ∧ w.far.recvState ≠ .error

theorem sendTasks_ne_error {p : Packet} {t : Transfers} (hp : p.sendState ≠ .error)
    (hw : t.write = true) (ht : t.txComplete ≠ some false) :
    (p.sendTasks t).sendState ≠ .error := by
  unfold Packet.sendTasks
  cases hs : p.sendState with
  | start => simp [hw]
  | waitHeader =>
    cases htx : t.txComplete with
    | none => simp [hs]
    | some ok =>
      cases ok with
      | false => exact absurd htx ht
      | true =>
        dsimp only
        split_ifs <;> simp
  | waitData =>
    cases htx : t.txComplete with
    | none => simp [hs]
    | some ok =>
      cases ok with
      | false => exact absurd htx ht
      | true => simp
  | idle => simp [hs]
  | error => exact absurd hs hp

/-- The far end takes what it is sent for a packet. -/
theorem Carries.recvTasks_ne_error {w w' : Wire} {q : List Message} {t : Transfers}
    (hc : Carries w q) (hs : Wire.Step w (.farTasks t) w') (hw : w.far.recvState ≠ .error)
    (hread : t.read = true) (hrx : ∀ l, t.rxComplete ≠ some (false, l)) :
    (w.far.recvTasks t).recvState ≠ .error := by
  obtain ⟨l, l', hl, -, hstream⟩ := hc.stream hw
  unfold Consumed at hl
  have hreads : w.far.reads t = none ∨ ∃ b rest, w.far.reads t = some (true, b) ∧
      w.flight = b :: rest := by
    cases hs with
    | farIdle hr => exact .inl hr
    | farReads hr hf => exact .inr ⟨_, _, hr, hf⟩
    | farFails hr =>
      unfold Packet.reads at hr
      cases hst : w.far.recvState with
      | waitHeader | waitData =>
        simp only [hst] at hr
        exact absurd hr (hrx _)
      | start | idle | error =>
        simp only [hst] at hr
        cases hr
  cases hst : w.far.recvState with
  | start =>
    unfold Packet.recvTasks
    simp [hst, hread]
  | waitHeader =>
    simp only [hst] at hl
    subst hl
    rcases hreads with hr | ⟨b, rest, hr, hf⟩
    · unfold Packet.reads at hr
      simp only [hst] at hr
      unfold Packet.recvTasks
      simp [hst, hr]
    · unfold Packet.reads at hr
      simp only [hst] at hr
      rw [hf] at hstream
      cases q with
      | nil => cases hstream
      | cons m q =>
        obtain ⟨rfl, -⟩ := List.cons.inj hstream
        rw [recvTasks_header hst hr (hc.short m List.mem_cons_self)]
        dsimp only
        rw [if_pos hread]
        split_ifs <;> decide
  | waitData =>
    simp only [hst] at hl
    obtain ⟨m, q, rfl, hdata, hh, rfl⟩ := hl
    rcases hreads with hr | ⟨b, rest, hr, hf⟩
    · unfold Packet.reads at hr
      simp only [hst] at hr
      unfold Packet.recvTasks
      simp [hst, hr]
    · unfold Packet.reads at hr
      simp only [hst] at hr
      rw [List.flatMap_cons, hf] at hstream
      unfold Message.transfers at hstream
      rw [if_neg hdata] at hstream
      obtain ⟨-, hstream⟩ := List.cons.inj hstream
      obtain ⟨rfl, -⟩ := List.cons.inj hstream
      rw [recvTasks_data hst hh hr (hc.short m List.mem_cons_self)]
      exact PacketState.noConfusion
  | idle =>
    unfold Packet.recvTasks
    simp [hst]
  | error => exact absurd hst hw

theorem Carries.sound {w w' : Wire} {q : List Message} {op : WireOp} (hc : Carries w q)
    (hw : w.Sound) (hs : Wire.Step w op w') (hop : op.Succeeds) : w'.Sound := by
  cases op with
  | send m =>
    cases hs with
    | send hok hlen => exact ⟨PacketState.noConfusion, hw.2⟩
  | nearTasks t =>
    cases hs with
    | nearTasks => exact ⟨sendTasks_ne_error hw.1 hop.1 hop.2, hw.2⟩
  | farTasks t =>
    have hfar := hc.recvTasks_ne_error hs hw.2 hop.1 hop.2
    cases hs with
    | farIdle hr => exact ⟨hw.1, hfar⟩
    | farFails hr => exact ⟨hw.1, hfar⟩
    | farReads hr hf => exact ⟨hw.1, hfar⟩
  | take =>
    cases hs with
    | take hok => exact ⟨hw.1, PacketState.noConfusion⟩

theorem Carries.sound_run {w w' : Wire} {q : List Message} {ops : List WireOp}
    (hr : wire.Run w ops w') (hc : Carries w q) (hw : w.Sound) (hops : ∀ op ∈ ops, op.Succeeds) :
    w'.Sound := by
  induction hr generalizing q with
  | nil => exact hw
  | cons hs _ ih =>
    obtain ⟨q', -, hc'⟩ := hc.step hs
    exact ih hc' (hc.sound hw hs (hops _ List.mem_cons_self))
      fun op hop => hops op (List.mem_cons_of_mem _ hop)

/-- **No packet is refused.** While no transfer fails, neither end of the link gives up, whatever
packets that fit the receive buffer are sent: every header and every checksum that arrives is
accepted. -/
theorem wire_sound {w w' : Wire} (hw : w.Fresh) {ops : List WireOp} (hr : wire.Run w ops w')
    (hops : ∀ op ∈ ops, op.Succeeds) :
    w'.near.sendState ≠ .error ∧ w'.far.recvState ≠ .error :=
  hw.carries.sound_run hr
    ⟨by rw [hw.near]; exact PacketState.noConfusion, by rw [hw.far]; exact PacketState.noConfusion⟩
    hops

theorem wire_sound_exchange : ∃ w', wire.Run still exchange w' ∧
    w'.near.sendState ≠ .error ∧ w'.far.recvState ≠ .error := by
  obtain ⟨w', h, -⟩ := exchange_emits
  have hsmooth (l : Option (List Byte)) : (∀ k, (smooth l).rxComplete ≠ some (false, k)) := by
    cases l <;> simp [smooth]
  refine ⟨w', h.run, wire_sound still_fresh h.run fun op hop => ?_⟩
  simp only [exchange, List.mem_cons, List.not_mem_nil, or_false] at hop
  rcases hop with rfl | rfl | rfl | rfl | rfl | rfl | rfl | rfl
  · exact trivial
  · exact ⟨rfl, by decide⟩
  · exact ⟨rfl, hsmooth _⟩
  · exact ⟨rfl, hsmooth _⟩
  · exact ⟨rfl, by decide⟩
  · exact ⟨rfl, hsmooth _⟩
  · exact ⟨rfl, by decide⟩
  · exact trivial

end TPadFire.Adb
