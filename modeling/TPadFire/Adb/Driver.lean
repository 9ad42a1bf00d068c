import TPadFire.Adb.Packet

/-!
# The USB driver

`usb_host_android.c`, which keeps for each of the two interfaces of an Android device what transfers
are under way and how the last ones have ended, and the packet layer on top of it. What the USB host
answers is an input (`Bus`): whether a transfer starts, and whether one is over. A transfer in has
put its bytes where it was told to when it is over, and these stand for their number too.

The driver is to be asked for a transfer of an interface that is attached only, and for one at a
time in each direction. `Call` records the calls with what the driver finds (`Call.Allowed`). The
packet layer keeps to this as long as what is under way is what it waits for (`Packet.Awaits`), and
what the driver tells it are the `Transfers` of the packet layer (`tasksOn_eq`).
-/

namespace TPadFire.Adb

open Firmware (Byte RecvBuffer adbPacketMaxRecvDataBytes receive)

/-! ## The driver -/

/-- `USB_SUCCESS` -/
def usbSuccess : Byte := 0x00

/-- `USB_BUSY` -/
def usbBusy : Byte := 0x02

/-- `ANDROID_INTERFACE_ID` -/
inductive InterfaceId
  | acc
  | adb
  deriving DecidableEq, Repr

/-- `ANDROID_INTERFACE` -/
structure Interface where
  /-- The bytes of the last transfer in, `rxLength` of them. -/
  rxData : List Byte
  inEndpoint : Byte
  outEndpoint : Byte
  rxErrorCode : Byte
  txErrorCode : Byte
  initialized : Bool
  txBusy : Bool
  rxBusy : Bool
  deriving DecidableEq

/-- `ANDROID_DEVICE`, without the ids of the vendor and the product. -/
structure AndroidDevice where
  deviceAddress : Byte
  interfaces : InterfaceId → Interface

/-- What the USB host answers while `ConnectionTasks` runs. -/
structure Bus where
  /-- `USBHostTransferIsComplete` of the endpoint in: the transfer is over, with a code and its
  bytes. -/
  rx : InterfaceId → Option (Byte × List Byte)
  /-- `USBHostTransferIsComplete` of the endpoint out. -/
  tx : InterfaceId → Option Byte
  /-- `USBHostRead` -/
  read : InterfaceId → Byte
  /-- `USBHostWrite` -/
  write : InterfaceId → Byte

/-- A call of the driver, and what it finds: the interface, or the address of the device. -/
inductive Call
  | read (i : Interface)
  | write (i : Interface)
  | reset (deviceAddress : Byte)
  deriving DecidableEq

/-- The assertions of the driver hold, and it is not busy. -/
def Call.Allowed : Call → Prop
  | read i => i.initialized = true ∧ i.rxBusy = false
  | write i => i.initialized = true ∧ i.txBusy = false
  | reset deviceAddress => deviceAddress ≠ 0

instance (c : Call) : Decidable c.Allowed := by
  cases c with
  | read i | write i => exact inferInstanceAs (Decidable (_ ∧ _))
  | reset deviceAddress => exact inferInstanceAs (Decidable (¬ _))

theorem Call.allowed_nil : ∀ c ∈ ([] : List Call), c.Allowed :=
  fun _ hc => absurd hc List.not_mem_nil

theorem Call.allowed_singleton {c : Call} (h : c.Allowed) : ∀ c' ∈ [c], c'.Allowed :=
  fun _ hc => List.mem_singleton.1 hc ▸ h

theorem Call.allowed_append {l l' : List Call} (h : ∀ c ∈ l, c.Allowed)
    (h' : ∀ c ∈ l', c.Allowed) : ∀ c ∈ l ++ l', c.Allowed :=
  fun c hc => (List.mem_append.1 hc).elim (h c) (h' c)

/-- An interface whose bytes are all zero. -/
def Interface.zero : Interface := ⟨[], 0, 0, 0, 0, false, false, false⟩

/-- The interface after `USBHostAndroidTasks` has asked for its transfers. -/
def Interface.poll (rx : Option (Byte × List Byte)) (tx : Option Byte) (i : Interface) :
    Interface :=
  let i :=
    if i.rxBusy then
      match rx with
      | some (code, l) => { i with rxBusy := false, rxData := l, rxErrorCode := code }
      | none => i
    else i
  if i.txBusy then
    match tx with
    | some code => { i with txBusy := false, txErrorCode := code }
    | none => i
  else i

namespace AndroidDevice

/-- `memset` of `gc_DevData`. -/
def zero : AndroidDevice := ⟨0, fun _ => .zero⟩

/-- Replace an interface. -/
def set (i : InterfaceId) (x : Interface) (g : AndroidDevice) : AndroidDevice :=
  { g with interfaces := Function.update g.interfaces i x }

@[simp] theorem interfaces_set (i : InterfaceId) (x : Interface) (g : AndroidDevice) :
    (g.set i x).interfaces i = x := Function.update_self ..

theorem interfaces_set_of_ne {i j : InterfaceId} (hne : j ≠ i) (x : Interface)
    (g : AndroidDevice) : (g.set i x).interfaces j = g.interfaces j := Function.update_of_ne hne ..

/-- An endpoint in. -/
def isIn (endpoint : Byte) : Bool := endpoint &&& 0x80 ≠ 0

/-- `USBHostAndroidInitInterface`, for an interface number that its assertion lets through and the
addresses of the endpoints; `none` is `FALSE`. -/
def initInterface (address : Byte) (i : InterfaceId) (endpoints : List Byte) (g : AndroidDevice) :
    Option AndroidDevice :=
  let use (inEndpoint outEndpoint : Byte) : AndroidDevice :=
    { g.set i { g.interfaces i with
        inEndpoint := inEndpoint
        outEndpoint := outEndpoint
        initialized := true }
      with deviceAddress := address }
  match endpoints with
  | [first, second] =>
    if isIn first then if isIn second then none else some (use first second)
    else if isIn second then some (use second first)
    else none
  | _ => none

/-- `USBHostAndroidInitDevice`, for the interfaces of a device with their endpoints. -/
def initDevice (address : Byte) (interfaces : List (InterfaceId × List Byte)) : AndroidDevice :=
  interfaces.foldl (fun g i => (g.initInterface address i.1 i.2).getD g) zero

/-- `USBHostAndroidEventHandler` of `EVENT_DETACH`. -/
def detach (address : Byte) (g : AndroidDevice) : AndroidDevice :=
  if address ≠ g.deviceAddress then g else zero

/-- `USBHostAndroidRead`, where `USBHostRead` answers `answer`. -/
def read (answer : Byte) (i : InterfaceId) (g : AndroidDevice) : Byte × AndroidDevice :=
  let x := g.interfaces i
  if x.rxBusy then (usbBusy, g)
  else (answer, g.set i { x with rxBusy := answer = usbSuccess, rxData := [] })

/-- `USBHostAndroidRxIsComplete` -/
def rxIsComplete (i : InterfaceId) (g : AndroidDevice) : Option (Byte × List Byte) :=
  let x := g.interfaces i
  if x.rxBusy then none else some (x.rxErrorCode, x.rxData)

/-- `USBHostAndroidTasks` -/
def tasks (u : Bus) (g : AndroidDevice) : AndroidDevice :=
  { g with interfaces := fun i =>
    if g.deviceAddress ≠ 0 ∧ (g.interfaces i).initialized then
      (g.interfaces i).poll (u.rx i) (u.tx i)
    else g.interfaces i }

/-- `USBHostAndroidTxIsComplete` -/
def txIsComplete (i : InterfaceId) (g : AndroidDevice) : Option Byte :=
  let x := g.interfaces i
  if x.txBusy then none else some x.txErrorCode

/-- `USBHostAndroidWrite`, where `USBHostWrite` answers `answer`. -/
def write (answer : Byte) (i : InterfaceId) (g : AndroidDevice) : Byte × AndroidDevice :=
  let x := g.interfaces i
  if x.txBusy then (usbBusy, g)
  else (answer, g.set i { x with txBusy := answer = usbSuccess })

/-- What the driver tells the packet layer in one call of `ADBPacketTasks`. -/
def transfers (u : Bus) (g : AndroidDevice) : Transfers where
  write := (g.write (u.write .adb) .adb).1 = usbSuccess
  txComplete := (g.txIsComplete .adb).map fun code => code = usbSuccess
  read := (g.read (u.read .adb) .adb).1 = usbSuccess
  rxComplete := (g.rxIsComplete .adb).map fun r => (r.1 = usbSuccess, r.2)

end AndroidDevice

/-! ## The packet layer on the driver -/

namespace Packet

/-- `ADBPacketSendTasks`, with its calls of the driver. -/
def sendTasksOn (u : Bus) (p : Packet) (g : AndroidDevice) : List Call × Packet × AndroidDevice :=
  match p.sendState with
  | .start =>
    let r := g.write (u.write .adb) .adb
    ([.write (g.interfaces .adb)],
      { p with sendState := if r.1 = usbSuccess then .waitHeader else .error }, r.2)
  | .waitHeader =>
    match g.txIsComplete .adb with
    | none => ([], p, g)
    | some code =>
      if code ≠ usbSuccess then ([], { p with sendState := .error }, g)
      else if p.sendHeader.dataLength = 0 then ([], { p with sendState := .idle }, g)
      else
        let r := g.write (u.write .adb) .adb
        ([.write (g.interfaces .adb)],
          { p with sendState := if r.1 = usbSuccess then .waitData else .error }, r.2)
  | .waitData =>
    match g.txIsComplete .adb with
    | none => ([], p, g)
    | some code => ([], { p with sendState := if code = usbSuccess then .idle else .error }, g)
  | .idle => ([], p, g)
  | .error => ([], p, g)

/-- `ADBPacketRecvTasks`, with its calls of the driver. -/
def recvTasksOn (u : Bus) (p : Packet) (g : AndroidDevice) : List Call × Packet × AndroidDevice :=
  match p.recvState with
  | .start =>
    let r := g.read (u.read .adb) .adb
    ([.read (g.interfaces .adb)],
      { p with recvState := if r.1 = usbSuccess then .waitHeader else .error }, r.2)
  | .waitHeader =>
    match g.rxIsComplete .adb with
    | none => ([], p, g)
    | some (code, l) =>
      let p := { p with recvHeader := Header.ofBytes l }
      if code ≠ usbSuccess then ([], { p with recvState := .error }, g)
      else if l.length ≠ headerSize ∨ p.recvHeader.command ≠ (~~~p.recvHeader.magic) ∨
          p.recvHeader.dataLength.toNat > adbPacketMaxRecvDataBytes then
        ([], { p with recvState := .error }, g)
      else if p.recvHeader.dataLength = (0 : UInt32) then ([], { p with recvState := .idle }, g)
      else
        let r := g.read (u.read .adb) .adb
        ([.read (g.interfaces .adb)],
          { p with recvState := if r.1 = usbSuccess then .waitData else .error }, r.2)
  | .waitData =>
    match g.rxIsComplete .adb with
    | none => ([], p, g)
    | some (code, l) =>
      let p := { p with recvData := receive l p.recvData }
      if code ≠ usbSuccess ∨ l.length ≠ p.recvHeader.dataLength.toNat then
        ([], { p with recvState := .error }, g)
      else if adbChecksum (p.recvData.contents p.recvHeader.dataLength.toNat) ≠
          p.recvHeader.dataCheck then
        ([], { p with recvState := .error }, g)
      else ([], { p with recvState := .idle }, g)
  | .idle => ([], p, g)
  | .error => ([], p, g)

/-- `ADBPacketTasks`, with its calls of the driver. -/
def tasksOn (u : Bus) (p : Packet) (g : AndroidDevice) : List Call × Packet × AndroidDevice :=
  let s := p.sendTasksOn u g
  let r := s.2.1.recvTasksOn u s.2.2
  (s.1 ++ r.1, r.2)

/-- What is under way on an interface is what the packet layer waits for. -/
structure Awaits (p : Packet) (i : Interface) : Prop where
  tx : i.txBusy = true → p.sendState = .waitHeader ∨ p.sendState = .waitData
  rx : i.rxBusy = true → p.recvState = .waitHeader ∨ p.recvState = .waitData

section Driver

variable {u : Bus} {p : Packet} {g : AndroidDevice}

/-! ### What the driver says -/

theorem write_of_not_busy (hb : (g.interfaces .adb).txBusy = false) :
    g.write (u.write .adb) .adb =
      (u.write .adb,
        g.set .adb { g.interfaces .adb with txBusy := u.write .adb = usbSuccess }) := by
  unfold AndroidDevice.write
  dsimp only
  rw [hb, if_neg Bool.false_ne_true]

theorem read_of_not_busy (hb : (g.interfaces .adb).rxBusy = false) :
    g.read (u.read .adb) .adb =
      (u.read .adb, g.set .adb
        { g.interfaces .adb with rxBusy := u.read .adb = usbSuccess, rxData := [] }) := by
  unfold AndroidDevice.read
  dsimp only
  rw [hb, if_neg Bool.false_ne_true]

theorem sendTasksOn_eq (u : Bus) (p : Packet) (g : AndroidDevice) :
    (p.sendTasksOn u g).2.1 = p.sendTasks (g.transfers u) := by
  unfold sendTasksOn sendTasks AndroidDevice.transfers
  dsimp only
  cases p.sendState with
  | start =>
    dsimp only
    simp only [decide_eq_true_eq]
  | waitHeader =>
    cases g.txIsComplete .adb with
    | none => rfl
    | some code =>
      by_cases hcode : code = usbSuccess
      · simp only [hcode, ne_eq, not_true_eq_false, if_false, Option.map_some, decide_true,
          decide_eq_true_eq]
        split_ifs <;> rfl
      · simp only [hcode, ne_eq, not_false_eq_true, if_true, Option.map_some, decide_false]
  | waitData =>
    cases g.txIsComplete .adb with
    | none => rfl
    | some code => simp only [Option.map_some, decide_eq_true_eq]
  | idle | error => rfl

theorem recvTasksOn_eq (u : Bus) (p : Packet) (g : AndroidDevice) :
    (p.recvTasksOn u g).2.1 = p.recvTasks (g.transfers u) := by
  unfold recvTasksOn recvTasks AndroidDevice.transfers
  dsimp only
  cases p.recvState with
  | start =>
    dsimp only
    simp only [decide_eq_true_eq]
  | waitHeader =>
    cases g.rxIsComplete .adb with
    | none => rfl
    | some r =>
      by_cases hcode : r.1 = usbSuccess
      · simp only [hcode, ne_eq, not_true_eq_false, if_false, Option.map_some, decide_true,
          Bool.not_true, Bool.false_eq_true, decide_eq_true_eq]
        split_ifs <;> rfl
      · simp only [hcode, ne_eq, not_false_eq_true, if_true, Option.map_some, decide_false,
          Bool.not_false]
  | waitData =>
    cases g.rxIsComplete .adb with
    | none => rfl
    | some r =>
      by_cases hcode : r.1 = usbSuccess
      · simp only [hcode, ne_eq, not_true_eq_false, false_or, Option.map_some, decide_true,
          Bool.not_true, Bool.false_eq_true]
        split_ifs <;> rfl
      · simp only [hcode, ne_eq, not_false_eq_true, true_or, if_true, Option.map_some,
          decide_false, Bool.not_false]
  | idle | error => rfl

/-! ### What the packet layer does to the driver -/

/-- Sending changes nothing but whether a transfer out is under way. -/
theorem sendTasksOn_frame (u : Bus) (p : Packet) (g : AndroidDevice) :
    ∃ b, (p.sendTasksOn u g).2.2 = g.set .adb { g.interfaces .adb with txBusy := b } := by
  have hsame : ∃ b, g = g.set .adb { g.interfaces .adb with txBusy := b } :=
    ⟨(g.interfaces .adb).txBusy, by
      unfold AndroidDevice.set
      rw [Function.update_eq_self]⟩
  have hwrite : ∃ b, (g.write (u.write .adb) .adb).2 =
      g.set .adb { g.interfaces .adb with txBusy := b } := by
    cases hb : (g.interfaces .adb).txBusy with
    | true =>
      unfold AndroidDevice.write
      dsimp only
      rw [hb, if_pos rfl]
      exact hsame
    | false => exact ⟨_, congrArg Prod.snd (write_of_not_busy hb)⟩
  unfold sendTasksOn
  cases p.sendState with
  | start => exact hwrite
  | waitHeader =>
    cases g.txIsComplete .adb with
    | none => exact hsame
    | some code =>
      dsimp only
      split_ifs
      · exact hsame
      · exact hsame
      · exact hwrite
      · exact hwrite
  | waitData =>
    cases g.txIsComplete .adb with
    | none => exact hsame
    | some code => exact hsame
  | idle | error => exact hsame

/-- Receiving changes nothing but the transfer in. -/
theorem recvTasksOn_frame (u : Bus) (p : Packet) (g : AndroidDevice) :
    ∃ b l, (p.recvTasksOn u g).2.2 =
      g.set .adb { g.interfaces .adb with rxBusy := b, rxData := l } := by
  have hsame : ∃ b l, g = g.set .adb { g.interfaces .adb with rxBusy := b, rxData := l } :=
    ⟨(g.interfaces .adb).rxBusy, (g.interfaces .adb).rxData, by
      unfold AndroidDevice.set
      rw [Function.update_eq_self]⟩
  have hread : ∃ b l, (g.read (u.read .adb) .adb).2 =
      g.set .adb { g.interfaces .adb with rxBusy := b, rxData := l } := by
    cases hb : (g.interfaces .adb).rxBusy with
    | true =>
      unfold AndroidDevice.read
      dsimp only
      rw [hb, if_pos rfl]
      exact hsame
    | false => exact ⟨_, _, congrArg Prod.snd (read_of_not_busy hb)⟩
  unfold recvTasksOn
  cases p.recvState with
  | start => exact hread
  | waitHeader =>
    cases g.rxIsComplete .adb with
    | none => exact hsame
    | some r =>
      dsimp only
      split_ifs
      · exact hsame
      · exact hsame
      · exact hsame
      · exact hread
      · exact hread
  | waitData =>
    cases g.rxIsComplete .adb with
    | none => exact hsame
    | some r =>
      dsimp only
      split_ifs
      · exact hsame
      · exact hsame
      · exact hsame
  | idle | error => exact hsame

/-- What `ADBPacketTasks` leaves as it is. -/
theorem tasksOn_frame (u : Bus) (p : Packet) (g : AndroidDevice) :
    (p.tasksOn u g).2.2.deviceAddress = g.deviceAddress ∧
      (p.tasksOn u g).2.2.interfaces .acc = g.interfaces .acc ∧
      ((p.tasksOn u g).2.2.interfaces .adb).initialized = (g.interfaces .adb).initialized := by
  unfold tasksOn
  dsimp only
  obtain ⟨b, hs⟩ := p.sendTasksOn_frame u g
  obtain ⟨b', l, hr⟩ := (p.sendTasksOn u g).2.1.recvTasksOn_frame u (p.sendTasksOn u g).2.2
  rw [hr, hs]
  refine ⟨rfl, ?_, ?_⟩
  · rw [AndroidDevice.interfaces_set_of_ne (by decide),
      AndroidDevice.interfaces_set_of_ne (by decide)]
  · rw [AndroidDevice.interfaces_set, AndroidDevice.interfaces_set]

/-- What is received does not depend on what is asked of the other direction. -/
theorem recvTasks_congr {t t' : Transfers} (hread : t.read = t'.read)
    (hrx : t.rxComplete = t'.rxComplete) (p : Packet) : p.recvTasks t = p.recvTasks t' := by
  unfold recvTasks
  rw [hread, hrx]

/-- **The packet layer on the driver** is the packet layer on what the driver tells it. -/
theorem tasksOn_eq (u : Bus) (p : Packet) (g : AndroidDevice) :
    (p.tasksOn u g).2.1 = p.tasks (g.transfers u) := by
  unfold tasksOn tasks
  dsimp only
  rw [recvTasksOn_eq, sendTasksOn_eq]
  obtain ⟨b, hs⟩ := p.sendTasksOn_frame u g
  rw [hs]
  refine recvTasks_congr ?_ ?_ _
  · unfold AndroidDevice.transfers AndroidDevice.read
    simp only [AndroidDevice.interfaces_set]
    split_ifs <;> rfl
  · unfold AndroidDevice.transfers AndroidDevice.rxIsComplete
    simp only [AndroidDevice.interfaces_set]

/-! ### The discipline -/

theorem not_busy_of_txIsComplete {i : InterfaceId} {code : Byte}
    (h : g.txIsComplete i = some code) : (g.interfaces i).txBusy = false := by
  unfold AndroidDevice.txIsComplete at h
  by_contra hbusy
  rw [if_pos (by simpa using hbusy)] at h
  cases h

theorem not_busy_of_rxIsComplete {i : InterfaceId} {r : Byte × List Byte}
    (h : g.rxIsComplete i = some r) : (g.interfaces i).rxBusy = false := by
  unfold AndroidDevice.rxIsComplete at h
  by_contra hbusy
  rw [if_pos (by simpa using hbusy)] at h
  cases h

/-- A state in which the packet layer does not wait for a transfer out. -/
theorem Awaits.not_txBusy {i : Interface} (h : p.Awaits i) (h1 : p.sendState ≠ .waitHeader)
    (h2 : p.sendState ≠ .waitData) : i.txBusy = false := by
  by_contra hbusy
  rcases h.tx (by simpa using hbusy) with hs | hs
  · exact h1 hs
  · exact h2 hs

theorem Awaits.not_rxBusy {i : Interface} (h : p.Awaits i) (h1 : p.recvState ≠ .waitHeader)
    (h2 : p.recvState ≠ .waitData) : i.rxBusy = false := by
  by_contra hbusy
  rcases h.rx (by simpa using hbusy) with hs | hs
  · exact h1 hs
  · exact h2 hs

/-- Sending asks for a transfer out when none is under way, and then waits for it. -/
theorem Awaits.sendTasksOn (h : p.Awaits (g.interfaces .adb))
    (hi : (g.interfaces .adb).initialized = true) :
    (∀ c ∈ (p.sendTasksOn u g).1, c.Allowed) ∧
      (p.sendTasksOn u g).2.1.Awaits ((p.sendTasksOn u g).2.2.interfaces .adb) := by
  have hallowed (hb : (g.interfaces .adb).txBusy = false) :
      ∀ c ∈ [Call.write (g.interfaces .adb)], c.Allowed := Call.allowed_singleton ⟨hi, hb⟩
  have hwrite (hb : (g.interfaces .adb).txBusy = false) {s : PacketState}
      (hs : s = .waitHeader ∨ s = .waitData) :
      ({ p with sendState :=
        if (g.write (u.write .adb) .adb).1 = usbSuccess then s else .error } : Packet).Awaits
          ((g.write (u.write .adb) .adb).2.interfaces .adb) := by
    rw [write_of_not_busy hb]
    dsimp only
    rw [AndroidDevice.interfaces_set]
    refine ⟨fun hbusy => ?_, h.rx⟩
    dsimp only at hbusy ⊢
    rwa [if_pos (by simpa using hbusy)]
  have hidle (hb : (g.interfaces .adb).txBusy = false) (s : PacketState) :
      ({ p with sendState := s } : Packet).Awaits (g.interfaces .adb) :=
    ⟨fun hbusy => absurd hbusy (by rw [hb]; exact Bool.false_ne_true), h.rx⟩
  unfold Packet.sendTasksOn
  cases hst : p.sendState with
  | start =>
    have hb := h.not_txBusy (by rw [hst]; decide) (by rw [hst]; decide)
    exact ⟨hallowed hb, hwrite hb (.inl rfl)⟩
  | waitHeader =>
    cases hc : g.txIsComplete .adb with
    | none => exact ⟨Call.allowed_nil, h⟩
    | some code =>
      have hb := not_busy_of_txIsComplete hc
      dsimp only
      by_cases hcode : code ≠ usbSuccess
      · rw [if_pos hcode]
        exact ⟨Call.allowed_nil, hidle hb _⟩
      · rw [if_neg hcode]
        by_cases hlen : p.sendHeader.dataLength = 0
        · rw [if_pos hlen]
          exact ⟨Call.allowed_nil, hidle hb _⟩
        · rw [if_neg hlen]
          exact ⟨hallowed hb, hwrite hb (.inr rfl)⟩
  | waitData =>
    cases hc : g.txIsComplete .adb with
    | none => exact ⟨Call.allowed_nil, h⟩
    | some code => exact ⟨Call.allowed_nil, hidle (not_busy_of_txIsComplete hc) _⟩
  | idle | error => exact ⟨Call.allowed_nil, h⟩

/-- Receiving asks for a transfer in when none is under way, and then waits for it. -/
theorem Awaits.recvTasksOn (h : p.Awaits (g.interfaces .adb))
    (hi : (g.interfaces .adb).initialized = true) :
    (∀ c ∈ (p.recvTasksOn u g).1, c.Allowed) ∧
      (p.recvTasksOn u g).2.1.Awaits ((p.recvTasksOn u g).2.2.interfaces .adb) := by
  have hallowed (hb : (g.interfaces .adb).rxBusy = false) :
      ∀ c ∈ [Call.read (g.interfaces .adb)], c.Allowed := Call.allowed_singleton ⟨hi, hb⟩
  have hread (hb : (g.interfaces .adb).rxBusy = false) {s : PacketState} (hd : Header)
      (hs : s = .waitHeader ∨ s = .waitData) :
      ({ p with
        recvHeader := hd
        recvState :=
          if (g.read (u.read .adb) .adb).1 = usbSuccess then s else .error } : Packet).Awaits
          ((g.read (u.read .adb) .adb).2.interfaces .adb) := by
    rw [read_of_not_busy hb]
    dsimp only
    rw [AndroidDevice.interfaces_set]
    refine ⟨h.tx, fun hbusy => ?_⟩
    dsimp only at hbusy ⊢
    rwa [if_pos (by simpa using hbusy)]
  have hidle (hb : (g.interfaces .adb).rxBusy = false) (hd : Header) (s : PacketState)
      (rx : RecvBuffer) :
      ({ p with recvHeader := hd, recvState := s, recvData := rx } : Packet).Awaits
        (g.interfaces .adb) :=
    ⟨h.tx, fun hbusy => absurd hbusy (by rw [hb]; exact Bool.false_ne_true)⟩
  unfold Packet.recvTasksOn
  cases hst : p.recvState with
  | start =>
    have hb := h.not_rxBusy (by rw [hst]; decide) (by rw [hst]; decide)
    exact ⟨hallowed hb, hread hb p.recvHeader (.inl rfl)⟩
  | waitHeader =>
    cases hc : g.rxIsComplete .adb with
    | none => exact ⟨Call.allowed_nil, h⟩
    | some r =>
      have hb := not_busy_of_rxIsComplete hc
      dsimp only
      by_cases h1 : r.1 ≠ usbSuccess
      · rw [if_pos h1]
        exact ⟨Call.allowed_nil, hidle hb _ _ _⟩
      · rw [if_neg h1]
        have hr := hread hb (Header.ofBytes r.2) (s := .waitData) (.inr rfl)
        split_ifs with h2 h3 h4
        · exact ⟨Call.allowed_nil, hidle hb _ _ _⟩
        · exact ⟨Call.allowed_nil, hidle hb _ _ _⟩
        · rw [if_pos h4] at hr
          exact ⟨hallowed hb, hr⟩
        · rw [if_neg h4] at hr
          exact ⟨hallowed hb, hr⟩
  | waitData =>
    cases hc : g.rxIsComplete .adb with
    | none => exact ⟨Call.allowed_nil, h⟩
    | some r =>
      have hb := not_busy_of_rxIsComplete hc
      dsimp only
      split_ifs
      · exact ⟨Call.allowed_nil, hidle hb _ _ _⟩
      · exact ⟨Call.allowed_nil, hidle hb _ _ _⟩
      · exact ⟨Call.allowed_nil, hidle hb _ _ _⟩
  | idle | error => exact ⟨Call.allowed_nil, h⟩

/-- **A call of `ADBPacketTasks`** asks the driver for what it may ask it for. -/
theorem Awaits.tasksOn (h : p.Awaits (g.interfaces .adb))
    (hi : (g.interfaces .adb).initialized = true) :
    (∀ c ∈ (p.tasksOn u g).1, c.Allowed) ∧
      (p.tasksOn u g).2.1.Awaits ((p.tasksOn u g).2.2.interfaces .adb) := by
  obtain ⟨hsend, hawaits⟩ := h.sendTasksOn (u := u) hi
  have hi' : ((p.sendTasksOn u g).2.2.interfaces .adb).initialized = true := by
    obtain ⟨b, hs⟩ := p.sendTasksOn_frame u g
    rw [hs, AndroidDevice.interfaces_set]
    exact hi
  obtain ⟨hrecv, hawaits'⟩ := hawaits.recvTasksOn (u := u) hi'
  exact ⟨Call.allowed_append hsend hrecv, hawaits'⟩

end Driver

end Packet

end TPadFire.Adb
