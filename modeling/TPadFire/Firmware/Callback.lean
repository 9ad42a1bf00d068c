import TPadFire.Firmware.Device
import TPadFire.Foundations.Lts

/-!
# The handlers: `ADBCallback`, `handleTexture` and `Timer3ISR`

`adbCallback` handles one payload of the ADB channel. It is given the receive buffer of the packet
layer, of which only the first `dataLen` bytes belong to the payload, and it tells messages apart by
the first byte and by whether the payload has more than five bytes. A frequency message of value 0
divides by zero, so the handler's result is an `Outcome`: it returns or it traps, either way in some
device state. `timer3ISR` plays one sample; it has no result when it reads past its buffer.

`adbCallback_cases` says everything a handler that returns can have done and `timer3ISR_some` what a
firing does; later modules argue from these and do not unfold the handlers again.

`system` is the firmware between interrupts: payloads are received and handled, and the timer ticks
between two calls of the handler while its interrupt is enabled.
-/

namespace TPadFire.Firmware

/-- `ADB_PACKET_MAX_RECV_DATA_BYTES`. -/
abbrev adbPacketMaxRecvDataBytes : ℕ := 4096

instance : NeZero adbPacketMaxRecvDataBytes := ⟨by decide⟩

/-- `adb_packet_recv_data`, the receive buffer of the packet layer. -/
abbrev RecvBuffer := Block Byte adbPacketMaxRecvDataBytes

/-- The memory at `((BYTE*) data) + 1`. -/
abbrev RawData := Block Byte 4095

theorem maxBufferLength_le : maxBufferLength ≤ 4095 := by decide

/-- The pointer past the first byte of the receive buffer. -/
def rawData (data : RecvBuffer) : RawData := fun i => data i.succ

/-- A packet of data is received over what the buffer held. -/
def receive (p : List Byte) (rx : RecvBuffer) : RecvBuffer := rx.overlay p

theorem receive_zero (id : Byte) (rest : List Byte) (rx : RecvBuffer) :
    receive (id :: rest) rx 0 = id :=
  Block.overlay_of_lt (l := id :: rest) (i := (0 : Fin adbPacketMaxRecvDataBytes)) rx
    (Nat.succ_pos _)

/-- Behind a packet the buffer keeps what it held. -/
theorem receive_of_le {p : List Byte} (rx : RecvBuffer) {i : Fin adbPacketMaxRecvDataBytes}
    (h : p.length ≤ (i : ℕ)) : receive p rx i = rx i :=
  Block.overlay_of_le rx h

theorem rawData_receive {id : Byte} {rest : List Byte} {rx : RecvBuffer} {i : Fin 4095}
    (h : (i : ℕ) < rest.length) : rawData (receive (id :: rest) rx) i = rest[(i : ℕ)] :=
  Block.overlay_of_lt (l := id :: rest) (i := i.succ) rx (Nat.succ_lt_succ h)

theorem contents_rawData_receive {id : Byte} {rest : List Byte} {rx : RecvBuffer} {k : ℕ}
    (hrest : rest.length < adbPacketMaxRecvDataBytes) (hk : k ≤ rest.length) :
    (rawData (receive (id :: rest) rx)).contents k = rest.take k := by
  simp only [adbPacketMaxRecvDataBytes] at hrest
  apply List.ext_getElem (by simp only [Block.length_contents, List.length_take]; omega)
  intro i hi hi'
  rw [List.length_take] at hi'
  have hlt : i < rest.length := by omega
  rw [Block.getElem_contents _ _ hi (by omega), List.getElem_take, rawData_receive hlt]

/-- The samples of a texture message: what follows the identifier, 1000 bytes at most. -/
def samples (rest : List Byte) : List Byte := rest.take maxBufferLength

theorem length_samples (rest : List Byte) :
    (samples rest).length = min rest.length maxBufferLength := by
  rw [samples, List.length_take, min_comm]

theorem contents_samples {id : Byte} {rest : List Byte} {rx : RecvBuffer}
    (hrest : rest.length < adbPacketMaxRecvDataBytes) :
    (rawData (receive (id :: rest) rx)).contents (min rest.length maxBufferLength) =
      samples rest := by
  rw [contents_rawData_receive hrest (by omega), samples, min_comm, ← List.take_eq_take_min]

/-! ## The texture buffer -/

/-- The length that is stored for a texture of `rawLength` bytes. -/
def loadLength (rawLength : ℕ) : ℤ :=
  if rawLength < maxBufferLength + 1 then rawLength else maxBufferLength

/-- A branch of `handleTexture`: fill the half `s` and switch to it. -/
def loadTexture (s : Slot) (raw : RawData) (rawLength : ℕ) (d : Device) : Device :=
  let length := loadLength rawLength
  { d with tBuff :=
    { d.tBuff with
      length := Function.update d.tBuff.length s length
      buff := Function.update d.tBuff.buff s
        (Block.memmove maxBufferLength_le (d.tBuff.buff s) raw length.toNat)
      index := 0
      front := s.byte } }

/-- The end of `handleTexture`: start the timer unless playback is on. -/
def startPlayback (d : Device) : Device :=
  if d.tBuff.on = 0 then resumeTimer3 { d with tBuff := { d.tBuff with on := 1 } } else d

/-- `handleTexture`. -/
def handleTexture (raw : RawData) (rawLength : ℕ) (d : Device) : Device :=
  startPlayback <|
    if d.tBuff.front = 1 then loadTexture .buff0 raw rawLength d
    else if d.tBuff.front = 0 then loadTexture .buff1 raw rawLength d
    else d

/-! ## The callback -/

/-- How a handler ends. -/
inductive Outcome
  | returned (d : Device)
  /-- The processor took the exception of an integer division by zero. -/
  | trapped (d : Device)

/-- The device when the handler ends. -/
def Outcome.device : Outcome → Device
  | returned d => d
  | trapped d => d

/-- `intFromBytes`: four bytes, the lowest first, as a 32-bit `int`. -/
def intFromBytes (p : RawData) : ℤ :=
  signed 32 ((p 0).toNat + 2 ^ 8 * (p 1).toNat + 2 ^ 16 * (p 2).toNat + 2 ^ 24 * (p 3).toNat)

/-- The branch `COMMAND_FREQ` of `ADBCallback`. -/
def handleFreq (data : RecvBuffer) (d : Device) : Outcome :=
  let d := { d with incoming := intFromBytes (rawData data) }
  if d.incoming = 0 then .trapped d
  else .returned { d with pr2 := storePeriod (sysFreq.tdiv d.incoming - 1), tmr2 := 0 }

/-- The branch `COMMAND_MAG` of `ADBCallback`. -/
def handleMag (data : RecvBuffer) (d : Device) : Device :=
  let d := { d with tpadMag := (data 1).toNat }
  let d := pwmSetDC (d.tpadMag / 255 * 50) d
  let d := pauseTimer3 d
  { d with tBuff := { d.tBuff with on := 0 } }

/-- `ADBCallback`, called with the receive buffer and the length of the payload. -/
def adbCallback (data : RecvBuffer) (dataLen : ℕ) (d : Device) : Outcome :=
  if dataLen < 1 then .returned d
  else if dataLen > 5 then
    if data 0 = commandText then .returned (handleTexture (rawData data) (dataLen - 1) d)
    else .returned d
  else if data 0 = commandFreq then handleFreq data d
  else if data 0 = commandMag then .returned (handleMag data d)
  else if data 0 = commandAlive then .returned (writeCoreTimer 0 d)
  else .returned d

/-! ## The service routine -/

/-- What a firing of `Timer3ISR` reads: the half, the index and the sample there. -/
structure Read where
  slot : Slot
  index : ℤ
  value : Byte
  deriving DecidableEq, Repr

/-- The sample of a half at `Index`, if the index is in range. -/
def TextureBuff.sample? (t : TextureBuff) (s : Slot) : Option Byte := (t.buff s).cell? t.index

/-- The index after `index`, in a half of the given length. -/
def stepIndex (length index : ℤ) : ℤ := if index + 1 > length - 1 then 0 else index + 1

/-- The index after playing a sample of the half `s`. -/
def TextureBuff.nextIndex (t : TextureBuff) (s : Slot) : ℤ := stepIndex (t.length s) t.index

/-- A branch of `Timer3ISR`: play a sample of the half `s` and step the index. -/
def playSample (s : Slot) (d : Device) : Option (Read × Device) :=
  (d.tBuff.sample? s).map fun b =>
    (⟨s, d.tBuff.index, b⟩,
      { pwmSetDC (levelDuty b) d with tBuff := { d.tBuff with index := d.tBuff.nextIndex s } })

/-- `Timer3ISR`, with what it reads; there is no result when the read is out of range. -/
def timer3ISR (d : Device) : Option (Option Read × Device) :=
  if d.tBuff.front = 1 then
    (playSample .buff1 d).map fun r => (some r.1, { r.2 with t3if := false })
  else if d.tBuff.front = 0 then
    (playSample .buff0 d).map fun r => (some r.1, { r.2 with t3if := false })
  else some (none, { d with t3if := false })

/-! ## What the handlers do -/

theorem loadLength_eq (n : ℕ) : loadLength n = min n maxBufferLength := by
  simp only [loadLength, maxBufferLength]
  split_ifs <;> omega

theorem handleTexture_of_front {d : Device} {s : Slot} (h : d.tBuff.front = s.other.byte)
    (raw : RawData) (n : ℕ) : handleTexture raw n d = startPlayback (loadTexture s raw n d) := by
  cases s
  · have h1 : d.tBuff.front = 1 := h
    simp only [handleTexture, h1, if_true]
  · have h0 : d.tBuff.front = 0 := h
    simp only [handleTexture, h0, if_true, show ¬ (0 : Byte) = 1 by decide, if_false]

/-- `handleTexture` fills the half that is not in front. -/
theorem handleTexture_other {d : Device} {s : Slot} (h : d.tBuff.front = s.byte)
    (raw : RawData) (n : ℕ) :
    handleTexture raw n d = startPlayback (loadTexture s.other raw n d) := by
  refine handleTexture_of_front ?_ raw n
  rw [h]
  cases s <;> rfl

/-- `handleTexture` changes nothing but the texture buffer and Timer3. -/
theorem handleTexture_frame (raw : RawData) (n : ℕ) (d : Device) :
    ∃ t m e, handleTexture raw n d = { d with tBuff := t, tmr3 := m, t3ie := e } := by
  rw [handleTexture, startPlayback]
  simp only [loadTexture, resumeTimer3]
  split_ifs <;> exact ⟨_, _, _, rfl⟩

/-- The device after a magnitude message with the level `b`. -/
theorem handleMag_eq (data : RecvBuffer) (d : Device) :
    handleMag data d =
      { d with
        tpadMag := (data 1).toNat
        oc3rs := dutyCount (d.pr2 + 1) (levelDuty (data 1))
        t3ie := false
        tBuff := { d.tBuff with on := 0 } } := by
  simp [handleMag, pwmSetDC, pauseTimer3, levelDuty]

/-! ### The branches of the callback -/

section Branches

variable {data : RecvBuffer} {n : ℕ} {d : Device}

theorem adbCallback_text (hn : n > 5) (h : data 0 = commandText) :
    adbCallback data n d = .returned (handleTexture (rawData data) (n - 1) d) := by
  simp only [adbCallback, show ¬ n < 1 by omega, hn, h, if_false, if_true]

theorem adbCallback_freq (h1 : 1 ≤ n) (h5 : n ≤ 5) (h : data 0 = commandFreq) :
    adbCallback data n d = handleFreq data d := by
  simp only [adbCallback, show ¬ n < 1 by omega, show ¬ n > 5 by omega, h, if_false, if_true]

theorem adbCallback_mag (h1 : 1 ≤ n) (h5 : n ≤ 5) (h : data 0 = commandMag) :
    adbCallback data n d = .returned (handleMag data d) := by
  simp only [adbCallback, show ¬ n < 1 by omega, show ¬ n > 5 by omega, h, if_false, if_true,
    show commandMag ≠ commandFreq by decide]

theorem adbCallback_alive (h1 : 1 ≤ n) (h5 : n ≤ 5) (h : data 0 = commandAlive) :
    adbCallback data n d = .returned (writeCoreTimer 0 d) := by
  simp only [adbCallback, show ¬ n < 1 by omega, show ¬ n > 5 by omega, h, if_false, if_true,
    show commandAlive ≠ commandFreq by decide, show commandAlive ≠ commandMag by decide]

theorem adbCallback_ignored (h : ¬ (n > 5 ∧ data 0 = commandText))
    (h' : ¬ (1 ≤ n ∧ n ≤ 5 ∧
      (data 0 = commandFreq ∨ data 0 = commandMag ∨ data 0 = commandAlive))) :
    adbCallback data n d = .returned d := by
  rw [adbCallback]
  split_ifs with h1 h2 h3 h4 h5 h6
  · rfl
  · exact absurd ⟨h2, h3⟩ h
  · rfl
  · exact absurd ⟨by omega, by omega, .inl h4⟩ h'
  · exact absurd ⟨by omega, by omega, .inr (.inl h5)⟩ h'
  · exact absurd ⟨by omega, by omega, .inr (.inr h6)⟩ h'
  · rfl

/-- A frequency message of value 0 divides by it. -/
theorem handleFreq_trapped (h : intFromBytes (rawData data) = 0) :
    handleFreq data d = .trapped { d with incoming := 0 } := by
  simp only [handleFreq, h, if_true]

theorem handleFreq_returned {z : ℤ} (h : intFromBytes (rawData data) = z) (hz : z ≠ 0) :
    handleFreq data d =
      .returned { d with incoming := z, pr2 := storePeriod (sysFreq.tdiv z - 1), tmr2 := 0 } := by
  simp only [handleFreq, h, hz, if_false]

/-- Only a frequency message can trap. -/
theorem adbCallback_returns (h : ¬ (1 ≤ n ∧ n ≤ 5 ∧ data 0 = commandFreq)) :
    ∃ d', adbCallback data n d = .returned d' := by
  rw [adbCallback]
  split_ifs with h1 h2 h3 h4 h5 h6
  · exact ⟨_, rfl⟩
  · exact ⟨_, rfl⟩
  · exact ⟨_, rfl⟩
  · exact absurd ⟨by omega, by omega, h4⟩ h
  · exact ⟨_, rfl⟩
  · exact ⟨_, rfl⟩
  · exact ⟨_, rfl⟩

/-- A frequency message leaves playback, the PWM count and the core timer alone. -/
theorem handleFreq_frame (data : RecvBuffer) (d : Device) :
    (handleFreq data d).device.tBuff = d.tBuff ∧ (handleFreq data d).device.oc3rs = d.oc3rs ∧
      (handleFreq data d).device.t3ie = d.t3ie ∧
      (handleFreq data d).device.coreTimer = d.coreTimer := by
  obtain ⟨z, hz⟩ : ∃ z, intFromBytes (rawData data) = z := ⟨_, rfl⟩
  by_cases h : z = 0
  · rw [handleFreq_trapped (hz.trans h)]
    exact ⟨rfl, rfl, rfl, rfl⟩
  · rw [handleFreq_returned hz h]
    exact ⟨rfl, rfl, rfl, rfl⟩

/-- A frequency message stores its value, also when it traps. -/
theorem handleFreq_incoming (data : RecvBuffer) (d : Device) :
    (handleFreq data d).device.incoming = intFromBytes (rawData data) := by
  obtain ⟨z, hz⟩ : ∃ z, intFromBytes (rawData data) = z := ⟨_, rfl⟩
  by_cases h : z = 0
  · rw [handleFreq_trapped (hz.trans h), hz, h]
    rfl
  · rw [handleFreq_returned hz h, hz]
    rfl

end Branches

/-- **Everything a returning callback can have done.** -/
theorem adbCallback_cases {data : RecvBuffer} {n : ℕ} {d d' : Device}
    (h : adbCallback data n d = .returned d') :
    (n > 5 ∧ data 0 = commandText ∧ d' = handleTexture (rawData data) (n - 1) d) ∨
    (1 ≤ n ∧ n ≤ 5 ∧ data 0 = commandFreq ∧ ∃ z, intFromBytes (rawData data) = z ∧ z ≠ 0 ∧
      d' = { d with incoming := z, pr2 := storePeriod (sysFreq.tdiv z - 1), tmr2 := 0 }) ∨
    (1 ≤ n ∧ n ≤ 5 ∧ data 0 = commandMag ∧ d' = handleMag data d) ∨
    (1 ≤ n ∧ n ≤ 5 ∧ data 0 = commandAlive ∧ d' = writeCoreTimer 0 d) ∨
    (¬ (n > 5 ∧ data 0 = commandText) ∧
      ¬ (1 ≤ n ∧ n ≤ 5 ∧ (data 0 = commandFreq ∨ data 0 = commandMag ∨ data 0 = commandAlive)) ∧
      d' = d) := by
  rw [adbCallback] at h
  split_ifs at h with h1 h2 h3 h4 h5 h6
  · exact .inr (.inr (.inr (.inr ⟨by omega, by omega, (Outcome.returned.inj h).symm⟩)))
  · exact .inl ⟨h2, h3, (Outcome.returned.inj h).symm⟩
  · refine .inr (.inr (.inr (.inr ⟨fun ht => h3 ht.2, by omega, (Outcome.returned.inj h).symm⟩)))
  · rw [handleFreq] at h
    dsimp only at h
    split_ifs at h with h0
    exact .inr (.inl ⟨by omega, by omega, h4, _, rfl, h0, (Outcome.returned.inj h).symm⟩)
  · exact .inr (.inr (.inl ⟨by omega, by omega, h5, (Outcome.returned.inj h).symm⟩))
  · exact .inr (.inr (.inr (.inl ⟨by omega, by omega, h6, (Outcome.returned.inj h).symm⟩)))
  · exact .inr (.inr (.inr (.inr ⟨by omega, fun hs => by simp_all, (Outcome.returned.inj h).symm⟩)))

/-! ### What a returning callback leaves alone -/

section Parts

variable {data : RecvBuffer} {n : ℕ} {d d' : Device}

/-- The texture buffer is filled by a texture message; no other message changes more of it than
`On`, which it clears if anything. -/
theorem adbCallback_tBuff (h : adbCallback data n d = .returned d') :
    (n > 5 ∧ data 0 = commandText ∧ d' = handleTexture (rawData data) (n - 1) d) ∨
      ∃ v, (v = d.tBuff.on ∨ v = 0) ∧ d'.tBuff = { d.tBuff with on := v } := by
  rcases adbCallback_cases h with htext | ⟨-, -, -, z, -, -, rfl⟩ | ⟨-, -, -, rfl⟩ |
    ⟨-, -, -, rfl⟩ | ⟨-, -, rfl⟩
  · exact .inl htext
  · exact .inr ⟨d.tBuff.on, .inl rfl, rfl⟩
  · rw [handleMag_eq]
    exact .inr ⟨0, .inr rfl, rfl⟩
  · exact .inr ⟨d.tBuff.on, .inl rfl, rfl⟩
  · exact .inr ⟨_, .inl rfl, rfl⟩

/-- What becomes of the registers that more than one message could change. -/
theorem adbCallback_registers (h : adbCallback data n d = .returned d') :
    (d'.pr2 = d.pr2 ∨ (1 ≤ n ∧ n ≤ 5 ∧ data 0 = commandFreq ∧
      d'.pr2 = storePeriod (sysFreq.tdiv (intFromBytes (rawData data)) - 1))) ∧
    (d'.oc3rs = d.oc3rs ∨ d'.oc3rs = dutyCount (d.pr2 + 1) (levelDuty (data 1))) ∧
    (d'.coreTimer = d.coreTimer ∨ d'.coreTimer = 0) := by
  rcases adbCallback_cases h with ⟨-, -, rfl⟩ | ⟨h1, h5, hid, z, hz, -, rfl⟩ | ⟨-, -, -, rfl⟩ |
    ⟨-, -, -, rfl⟩ | ⟨-, -, rfl⟩
  · obtain ⟨t, m, e, ht⟩ := handleTexture_frame (rawData data) (n - 1) d
    rw [ht]
    exact ⟨.inl rfl, .inl rfl, .inl rfl⟩
  · exact ⟨.inr ⟨h1, h5, hid, by rw [hz]⟩, .inl rfl, .inl rfl⟩
  · rw [handleMag_eq]
    exact ⟨.inl rfl, .inr rfl, .inl rfl⟩
  · exact ⟨.inl rfl, .inl rfl, .inr rfl⟩
  · exact ⟨.inl rfl, .inl rfl, .inl rfl⟩

/-- The PWM period is set by a frequency message alone. -/
theorem adbCallback_pr2 (h : adbCallback data n d = .returned d') :
    d'.pr2 = d.pr2 ∨ (1 ≤ n ∧ n ≤ 5 ∧ data 0 = commandFreq ∧
      d'.pr2 = storePeriod (sysFreq.tdiv (intFromBytes (rawData data)) - 1)) :=
  (adbCallback_registers h).1

/-- The PWM count is set by a magnitude message alone. -/
theorem adbCallback_oc3rs (h : adbCallback data n d = .returned d') :
    d'.oc3rs = d.oc3rs ∨ d'.oc3rs = dutyCount (d.pr2 + 1) (levelDuty (data 1)) :=
  (adbCallback_registers h).2.1

/-- The core timer is left alone or reset. -/
theorem adbCallback_coreTimer (h : adbCallback data n d = .returned d') :
    d'.coreTimer = d.coreTimer ∨ d'.coreTimer = 0 :=
  (adbCallback_registers h).2.2

end Parts

/-! ### Payloads by what they begin with -/

section Payloads

variable {d : Device} {rx : RecvBuffer}

/-- A payload of at most five bytes that begins with a magnitude message. -/
theorem callback_mag (b : Byte) (rest : List Byte) (h : rest.length ≤ 3) :
    adbCallback (receive (commandMag :: b :: rest) rx) (commandMag :: b :: rest).length d =
      .returned { d with
        tpadMag := b.toNat
        oc3rs := dutyCount (d.pr2 + 1) (levelDuty b)
        t3ie := false
        tBuff := { d.tBuff with on := 0 } } := by
  have hb : receive (commandMag :: b :: rest) rx 1 = b :=
    Block.overlay_of_lt (l := commandMag :: b :: rest) (i := (1 : Fin adbPacketMaxRecvDataBytes)) rx
      (by simp)
  rw [adbCallback_mag (by simp) (by simp only [List.length_cons]; omega) (receive_zero _ _ _),
    handleMag_eq, hb]

/-- The first byte of a magnitude message alone: the level is what the buffer held behind it. -/
theorem callback_magByte (rx : RecvBuffer) (d : Device) :
    adbCallback (receive [commandMag] rx) [commandMag].length d =
      .returned { d with
        tpadMag := (rx 1).toNat
        oc3rs := dutyCount (d.pr2 + 1) (levelDuty (rx 1))
        t3ie := false
        tBuff := { d.tBuff with on := 0 } } := by
  have hlevel : receive [commandMag] rx 1 = rx 1 := receive_of_le rx (by simp)
  rw [adbCallback_mag (by simp) (by simp) (receive_zero _ _ _), handleMag_eq, hlevel]

/-- A frequency message. -/
theorem callback_freq {v : List Byte} (h : v.length = 4) :
    adbCallback (receive (commandFreq :: v) rx) (commandFreq :: v).length d =
      handleFreq (receive (commandFreq :: v) rx) d :=
  adbCallback_freq (by simp) (by rw [List.length_cons, h]) (receive_zero _ _ _)

/-- A payload of at most five bytes that begins with a keep-alive message. -/
theorem callback_alive (rest : List Byte) (h : rest.length ≤ 4) :
    adbCallback (receive (commandAlive :: rest) rx) (commandAlive :: rest).length d =
      .returned { d with coreTimer := 0 } :=
  adbCallback_alive (by simp) (by simp only [List.length_cons]; omega) (receive_zero _ _ _)

/-- A payload of more than five bytes that begins as a texture message. -/
theorem callback_text {body : List Byte} (h : 5 ≤ body.length) :
    adbCallback (receive (commandText :: body) rx) (commandText :: body).length d =
      .returned (handleTexture (rawData (receive (commandText :: body) rx)) body.length d) :=
  adbCallback_text (by simp only [List.length_cons]; omega) (receive_zero _ _ _)

/-- A payload of at most five bytes that begins as a texture message is dropped. -/
theorem callback_short {body : List Byte} (h : body.length < 5) :
    adbCallback (receive (commandText :: body) rx) (commandText :: body).length d =
      .returned d := by
  refine adbCallback_ignored (by simp only [List.length_cons]; omega) ?_
  rw [receive_zero]
  exact fun hc => absurd hc.2.2 (by decide)

/-- A payload of more than five bytes that begins as another message is dropped. -/
theorem callback_dropped {id : Byte} {rest : List Byte} (hid : id ≠ commandText)
    (h : 5 ≤ rest.length) :
    adbCallback (receive (id :: rest) rx) (id :: rest).length d = .returned d := by
  refine adbCallback_ignored ?_ ?_
  · rw [receive_zero]
    exact fun ht => hid ht.2
  · rw [List.length_cons]
    omega

end Payloads

/-! ### The firing -/

theorem stepIndex_natCast {k n : ℕ} (h : k < n) :
    stepIndex n k = ((k + 1) % n : ℕ) := by
  rw [succ_mod (by omega), Nat.mod_eq_of_lt h, stepIndex]
  split_ifs <;> omega

/-- The service routine plays a sample of the half that `Front` selects. -/
theorem timer3ISR_of_front {d : Device} {s : Slot} (h : d.tBuff.front = s.byte) :
    timer3ISR d = (playSample s d).map fun r => (some r.1, { r.2 with t3if := false }) := by
  cases s
  · have h0 : d.tBuff.front = 0 := h
    simp only [timer3ISR, h0, if_true, show ¬ (0 : Byte) = 1 by decide, if_false]
  · have h1 : d.tBuff.front = 1 := h
    simp only [timer3ISR, h1, if_true]

/-- **What a firing does**: it plays the sample at `Index` and steps the index. -/
theorem timer3ISR_some {d d' : Device} {s : Slot} {r : Option Read}
    (hf : d.tBuff.front = s.byte) (h : timer3ISR d = some (r, d')) :
    ∃ b, d.tBuff.sample? s = some b ∧ r = some ⟨s, d.tBuff.index, b⟩ ∧
      d' = { d with
        oc3rs := dutyCount (d.pr2 + 1) (levelDuty b)
        t3if := false
        tBuff := { d.tBuff with index := d.tBuff.nextIndex s } } := by
  rw [timer3ISR_of_front hf, playSample] at h
  simp only [Option.map_map, Option.map_eq_some_iff, Function.comp_apply, Prod.mk.injEq] at h
  obtain ⟨b, hb, rfl, rfl⟩ := h
  exact ⟨b, hb, rfl, rfl⟩

/-- A firing plays a sample, or `Front` selects no half and it only clears the flag. -/
theorem timer3ISR_cases {d d' : Device} {r : Option Read} (h : timer3ISR d = some (r, d')) :
    (∃ s : Slot, d.tBuff.front = s.byte) ∨ d' = { d with t3if := false } := by
  by_cases h1 : d.tBuff.front = 1
  · exact .inl ⟨.buff1, h1⟩
  · by_cases h0 : d.tBuff.front = 0
    · exact .inl ⟨.buff0, h0⟩
    · simp only [timer3ISR, h1, h0, if_false, Option.some.injEq, Prod.mk.injEq] at h
      exact .inr h.2.symm

/-- A firing changes the PWM count, the flag and `Index`, and nothing else. -/
theorem timer3ISR_frame {d d' : Device} {r : Option Read} (h : timer3ISR d = some (r, d')) :
    ∃ o k, d' = { d with oc3rs := o, t3if := false, tBuff := { d.tBuff with index := k } } := by
  rcases timer3ISR_cases h with ⟨s, hs⟩ | rfl
  · obtain ⟨b, -, -, rfl⟩ := timer3ISR_some hs h
    exact ⟨_, _, rfl⟩
  · exact ⟨d.oc3rs, d.tBuff.index, rfl⟩

theorem timer3ISR_of_sample {d : Device} {s : Slot} {b : Byte} (hf : d.tBuff.front = s.byte)
    (hb : d.tBuff.sample? s = some b) :
    timer3ISR d = some (some ⟨s, d.tBuff.index, b⟩,
      { d with
        oc3rs := dutyCount (d.pr2 + 1) (levelDuty b)
        t3if := false
        tBuff := { d.tBuff with index := d.tBuff.nextIndex s } }) := by
  rw [timer3ISR_of_front hf, playSample, hb]
  rfl

/-! ## The firmware between interrupts -/

/-- The device and the receive buffer. -/
structure Board where
  dev : Device
  rx : RecvBuffer

/-- The board when `main` enters its loop; the receive buffer is a zeroed global. -/
def bootBoard : Board := ⟨boot, fun _ => 0⟩

/-- What happens to the board: a payload arrives, or Timer3 ticks. -/
inductive Event
  | payload (p : List Byte)
  | tick
  deriving DecidableEq

/-- One event. A payload has at most the size of the receive buffer; the timer ticks between two
calls of the handler, while its interrupt is enabled. -/
inductive Board.Step : Board → Event → Board → Prop
  | payload {b : Board} {p : List Byte} {d : Device} (hp : p.length ≤ adbPacketMaxRecvDataBytes)
      (h : adbCallback (receive p b.rx) p.length b.dev = .returned d) :
      Step b (.payload p) ⟨d, receive p b.rx⟩
  | tick {b : Board} {r : Option Read} {d : Device} (he : b.dev.t3ie = true)
      (h : timer3ISR b.dev = some (r, d)) : Step b .tick ⟨d, b.rx⟩

/-- The firmware as a system of events. -/
def system : Lts Board Event := ⟨Board.Step⟩

@[simp] theorem system_step {b b' : Board} {e : Event} :
    system.step b e b' ↔ Board.Step b e b' := Iff.rfl

end TPadFire.Firmware
