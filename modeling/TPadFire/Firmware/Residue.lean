import TPadFire.Firmware.Callback

/-!
# What is left in the receive buffer

The receive buffer of the packet layer is static: a packet is written over its front, and behind it
the bytes of earlier packets remain. The short-message branch of `ADBCallback` is taken for every
length from 1 to 5, and its handlers read at fixed offsets. So a magnitude message of one byte takes
its level, and a frequency message of fewer than five bytes part of its value, from what is left.
These are the only payloads that do (`residue_iff`). A run without them does not depend on what the
buffer held when it began (`residue_run`).
-/

namespace TPadFire.Firmware

/-- Two contents of the receive buffer agree on the first `n` bytes. -/
def Agree (n : ℕ) (data data' : RecvBuffer) : Prop := ∀ i : Fin _, (i : ℕ) < n → data' i = data i

/-- The payload of `n` bytes is a message whose handler reads past it. -/
def ReadsResidue (n : ℕ) (data : RecvBuffer) : Prop :=
  (n = 1 ∧ data 0 = commandMag) ∨ (1 ≤ n ∧ n < 5 ∧ data 0 = commandFreq)

variable {n : ℕ} {data data' : RecvBuffer} {d : Device}

theorem ReadsResidue.congr (hr : ReadsResidue n data') (h : Agree n data data') :
    ReadsResidue n data := by
  have hpos : 0 < n := by
    rcases hr with ⟨h1, -⟩ | ⟨h1, -, -⟩ <;> omega
  have hid : data' 0 = data 0 := h 0 hpos
  rwa [ReadsResidue, hid] at hr

/-! ## The handlers read the payload alone -/

theorem loadTexture_agree {s : Slot} {raw raw' : RawData} {k : ℕ}
    (h : ∀ i : Fin _, (i : ℕ) < k → raw' i = raw i) :
    loadTexture s raw' k d = loadTexture s raw k d := by
  have hcopy : Block.memmove maxBufferLength_le (d.tBuff.buff s) raw' (loadLength k).toNat =
      Block.memmove maxBufferLength_le (d.tBuff.buff s) raw (loadLength k).toNat := by
    funext i
    simp only [Block.memmove, loadLength_eq]
    split_ifs with hi
    · exact h _ (by simp only [Fin.val_castLE]; omega)
    · rfl
  simp only [loadTexture, hcopy]

theorem handleTexture_agree (h : Agree n data data') :
    handleTexture (rawData data') (n - 1) d = handleTexture (rawData data) (n - 1) d := by
  have hraw (i : Fin 4095) (hi : (i : ℕ) < n - 1) : rawData data' i = rawData data i :=
    h i.succ (by simp only [Fin.val_succ]; omega)
  simp only [handleTexture, loadTexture_agree hraw]

theorem intFromBytes_agree (h : Agree 5 data data') :
    intFromBytes (rawData data') = intFromBytes (rawData data) := by
  have hraw (i : Fin 4095) (hi : (i : ℕ) < 4) : rawData data' i = rawData data i :=
    h i.succ (by simp only [Fin.val_succ]; omega)
  simp only [intFromBytes, hraw 0 (by decide), hraw 1 (by decide), hraw 2 (by decide),
    hraw 3 (by decide)]

/-- A payload that no handler reads past decides what the callback does. -/
theorem adbCallback_agree (hr : ¬ ReadsResidue n data) (h : Agree n data data') :
    adbCallback data' n d = adbCallback data n d := by
  obtain rfl | hn := Nat.eq_zero_or_pos n
  · rfl
  have hid : data' 0 = data 0 := h 0 hn
  simp only [adbCallback, hid, handleTexture_agree h]
  split_ifs with h1 h2 h3 h4 h5 h6
  · rfl
  · rfl
  · rfl
  · have h5n : n = 5 := by
      by_contra hne
      exact hr (.inr ⟨by omega, by omega, h4⟩)
    subst h5n
    simp only [handleFreq, intFromBytes_agree h]
  · have h2n : 2 ≤ n := by
      by_contra hlt
      exact hr (.inl ⟨by omega, h5⟩)
    have hlevel : data' 1 = data 1 := h 1 h2n
    simp only [handleMag, hlevel]
  · rfl
  · rfl

/-! ## The handlers that read past it -/

/-- The highest byte of an integer is determined by it. -/
theorem highByte_of_intFromBytes {p p' : RawData} (h : intFromBytes p' = intFromBytes p) :
    p' 3 = p 3 := by
  have hmod : intFromBytes p' % (2 ^ 32 : ℕ) = intFromBytes p % (2 ^ 32 : ℕ) := by rw [h]
  simp only [intFromBytes, signed, Int.bmod_emod] at hmod
  have hlt (q : RawData) (i : Fin 4095) : (q i).toNat < 256 := (q i).toNat_lt
  have h0 := hlt p 0
  have h1 := hlt p 1
  have h2 := hlt p 2
  have h3 := hlt p 3
  have h0' := hlt p' 0
  have h1' := hlt p' 1
  have h2' := hlt p' 2
  have h3' := hlt p' 3
  refine UInt8.toNat_inj.1 ?_
  omega

/-- With the byte behind a one-byte magnitude message, its level changes. -/
theorem adbCallback_mag_residue (h : data 0 = commandMag) {b : Byte} (hb : b ≠ data 1) :
    adbCallback (Function.update data 1 b) 1 d ≠ adbCallback data 1 d := by
  have h' : Function.update data 1 b 0 = commandMag := h
  rw [adbCallback_mag (by omega) (by omega) h, adbCallback_mag (by omega) (by omega) h']
  intro heq
  have hmag := congrArg Device.tpadMag (Outcome.returned.inj heq)
  simp only [handleMag_eq, Function.update_self] at hmag
  exact hb (UInt8.toNat_inj.1 (by exact_mod_cast hmag))

/-- With the last of the five bytes that a frequency message reads, its value changes. -/
theorem adbCallback_freq_residue (h1 : 1 ≤ n) (h5 : n < 5) (h : data 0 = commandFreq) {b : Byte}
    (hb : b ≠ data 4) : adbCallback (Function.update data 4 b) n d ≠ adbCallback data n d := by
  have h' : Function.update data 4 b 0 = commandFreq := h
  rw [adbCallback_freq h1 (by omega) h, adbCallback_freq h1 (by omega) h']
  intro heq
  have hvalue : (handleFreq (Function.update data 4 b) d).device.incoming =
      (handleFreq data d).device.incoming := by rw [heq]
  rw [handleFreq_incoming, handleFreq_incoming] at hvalue
  have hindex : (3 : Fin 4095).succ = 4 := by decide
  have htop := highByte_of_intFromBytes hvalue
  rw [rawData, rawData, hindex, Function.update_self] at htop
  exact hb htop

/-! ## The residue -/

theorem exists_byte_ne (b : Byte) : ∃ b', b' ≠ b :=
  have : Nontrivial Byte := ⟨0, 1, by decide⟩
  exists_ne b

/-- **Which payloads depend on what is left behind them.** The callback does the same for every
content of the receive buffer that has the `n` bytes of the payload, unless the payload is a
magnitude message of one byte or a frequency message of fewer than five. -/
theorem residue_iff (n : ℕ) (data : RecvBuffer) (d : Device) :
    (∀ data', Agree n data data' → adbCallback data' n d = adbCallback data n d) ↔
      ¬ ReadsResidue n data := by
  constructor
  · intro h hr
    -- another byte where the handler reads past the payload
    rcases hr with ⟨rfl, hid⟩ | ⟨h1, h5, hid⟩
    · obtain ⟨b, hb⟩ := exists_byte_ne (data 1)
      apply adbCallback_mag_residue hid hb
      apply h
      intro i hi
      apply Function.update_of_ne
      rintro rfl
      exact absurd hi (by decide)
    · obtain ⟨b, hb⟩ := exists_byte_ne (data 4)
      apply adbCallback_freq_residue h1 h5 hid hb
      apply h
      intro i hi
      apply Function.update_of_ne
      rintro rfl
      have h4 : ((4 : Fin adbPacketMaxRecvDataBytes) : ℕ) = 4 := rfl
      omega
  · intro hr data' h
    exact adbCallback_agree hr h

/-- The payload of an event does not depend on what is left behind it. -/
def SelfContained (b : Board) : Event → Prop
  | .payload p => ¬ ReadsResidue p.length (receive p b.rx)
  | .tick => True

theorem agree_receive (p : List Byte) (rx rx' : RecvBuffer) :
    Agree p.length (receive p rx) (receive p rx') := fun i hi => by
  rw [receive, receive, Block.overlay_of_lt rx hi, Block.overlay_of_lt rx' hi]

/-- The device alone decides the device after an event. -/
theorem selfContained_simulation :
    Lts.Simulation (system.restrict SelfContained) (system.restrict SelfContained)
      fun b b' => b.dev = b'.dev := by
  rintro b b' e b₁ hdev ⟨h, hself⟩
  cases h with
  | @payload p d hlen h =>
    have hsame := agree_receive p b.rx b'.rx
    have hcall := adbCallback_agree (d := b.dev) hself hsame
    exact ⟨_, ⟨.payload hlen (by rw [← hdev, hcall, h]), fun hr => hself (hr.congr hsame)⟩, rfl⟩
  | @tick r d he h => exact ⟨_, ⟨.tick (hdev ▸ he) (hdev ▸ h), trivial⟩, rfl⟩

/-- **What the buffer held at the start of a run does not matter** when every payload of the run is
self-contained. -/
theorem residue_run {rx rx' : RecvBuffer} {es : List Event} {b : Board}
    (h : (system.restrict SelfContained).Run ⟨d, rx⟩ es b) :
    ∃ b', (system.restrict SelfContained).Run ⟨d, rx'⟩ es b' ∧ b.dev = b'.dev :=
  selfContained_simulation.run h rfl

/-- A magnitude message of one byte, on a clean buffer and after a message of full level. -/
theorem residue_mag :
    ∃ data data', Agree 1 data data' ∧ (adbCallback data 1 boot).device.oc3rs = 10 ∧
      (adbCallback data' 1 boot).device.oc3rs = 596 := by
  refine ⟨receive [commandMag] (fun _ => 0), receive [commandMag] (receive [commandMag, 0xff]
    fun _ => 0), fun i hi => ?_, ?_, ?_⟩
  · obtain rfl : i = 0 := Fin.ext (by simpa using hi)
    rfl
  · rw [adbCallback_mag (by decide) (by decide) (by decide), Outcome.device, handleMag_eq]
    simp only [boot_pr2, dutyCount_level]
    decide
  · rw [adbCallback_mag (by decide) (by decide) (by decide), Outcome.device, handleMag_eq]
    simp only [boot_pr2, dutyCount_level]
    decide

end TPadFire.Firmware
