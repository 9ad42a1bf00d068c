import TPadFire.Firmware.Player
import TPadFire.Host.TPad

/-!
# From the host's calls to the firmware's effects

A message of `TPad` that arrives as one payload is decoded by `ADBCallback`, which tells messages
apart by their first byte and by whether they have more than five bytes. A texture of fewer than
five samples makes a payload of at most five bytes, for which there is no texture command, and is
dropped. `roundTrip_iff` says that this is the only loss: in every state that the firmware can
reach, a message has the effect it means exactly when it is not such a texture.
-/

namespace TPadFire.Host

open Firmware

/-- The arguments of a call are in range. -/
def Message.InRange : Message → Prop
  | .mag f => 0 ≤ f ∧ f ≤ 1
  | .freq n => -2 ^ 31 ≤ n ∧ n < 2 ^ 31
  | .keepAlive => True
  | .texture l => 1 ≤ l.length ∧ l.length ≤ 1000 ∧ ∀ f ∈ l, 0 ≤ f ∧ f ≤ 1
  | .wave _ f amp => 0 < f ∧ f ≤ 10000 ∧ 0 ≤ amp ∧ amp ≤ 1

/-- The texture, if it is one, has at least five samples. -/
def Message.LongEnough : Message → Prop
  | .texture l => 5 ≤ l.length
  | .wave _ f _ => f ≤ 2000
  | _ => True

/-- Playback of `l` has been started from its first sample, and nothing else has changed. -/
def Started (l : List Byte) (d d' : Device) : Prop :=
  Plays d' l 0 ∧ d'.oc3rs = d.oc3rs ∧ d'.pr2 = d.pr2 ∧ d'.incoming = d.incoming ∧
    d'.tpadMag = d.tpadMag ∧ d'.coreTimer = d.coreTimer

/-- The effect that a message means: `o` is how the handler ends when it begins in `d`. -/
def Message.Meant (rt : Runtime) (d : Device) (o : Outcome) : Message → Prop
  | .mag f => o = .returned { d with
      tpadMag := level f
      oc3rs := dutyCount (d.pr2 + 1) ((level f : ℚ) / 255 * 50)
      t3ie := false
      tBuff := { d.tBuff with on := 0 } }
  | .freq n => o.device.incoming = n ∧ o.device.tBuff = d.tBuff ∧ o.device.oc3rs = d.oc3rs ∧
      o.device.t3ie = d.t3ie ∧ o.device.coreTimer = d.coreTimer
  | .keepAlive => o = .returned { d with coreTimer := 0 }
  | .texture l => ∃ d', o = .returned d' ∧ Started (l.map fun f => UInt8.ofNat (level f)) d d'
  | .wave type f amp => ∃ d', o = .returned d' ∧ Started (waveBody rt type f amp) d d'

/-! ## States between two payloads -/

/-- What holds of the texture buffer between two payloads: a half in front, playback on exactly
while the interrupt is enabled, and no texture of fewer than five samples. -/
structure Settled (d : Device) : Prop where
  front : ∃ s : Slot, d.tBuff.front = s.byte
  on : (d.tBuff.on = 0 ∧ d.t3ie = false) ∨ (d.tBuff.on = 1 ∧ d.t3ie = true)
  length : ∀ s, d.tBuff.length s = 0 ∨ 5 ≤ d.tBuff.length s

theorem settled_boot : Settled boot := ⟨⟨.buff0, rfl⟩, .inl ⟨rfl, rfl⟩, fun _ => .inl rfl⟩

theorem Settled.congr {d d' : Device} (h : Settled d) (ht : d'.tBuff = d.tBuff)
    (he : d'.t3ie = d.t3ie) : Settled d' :=
  ⟨by rw [ht]; exact h.front, by rw [ht, he]; exact h.on, by rw [ht]; exact h.length⟩

/-- Starting a texture settles again. -/
theorem Settled.texture {d : Device} (h : Settled d) (raw : RawData) {n : ℕ} (hn : 5 ≤ n) :
    Settled (handleTexture raw n d) := by
  obtain ⟨s, hs⟩ := h.front
  obtain ⟨hon, hie, -, s', hs', -⟩ :=
    handleTexture_plays hs (h.on.imp And.left id) raw n
  refine ⟨⟨s', hs'⟩, .inr ⟨hon, hie⟩, fun s₁ => ?_⟩
  have hlength : (handleTexture raw n d).tBuff.length =
      Function.update d.tBuff.length s.other (loadLength n) := by
    rw [handleTexture_other hs, startPlayback]
    split_ifs <;> rfl
  rw [hlength]
  by_cases hs₁ : s₁ = s.other
  · rw [hs₁, Function.update_self, loadLength_eq, maxBufferLength]
    omega
  · rw [Function.update_of_ne hs₁]
    exact h.length s₁

theorem settled_step {b b' : Board} {e : Event} (hb : Settled b.dev) (h : system.step b e b') :
    Settled b'.dev := by
  cases h with
  | payload hp h =>
    rcases adbCallback_cases h with ⟨h5, -, rfl⟩ | ⟨-, -, -, z, -, -, rfl⟩ | ⟨-, -, -, rfl⟩ |
      ⟨-, -, -, rfl⟩ | ⟨-, -, rfl⟩
    · exact hb.texture _ (by omega)
    · exact hb.congr rfl rfl
    · rw [handleMag_eq]
      exact ⟨hb.front, .inl ⟨rfl, rfl⟩, hb.length⟩
    · exact hb.congr rfl rfl
    · exact hb
  | tick he h =>
    obtain ⟨o, k, rfl⟩ := timer3ISR_frame h
    exact ⟨hb.front, hb.on, hb.length⟩

theorem settled_run {b : Board} {es : List Event} (h : system.Run bootBoard es b) :
    Settled b.dev :=
  h.invariant (I := fun b => Settled b.dev) (fun _ _ _ => settled_step) settled_boot

/-! ## The messages one by one -/

variable {rt : Runtime} {d : Device} {rx : RecvBuffer}

/-- The bytes of an integer stand for it. -/
theorem valueOf_intToBytes {n : ℤ} (h : -2 ^ 31 ≤ n) (h' : n < 2 ^ 31) :
    Player.valueOf (intToBytes n) = n := by
  have hbyte (z : ℤ) : (intToByte z).toNat = lowBits 8 z := by
    rw [intToByte, UInt8.toNat_ofNat_of_lt' (lowBits_lt 8 z)]
  have hdigits : Nat.ofDigits 256 ((intToBytes n).map UInt8.toNat) = lowBits 32 n := by
    simp only [intToBytes, List.map_cons, List.map_nil, Nat.ofDigits_cons, Nat.ofDigits_nil, hbyte,
      lowBits]
    omega
  rw [Player.valueOf, hdigits, signed_lowBits, signed_of_mem h h']

theorem mag_meant {f : ℚ} (h0 : 0 ≤ f) (h1 : f ≤ 1) :
    ∃ p, encode rt (.mag f) = some p ∧
      (Message.mag f).Meant rt d (adbCallback (receive p rx) p.length d) := by
  refine ⟨_, generateMag_eq h0 h1, ?_⟩
  rw [callback_mag _ [] (Nat.zero_le 3), levelDuty, toNat_level h1]
  rfl

theorem freq_meant {n : ℤ} (h : -2 ^ 31 ≤ n) (h' : n < 2 ^ 31) :
    ∃ p, encode rt (.freq n) = some p ∧
      (Message.freq n).Meant rt d (adbCallback (receive p rx) p.length d) := by
  refine ⟨_, rfl, ?_⟩
  have hvalue : intFromBytes (rawData (receive (commandFreq :: intToBytes n) rx)) = n := by
    rw [intFromBytes_receive _ _ rfl, valueOf_intToBytes h h']
  rw [show freqCommand ++ intToBytes n = commandFreq :: intToBytes n from rfl, callback_freq rfl]
  exact ⟨(handleFreq_incoming _ _).trans hvalue, handleFreq_frame _ _⟩

theorem keepAlive_meant :
    ∃ p, encode rt .keepAlive = some p ∧
      Message.keepAlive.Meant rt d (adbCallback (receive p rx) p.length d) :=
  ⟨_, rfl, callback_alive [] (Nat.zero_le 4)⟩

/-- **A texture starts exactly when it has at least five samples.** -/
theorem started_iff (rx : RecvBuffer) (body : List Byte) (hd : Settled d) (h1 : 1 ≤ body.length)
    (hmax : body.length ≤ 1000) :
    (∃ d', adbCallback (receive (commandText :: body) rx) (commandText :: body).length d =
        .returned d' ∧ Started body d d') ↔ 5 ≤ body.length := by
  constructor
  · rintro ⟨d', hcall, hstart⟩
    by_contra hlt
    obtain rfl := Outcome.returned.inj (hcall.symm.trans (callback_short (by omega)))
    obtain ⟨-, -, -, s, -, hs⟩ := hstart.1
    have hlength := hd.length s
    rw [hs.length] at hlength
    omega
  · intro h5
    obtain ⟨s, hs⟩ := hd.front
    have hplays := handleTexture_plays hs (hd.on.imp And.left id)
      (rawData (receive (commandText :: body) rx)) body.length
    have hall : samples body = body := List.take_of_length_le hmax
    rw [contents_samples (by simp only [adbPacketMaxRecvDataBytes]; omega), hall] at hplays
    obtain ⟨t, m, e, hframe⟩ :=
      handleTexture_frame (rawData (receive (commandText :: body) rx)) body.length d
    refine ⟨_, callback_text h5, hplays, ?_⟩
    rw [hframe]
    exact ⟨rfl, rfl, rfl, rfl, rfl⟩

/-! ## The round trip -/

/-- **Which messages arrive.** In every state the firmware can reach between two payloads, a message
whose arguments are in range, delivered as one payload, has the effect it means, exactly when it is
not a texture of fewer than five samples. -/
theorem roundTrip_iff (rt : Runtime) {es : List Event} {b : Board}
    (hb : system.Run bootBoard es b) {m : Message} (hm : m.InRange) :
    (∃ p, encode rt m = some p ∧ m.Meant rt b.dev (adbCallback (receive p b.rx) p.length b.dev)) ↔
      m.LongEnough := by
  have hd := settled_run hb
  cases m with
  | mag f => exact iff_of_true (mag_meant hm.1 hm.2) trivial
  | freq n => exact iff_of_true (freq_meant hm.1 hm.2) trivial
  | keepAlive => exact iff_of_true keepAlive_meant trivial
  | texture l =>
    obtain ⟨h1, hmax, hrange⟩ := hm
    have hbody : l.map (fun f => toByte (f * maxFrictionByte)) =
        l.map fun f => UInt8.ofNat (level f) :=
      List.map_congr_left fun f hf => toByte_level (hrange f hf).1 (hrange f hf).2
    have hiff := started_iff b.rx (l.map fun f => UInt8.ofNat (level f)) hd (by simpa using h1)
      (by simpa using hmax)
    rw [List.length_map] at hiff
    simp only [encode, generateTexture_eq, hbody, Option.some.injEq, exists_eq_left']
    exact hiff
  | wave type f amp =>
    obtain ⟨hpos, hmax, -, -⟩ := hm
    have hlen := length_waveBody rt type f amp
    have hone : 1 ≤ waveLength f := (le_waveLength_iff hpos (by omega)).2 (by
      rw [textureSampleRate]
      push_cast
      linarith)
    have hle : waveLength f ≤ 1000 := by
      rw [waveLength, maxBytePacket]
      omega
    have hfive : 5 ≤ waveLength f ↔ f ≤ 2000 := by
      rw [le_waveLength_iff hpos (by omega), textureSampleRate]
      push_cast
      constructor <;> intro h <;> linarith
    have hiff := started_iff b.rx (waveBody rt type f amp) hd (by omega) (by omega)
    rw [hlen, hfive] at hiff
    simp only [encode, generateWave_eq rt type amp hpos, Option.some.injEq, exists_eq_left']
    exact hiff

/-- A Java library whose sine and random numbers are 0. -/
def zeroRuntime : Runtime := ⟨fun _ => 0, fun _ => 0⟩

/-- A texture of four full samples, sent at start, is dropped. -/
theorem roundTrip_drops :
    (Message.texture [1, 1, 1, 1]).InRange ∧
    ¬ ∃ p, encode zeroRuntime (.texture [1, 1, 1, 1]) = some p ∧
      (Message.texture [1, 1, 1, 1]).Meant zeroRuntime boot
        (adbCallback (receive p bootBoard.rx) p.length boot) := by
  refine ⟨by norm_num [Message.InRange], ?_⟩
  rintro ⟨p, hp, d', hcall, hplays, -⟩
  obtain rfl := Option.some.inj ((generateTexture_eq _).symm.trans hp)
  obtain rfl := Outcome.returned.inj (hcall.symm.trans (callback_short (by decide)))
  exact absurd hplays.1 (by decide)

/-- A texture of five full samples, sent at start, starts. -/
theorem roundTrip_five :
    ∃ p, encode zeroRuntime (.texture [1, 1, 1, 1, 1]) = some p ∧
      (Message.texture [1, 1, 1, 1, 1]).Meant zeroRuntime bootBoard.dev
        (adbCallback (receive p bootBoard.rx) p.length bootBoard.dev) :=
  (roundTrip_iff zeroRuntime (.nil bootBoard) (by norm_num [Message.InRange])).2
    (by simp [Message.LongEnough])

end TPadFire.Host
