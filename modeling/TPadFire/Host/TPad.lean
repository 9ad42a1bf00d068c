import TPadFire.Firmware.Device
import TPadFire.Foundations.ByteBuffer

/-!
# The host: `TPad`

The encoders of the class `TPad`, which turn calls of its interface into the bytes that are written
to the socket. `float` and `double` arithmetic is that of exact rationals, a Java `byte` is the byte
it is sent as, and where Java throws there is no result. `Math.sin` and the random generator are
parameters (`Runtime`).

`generateMag_eq`, `generateTexture_eq` and `generateWave_eq` say what the encoders send for
arguments in range, and `le_waveLength_iff` how many samples a wave has.
-/

namespace TPadFire.Host

open Firmware (Byte commandMag commandFreq commandText commandAlive)

/-- What the encoders use of the Java library: the sine and the Gaussian numbers drawn in turn. -/
structure Runtime where
  sin : ℚ → ℚ
  nextGaussian : ℕ → ℚ

/-! ## Constants -/

/-- `MAGCOMMAND` -/
def magCommand : List Byte := [0x0a]

/-- `FREQCOMMAND` -/
def freqCommand : List Byte := [0x0b]

/-- `TEXTURECOMMAND` -/
def textureCommand : List Byte := [0x0c]

/-- `KEEPALIVECOMMAND` -/
def keepAliveCommand : List Byte := [0x0d]

/-- `MAX_BYTE_PACKET` -/
def maxBytePacket : ℤ := 1000

/-- `MAX_FRICTION_BYTE` -/
def maxFrictionByte : ℤ := 255

/-- `TextureSampleRate` -/
def textureSampleRate : ℚ := 10000

/-- `Math.PI` -/
def mathPi : ℚ := 884279719003555 / 281474976710656

/-! ## Conversions -/

/-- `(byte) q` of a floating point value. -/
def toByte (q : ℚ) : Byte := UInt8.ofNat (lowBits 8 (saturate q))

/-- `(short) q` of a floating point value. -/
def toShort (q : ℚ) : ℤ := signed 16 (saturate q)

/-- `(byte) z` of an integer. -/
def intToByte (z : ℤ) : Byte := UInt8.ofNat (lowBits 8 z)

/-! ## The encoders -/

/-- `generateMag` -/
def generateMag (amp : ℚ) : Option (List Byte) := do
  let tempBuff ← ByteBuffer.allocate 2
  let tempBuff ← tempBuff.clear.putAll magCommand
  let tempBuff ← tempBuff.put (toByte (amp * maxFrictionByte))
  return tempBuff.array

/-- `generateTexture(float[])` -/
def generateTexture (friction : List ℚ) : Option (List Byte) := do
  let tempBuff ← ByteBuffer.allocate (friction.length + 1)
  let tempBuff ← tempBuff.clear.putAll textureCommand
  let tempBuff ← tempBuff.putAll (friction.map fun f => toByte (f * maxFrictionByte))
  return tempBuff.array

/-- The wave types; any other value generates nothing, as `LINEAR` does. -/
def linear : ℤ := 1

@[inherit_doc linear]
def square : ℤ := 2

@[inherit_doc linear]
def sinusoid : ℤ := 3

@[inherit_doc linear]
def random : ℤ := 4

/-- The samples of a period, `(int)((1 / freq) * TextureSampleRate)`; a division of a `float` by
zero gives infinity. -/
def periodSamps (freq : ℚ) : ℤ :=
  if freq = 0 then 2 ^ 31 - 1 else saturate (1 / freq * textureSampleRate)

/-- `(1 + Math.sin(2 * Math.PI * freq * i / 10000)) / 2f * MAX_FRICTION_BYTE` -/
def waveValue (rt : Runtime) (freq : ℚ) (i : ℕ) : ℚ :=
  (1 + rt.sin (2 * mathPi * freq * i / 10000)) / 2 * maxFrictionByte

/-- What the loop of a wave type puts for its first `n` values of `i`. -/
def waveSamples (rt : Runtime) (type : ℤ) (freq amp : ℚ) (n : ℕ) : List Byte :=
  if type = square then
    (List.range n).map fun i =>
      if toShort (waveValue rt freq i) > maxFrictionByte / 2 then toByte (amp * maxFrictionByte)
      else 0
  else if type = sinusoid then
    (List.range n).map fun i => intToByte (toShort (waveValue rt freq i * amp))
  else if type = random then
    (List.range n).map fun i => intToByte (toShort (rt.nextGaussian i))
  else []

/-- `generateTexture(int, float, float)` -/
def generateWave (rt : Runtime) (type : ℤ) (freq amp : ℚ) : Option (List Byte) := do
  let tempBuff ← ByteBuffer.allocate
    (if periodSamps freq > maxBytePacket then maxBytePacket + 1 else periodSamps freq + 1)
  let n := tempBuff.array.length - 1
  let tempBuff ← tempBuff.clear.putAll textureCommand
  let tempBuff ← tempBuff.putAll (waveSamples rt type freq amp n)
  return tempBuff.array

/-- `intToBytes`: four bytes, the lowest first. -/
def intToBytes (i : ℤ) : List Byte :=
  [intToByte i, intToByte (i / 2 ^ 8), intToByte (i / 2 ^ 16), intToByte (i / 2 ^ 24)]

/-- A call of the interface of `TPad` that sends a message. -/
inductive Message
  /-- `send(float)` -/
  | mag (friction : ℚ)
  /-- `freq(int)` -/
  | freq (n : ℤ)
  /-- `keepAlive()` -/
  | keepAlive
  /-- `send(float[])` -/
  | texture (friction : List ℚ)
  /-- `texture(int, float, float)` -/
  | wave (type : ℤ) (freq amp : ℚ)

/-- The bytes of a message. -/
def encode (rt : Runtime) : Message → Option (List Byte)
  | .mag f => generateMag f
  | .freq n => some (freqCommand ++ intToBytes n)
  | .keepAlive => some keepAliveCommand
  | .texture l => generateTexture l
  | .wave type freq amp => generateWave rt type freq amp

/-! ## What is sent -/

/-- The level of a friction between 0 and 1. -/
def level (f : ℚ) : ℕ := ⌊255 * f⌋.toNat

theorem level_le {f : ℚ} (h1 : f ≤ 1) : level f ≤ 255 := by
  have hfloor : ⌊255 * f⌋ ≤ 255 := by
    rw [← Int.lt_add_one_iff, Int.floor_lt]
    push_cast
    linarith
  rw [level]
  omega

/-- The byte of a level carries it. -/
theorem toNat_level {f : ℚ} (h1 : f ≤ 1) : (UInt8.ofNat (level f)).toNat = level f :=
  UInt8.toNat_ofNat_of_lt' (Nat.lt_succ_of_le (level_le h1))

theorem level_eq {f : ℚ} (h0 : 0 ≤ f) : (level f : ℤ) = ⌊255 * f⌋ := by
  rw [level, Int.toNat_of_nonneg (Int.floor_nonneg.2 (by linarith))]

theorem toByte_level {f : ℚ} (h0 : 0 ≤ f) (h1 : f ≤ 1) :
    toByte (f * maxFrictionByte) = UInt8.ofNat (level f) := by
  have hle := level_le h1
  have hsat : saturate (f * maxFrictionByte) = level f := by
    rw [level_eq h0, maxFrictionByte, mul_comm]
    exact saturate_of_mem (by push_cast; linarith) (by push_cast; linarith)
  have hbits := lowBits_of_lt (k := 8) (z := level f) (by omega) (by omega)
  rw [toByte, hsat]
  congr 1
  omega

theorem generateMag_eq {f : ℚ} (h0 : 0 ≤ f) (h1 : f ≤ 1) :
    generateMag f = some [commandMag, UInt8.ofNat (level f)] := by
  rw [generateMag, toByte_level h0 h1]
  rfl

/-- A texture message: the samples that are put, and zeros for the rest of the buffer. -/
theorem putTexture_eq (body : List Byte) {n : ℕ} (h : body.length ≤ n) :
    (do
      let tempBuff ← ByteBuffer.putAll ⟨List.replicate (n + 1) 0, 0⟩ textureCommand
      let tempBuff ← tempBuff.putAll body
      return tempBuff.array) =
      some (commandText :: (body ++ List.replicate (n - body.length) 0)) := by
  have hput := ByteBuffer.putAll_putAll textureCommand body (n := n + 1)
    (by rw [textureCommand, List.length_singleton]; omega)
  rw [textureCommand, List.length_singleton, Nat.add_comm 1, Nat.add_sub_add_right] at hput
  obtain ⟨b, hb, hb'⟩ := Option.map_eq_some_iff.1 hput
  obtain ⟨b₁, hb₁, hb₂⟩ := Option.bind_eq_some_iff.1 hb
  simp only [textureCommand, Option.bind_eq_bind, hb₁, Option.bind_some, hb₂]
  exact congrArg some hb'

theorem generateTexture_eq (friction : List ℚ) :
    generateTexture friction =
      some (commandText :: friction.map fun f => toByte (f * maxFrictionByte)) := by
  have hput := putTexture_eq (friction.map fun f => toByte (f * maxFrictionByte))
    (n := friction.length) (by simp)
  rw [List.length_map, Nat.sub_self, List.replicate_zero, List.append_nil] at hput
  rw [generateTexture, ← Nat.cast_succ, ByteBuffer.allocate_natCast]
  exact hput

/-- The samples of a wave: those of one period, 1000 at most. -/
def waveLength (freq : ℚ) : ℕ := (min maxBytePacket ⌊textureSampleRate / freq⌋).toNat

/-- What follows the identifier in the message of a wave. -/
def waveBody (rt : Runtime) (type : ℤ) (freq amp : ℚ) : List Byte :=
  let samples := waveSamples rt type freq amp (waveLength freq)
  samples ++ List.replicate (waveLength freq - samples.length) 0

theorem length_waveSamples_le (rt : Runtime) (type : ℤ) (freq amp : ℚ) (n : ℕ) :
    (waveSamples rt type freq amp n).length ≤ n := by
  rw [waveSamples]
  split_ifs <;> simp

theorem length_waveBody (rt : Runtime) (type : ℤ) (freq amp : ℚ) :
    (waveBody rt type freq amp).length = waveLength freq := by
  have hle := length_waveSamples_le rt type freq amp (waveLength freq)
  simp only [waveBody, List.length_append, List.length_replicate]
  omega

/-- The buffer for a wave has one element more than it has samples. -/
theorem capacity_eq {freq : ℚ} (h : 0 < freq) :
    (if periodSamps freq > maxBytePacket then maxBytePacket + 1 else periodSamps freq + 1) =
      ((waveLength freq + 1 : ℕ) : ℤ) := by
  have hpos : (0 : ℚ) ≤ 1 / freq * textureSampleRate := by
    rw [textureSampleRate]
    positivity
  have hfloor : 0 ≤ ⌊1 / freq * textureSampleRate⌋ := Int.floor_nonneg.2 hpos
  have hdiv : textureSampleRate / freq = 1 / freq * textureSampleRate := by ring
  rw [periodSamps, if_neg h.ne', saturate, truncate_of_nonneg hpos, waveLength, hdiv,
    maxBytePacket]
  split_ifs <;> omega

theorem generateWave_eq (rt : Runtime) (type : ℤ) {freq : ℚ} (amp : ℚ) (h : 0 < freq) :
    generateWave rt type freq amp = some (commandText :: waveBody rt type freq amp) := by
  rw [generateWave, capacity_eq h, ByteBuffer.allocate_natCast]
  have hput := putTexture_eq _ (length_waveSamples_le rt type freq amp (waveLength freq))
  simp only [Option.bind_eq_bind, Option.bind_some, List.length_replicate, Nat.add_sub_cancel]
  exact hput

/-- A wave has at least `k` samples, up to 1000, when `k` of them fit in a period. -/
theorem le_waveLength_iff {freq : ℚ} (h : 0 < freq) {k : ℕ} (hk : k ≤ 1000) :
    k ≤ waveLength freq ↔ k * freq ≤ textureSampleRate := by
  rw [← le_div_iff₀ h]
  have hfloor : (k : ℤ) ≤ ⌊textureSampleRate / freq⌋ ↔ (k : ℚ) ≤ textureSampleRate / freq := by
    rw [Int.le_floor]
    push_cast
    rfl
  have hnonneg : 0 ≤ ⌊textureSampleRate / freq⌋ := by
    rw [textureSampleRate]
    exact Int.floor_nonneg.2 (by positivity)
  rw [← hfloor, waveLength, maxBytePacket]
  omega

end TPadFire.Host
