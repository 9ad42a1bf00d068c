import TPadFire.Host.TPad

/-!
# The strength of generated textures

A sample is a friction level between 0 and 255, and the amplitude of a wave is the part of 255 that
was asked for. The loops of `generateTexture(int, float, float)` scale by the amplitude, except that
of `RANDOM`, which puts the low byte of a Gaussian number whatever the amplitude, and wraps the
negative ones. `strength_iff` says when no sample is stronger than was asked for.
-/

namespace TPadFire.Host

open Firmware (Byte commandText)

variable {rt : Runtime} {freq amp : ℚ}

/-- The wave is encoded, with the samples of one period, 1000 at most, and none of them is stronger
than the amplitude. -/
def NotStronger (rt : Runtime) (type : ℤ) (freq amp : ℚ) : Prop :=
  ∃ samples : List Byte, generateWave rt type freq amp = some (commandText :: samples) ∧
    (samples.length : ℤ) = min 1000 ⌊10000 / freq⌋ ∧ ∀ b ∈ samples, (b.toNat : ℚ) ≤ 255 * amp

/-- The values of `Math.sin`. -/
def Runtime.SinBounded (rt : Runtime) : Prop := ∀ x, -1 ≤ rt.sin x ∧ rt.sin x ≤ 1

/-! ## The samples of each wave type -/

theorem toNat_intToByte (z : ℤ) : ((intToByte z).toNat : ℤ) = z % 256 := by
  rw [intToByte, UInt8.toNat_ofNat_of_lt' (lowBits_lt 8 z), lowBits]
  omega

/-- The byte of a `short` is the low byte of the number it was converted from. -/
theorem toNat_intToByte_toShort (q : ℚ) :
    ((intToByte (toShort q)).toNat : ℤ) = saturate q % 256 := by
  have hmod : toShort q % (2 ^ 16 : ℕ) = saturate q % (2 ^ 16 : ℕ) := Int.bmod_emod
  rw [toNat_intToByte]
  omega

theorem saturate_level {q : ℚ} (h0 : 0 ≤ q) (h1 : q ≤ 255) :
    saturate q = ⌊q⌋ ∧ 0 ≤ ⌊q⌋ ∧ ⌊q⌋ ≤ 255 := by
  have hfloor : ⌊q⌋ < 256 := by
    rw [Int.floor_lt]
    push_cast
    linarith
  exact ⟨saturate_of_mem h0 (by linarith), Int.floor_nonneg.2 h0, by omega⟩

/-- `(byte)(amp * MAX_FRICTION_BYTE)` -/
theorem toByte_amp_le (h0 : 0 ≤ amp) (h1 : amp ≤ 1) :
    ((toByte (amp * maxFrictionByte)).toNat : ℚ) ≤ 255 * amp := by
  have hlevel : ((level amp : ℤ) : ℚ) ≤ 255 * amp := by
    rw [level_eq h0]
    exact Int.floor_le _
  rw [toByte_level h0 h1, toNat_level h1]
  exact_mod_cast hlevel

/-- A sample of a sinusoid. -/
theorem sinusoid_le (hsin : rt.SinBounded) (h0 : 0 ≤ amp) (h1 : amp ≤ 1) (freq : ℚ) (i : ℕ) :
    ((intToByte (toShort (waveValue rt freq i * amp))).toNat : ℚ) ≤ 255 * amp := by
  obtain ⟨hlow, hhigh⟩ := hsin (2 * mathPi * freq * i / 10000)
  have hvalue : 0 ≤ waveValue rt freq i ∧ waveValue rt freq i ≤ 255 := by
    rw [waveValue, maxFrictionByte]
    push_cast
    constructor <;> linarith
  have hmul : waveValue rt freq i * amp ≤ 255 * amp := mul_le_mul_of_nonneg_right hvalue.2 h0
  obtain ⟨hsat, hnonneg, hle⟩ :=
    saturate_level (mul_nonneg hvalue.1 h0) (hmul.trans (by linarith))
  have hbyte := toNat_intToByte_toShort (waveValue rt freq i * amp)
  rw [hsat, Int.emod_eq_of_lt hnonneg (by omega)] at hbyte
  have hcast : ((intToByte (toShort (waveValue rt freq i * amp))).toNat : ℚ) =
      (⌊waveValue rt freq i * amp⌋ : ℚ) := by exact_mod_cast hbyte
  rw [hcast]
  exact (Int.floor_le _).trans hmul

/-- What the loops of the other wave types put is not stronger than the amplitude. -/
theorem waveSamples_le (hsin : rt.SinBounded) (h0 : 0 ≤ amp) (h1 : amp ≤ 1) {type : ℤ}
    (htype : type ≠ random) (freq : ℚ) (n : ℕ) :
    ∀ b ∈ waveSamples rt type freq amp n, (b.toNat : ℚ) ≤ 255 * amp := by
  rw [waveSamples]
  split_ifs with hsquare hsinusoid
  · refine List.forall_mem_map.2 fun i _ => ?_
    split_ifs
    · exact toByte_amp_le h0 h1
    · exact mul_nonneg (by norm_num) h0
  · exact List.forall_mem_map.2 fun i _ => sinusoid_le hsin h0 h1 freq i
  · exact List.forall_mem_nil _

theorem waveSamples_random (rt : Runtime) (freq amp : ℚ) (n : ℕ) :
    waveSamples rt random freq amp n =
      (List.range n).map fun i => intToByte (toShort (rt.nextGaussian i)) := by
  rw [waveSamples, if_neg (by decide), if_neg (by decide), if_pos rfl]

/-! ## The message -/

theorem waveLength_eq (h : 0 < freq) : (waveLength freq : ℤ) = min 1000 ⌊10000 / freq⌋ := by
  have hfloor : 0 ≤ ⌊textureSampleRate / freq⌋ :=
    Int.floor_nonneg.2 (div_nonneg (by norm_num [textureSampleRate]) h.le)
  rw [waveLength, maxBytePacket, Int.toNat_of_nonneg (le_min (by norm_num) hfloor),
    textureSampleRate]

/-- What is left of the buffer when the loop ends is 0. -/
theorem waveBody_le_iff (rt : Runtime) (type : ℤ) (freq : ℚ) (h0 : 0 ≤ amp) :
    (∀ b ∈ waveBody rt type freq amp, (b.toNat : ℚ) ≤ 255 * amp) ↔
      ∀ b ∈ waveSamples rt type freq amp (waveLength freq), (b.toNat : ℚ) ≤ 255 * amp := by
  simp only [waveBody, List.forall_mem_append, and_iff_left_iff_imp]
  intro _ b hb
  rw [List.eq_of_mem_replicate hb]
  exact mul_nonneg (by norm_num) h0

/-- **Which textures are no stronger than asked for.** For every wave type, frequency, amplitude and
whatever the sine and the random generator give, a wave has the samples of one period, 1000 at most,
none of them stronger than the amplitude, exactly when it is not a `RANDOM` one in which the low
byte of a Gaussian number is. -/
theorem strength_iff (hsin : rt.SinBounded) (type : ℤ) (hfreq : 0 < freq) (h0 : 0 ≤ amp)
    (h1 : amp ≤ 1) :
    NotStronger rt type freq amp ↔
      (type = random → ∀ i < waveLength freq,
        ((saturate (rt.nextGaussian i) % 256 : ℤ) : ℚ) ≤ 255 * amp) := by
  have hbody : NotStronger rt type freq amp ↔
      ∀ b ∈ waveSamples rt type freq amp (waveLength freq), (b.toNat : ℚ) ≤ 255 * amp := by
    rw [← waveBody_le_iff rt type freq h0, NotStronger, generateWave_eq rt type amp hfreq]
    constructor
    · rintro ⟨samples, hsamples, -, hle⟩
      obtain rfl := (List.cons.inj (Option.some.inj hsamples)).2
      exact hle
    · exact fun hle => ⟨_, rfl, by rw [length_waveBody, waveLength_eq hfreq], hle⟩
  rw [hbody]
  by_cases htype : type = random
  · subst htype
    have hbyte (i : ℕ) : ((intToByte (toShort (rt.nextGaussian i))).toNat : ℚ) =
        ((saturate (rt.nextGaussian i) % 256 : ℤ) : ℚ) := by
      rw [← toNat_intToByte_toShort]
      exact (Int.cast_natCast _).symm
    simp only [waveSamples_random, List.forall_mem_map, List.mem_range, hbyte, true_imp_iff]
  · exact iff_of_true (waveSamples_le hsin h0 h1 htype freq _) fun h => absurd h htype

/-- A sinusoid of half strength and five samples. -/
theorem strength_iff_sinusoid : NotStronger ⟨fun _ => 0, fun _ => 0⟩ sinusoid 2000 (1 / 2) :=
  (strength_iff (fun _ => by norm_num) sinusoid (by norm_num) (by norm_num) (by norm_num)).2
    fun h => absurd h (by decide)

/-- A `RANDOM` texture of half strength, with all Gaussian numbers −1, has the full level 255. -/
theorem strength_random :
    ¬ NotStronger ⟨fun _ => 0, fun _ => -1⟩ random 2000 (1 / 2) := by
  rintro ⟨samples, hsamples, -, hle⟩
  have hbytes : generateWave ⟨fun _ => 0, fun _ => -1⟩ random 2000 (1 / 2) =
      some (commandText :: [255, 255, 255, 255, 255]) := by decide +kernel
  obtain rfl := (List.cons.inj (Option.some.inj (hsamples.symm.trans hbytes))).2
  have hfirst := hle 255 List.mem_cons_self
  rw [show (255 : Byte).toNat = 255 from rfl] at hfirst
  norm_num at hfirst

end TPadFire.Host
