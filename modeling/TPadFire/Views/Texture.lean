import TPadFire.Host.RoundTrip
import TPadFire.Host.Strength
import TPadFire.Views.Lookups

/-!
# From a colour to the texture buffer

The hue of a colour is scaled to a frequency above 10 and up to 300 Hz, so that a period has between
33 and 1000 samples at 10 kHz. This is what a packet of the host and a half of the texture buffer
hold, so the texture of a colour arrives whole (`texture_whole`).
-/

namespace TPadFire.Views

open Host Firmware

/-- The components are in the range of `Color.colorToHSV`. -/
structure Hsv.InRange (c : Hsv) : Prop where
  hue_nonneg : 0 ≤ c.hue
  hue_lt : c.hue < 360
  value_nonneg : 0 ≤ c.value
  value_le : c.value ≤ 1

variable (colorToHSV : ℤ → Hsv) (pixel : ℤ)

theorem pixelToFrequency_eq :
    pixelToFrequency colorToHSV pixel = (1 - (colorToHSV pixel).hue / 360) * 290 + 10 := by
  rw [pixelToFrequency]
  ring

variable {colorToHSV pixel}

theorem pixelToFrequency_mem (h : (colorToHSV pixel).InRange) :
    10 < pixelToFrequency colorToHSV pixel ∧ pixelToFrequency colorToHSV pixel ≤ 300 := by
  have hlow := h.hue_nonneg
  have hhigh := h.hue_lt
  rw [pixelToFrequency_eq]
  constructor <;> linarith

/-- A frequency of at least 10 Hz and at most 300 has a period of 33 to 1000 samples, none cut. -/
theorem waveLength_mem {freq : ℚ} (hlow : 10 ≤ freq) (hhigh : freq ≤ 300) :
    33 ≤ waveLength freq ∧ waveLength freq ≤ 1000 ∧ (waveLength freq : ℤ) = ⌊10000 / freq⌋ := by
  have hpos : 0 < freq := by linarith
  have hle : ⌊10000 / freq⌋ ≤ 1000 := by
    have hdiv : 10000 / freq ≤ 1000 := by
      rw [div_le_iff₀ hpos]
      linarith
    exact_mod_cast (Int.floor_le _).trans hdiv
  have heq := waveLength_eq hpos
  rw [min_eq_right hle] at heq
  refine ⟨(le_waveLength_iff hpos (by omega)).2 ?_, by omega, heq⟩
  rw [textureSampleRate]
  push_cast
  linarith

/-- The texture that `TextureTasks` requests for a pixel spans at most one period, and less than one
sample short of it. -/
theorem period_bounds {freq : ℚ} (hlow : 10 ≤ freq) (hhigh : freq ≤ 300) :
    (waveLength freq : ℚ) / textureSampleRate ≤ 1 / freq ∧
      1 / freq < ((waveLength freq : ℚ) + 1) / textureSampleRate := by
  have hpos : 0 < freq := by linarith
  have heq : (waveLength freq : ℚ) = (⌊10000 / freq⌋ : ℚ) := by
    exact_mod_cast (waveLength_mem hlow hhigh).2.2
  have hle := Int.floor_le (10000 / freq)
  have hlt := Int.lt_floor_add_one (10000 / freq)
  rw [le_div_iff₀ hpos] at hle
  rw [div_lt_iff₀ hpos] at hlt
  rw [heq, textureSampleRate, div_le_div_iff₀ (by norm_num) hpos,
    div_lt_div_iff₀ hpos (by norm_num)]
  constructor <;> linarith

/-- The texture of a colour is whole: its message has the samples of one period with none cut off,
and `ADBCallback` starts to play exactly these. -/
def Whole (rt : Runtime) (b : Board) (freq : ℚ) (m : Message) : Prop :=
  ∃ samples : List Byte, encode rt m = some (commandText :: samples) ∧
    33 ≤ samples.length ∧ samples.length ≤ 1000 ∧ (samples.length : ℤ) = ⌊10000 / freq⌋ ∧
    (samples.length : ℚ) / textureSampleRate ≤ 1 / freq ∧
    1 / freq < ((samples.length : ℚ) + 1) / textureSampleRate ∧
    ∃ d', adbCallback (receive (commandText :: samples) b.rx) (commandText :: samples).length
      b.dev = .returned d' ∧ Started samples b.dev d'

theorem whole_wave (rt : Runtime) {b : Board} (hb : Settled b.dev) {freq : ℚ} (hlow : 10 ≤ freq)
    (hhigh : freq ≤ 300) (type : ℤ) (amp : ℚ) : Whole rt b freq (.wave type freq amp) := by
  obtain ⟨hmin, hmax, hfloor⟩ := waveLength_mem hlow hhigh
  obtain ⟨hspan, hshort⟩ := period_bounds hlow hhigh
  have hlen := length_waveBody rt type freq amp
  refine ⟨waveBody rt type freq amp, generateWave_eq rt type amp (by linarith), ?_⟩
  rw [hlen]
  refine ⟨hmin, hmax, hfloor, hspan, hshort, ?_⟩
  exact (started_iff b.rx (waveBody rt type freq amp) hb (by omega) (by omega)).2 (by omega)

theorem texture_eq :
    TextureView.texture colorToHSV pixel = .wave (pixelToWaveType colorToHSV pixel)
      ((1 - (colorToHSV pixel).hue / 360) * 290 + 10) (colorToHSV pixel).value := by
  rw [TextureView.texture, pixelToFrequency_eq]
  rfl

/-- **The texture of a colour arrives whole.** Whatever the colours and the position of the finger,
`TextureTasks` looks up a pixel and requests the texture of its hue and value, which is whole, in
every state that the firmware can reach between two payloads. -/
theorem texture_whole (rt : Runtime) (v : TextureView)
    (hcolor : ∀ pixel, (colorToHSV pixel).InRange) {es : List Firmware.Event} {b : Board}
    (hb : system.Run bootBoard es b) :
    ∃ pixel freq m, v.lookup.getPixel = some pixel ∧
      freq = (1 - (colorToHSV pixel).hue / 360) * 290 + 10 ∧
      m = .wave (pixelToWaveType colorToHSV pixel) freq (colorToHSV pixel).value ∧
      v.textureTasks colorToHSV = [.getPixel v.lookup, .send m] ∧ Whole rt b freq m := by
  obtain ⟨pixel, hpixel, htasks⟩ := v.textureTasks_eq colorToHSV
  obtain ⟨hlow, hhigh⟩ := pixelToFrequency_mem (hcolor pixel)
  rw [texture_eq] at htasks
  rw [pixelToFrequency_eq] at hlow hhigh
  exact ⟨pixel, _, _, hpixel, rfl, rfl, htasks,
    whole_wave rt (settled_run hb) hlow.le hhigh _ _⟩

/-- A view of one pixel. -/
def onePixel : TextureView := ⟨0, 0, ⟨1, 1, Nat.one_pos, Nat.one_pos, fun _ _ => 0⟩⟩

/-- A hue in the middle, at half strength. -/
theorem texture_whole_middle :
    onePixel.textureTasks (fun _ => ⟨180, 1, 1 / 2⟩) =
        [.getPixel onePixel.lookup, .send (.wave sinusoid 155 (1 / 2))] ∧
      Whole zeroRuntime bootBoard 155 (.wave sinusoid 155 (1 / 2)) := by
  obtain ⟨pixel, freq, m, -, hfreq, hm, htasks, hwhole⟩ :=
    @texture_whole (fun _ => ⟨180, 1, 1 / 2⟩) zeroRuntime onePixel
      (fun _ => by constructor <;> norm_num) _ _ (.nil bootBoard)
  have hfreq' : freq = 155 := hfreq.trans (by norm_num)
  have htype : pixelToWaveType (fun _ => ⟨180, 1, 1 / 2⟩) pixel = sinusoid := by
    unfold pixelToWaveType
    norm_num
  rw [htype, hfreq'] at hm
  rw [hm] at htasks hwhole
  rw [hfreq'] at hwhole
  exact ⟨htasks, hwhole⟩

end TPadFire.Views
