import TPadFire.Firmware.Callback

/-!
# The duty cycle of the PWM

`PWM_Set_DC` limits the duty cycle to 50%: half of the period that Timer2 has when it is called. The
frequency command rewrites the period alone and leaves the count, so a shorter period can leave the
drive above the limit until the next level is set. `dutyLimit_iff` says when that happens: along a
run from `boot` the limit holds in every state exactly when every frequency message finds a pulse
that fits in half of the period it sets.

The frequencies are those from 611 to 400000, for which the period register holds the period and the
smallest duty cycle, 1%, is at least one count.
-/

namespace TPadFire.Firmware

/-- The limit that `PWM_Set_DC` promises, for the registers as they are. -/
def DutyOk (d : Device) : Prop := 0 ≤ d.oc3rs ∧ 2 * (d.oc3rs + 1) ≤ d.pr2 + 1

/-- The payload is taken for a frequency message. -/
def IsFreq (b : Board) (p : List Byte) : Prop :=
  1 ≤ p.length ∧ p.length ≤ 5 ∧ receive p b.rx 0 = commandFreq

/-- The value that the handler of a frequency message reads. -/
def freqValue (b : Board) (p : List Byte) : ℤ := intFromBytes (rawData (receive p b.rx))

/-- A frequency message has a value between 611 and 400000. -/
def FreqInRange (b : Board) : Event → Prop
  | .payload p => IsFreq b p → 611 ≤ freqValue b p ∧ freqValue b p ≤ 400000
  | .tick => True

/-- A frequency message finds a pulse no longer than half of the period that it sets. -/
def PulseFits (b : Board) : Event → Prop
  | .payload p => IsFreq b p → 2 * (b.dev.oc3rs + 1) ≤ sysFreq.tdiv (freqValue b p)
  | .tick => True

/-- The firmware with frequency messages in range. -/
def dutySystem : Lts Board Event := system.restrict FreqInRange

/-! ## One step -/

theorem tdiv_sysFreq_bounds {n : ℤ} (h : 611 ≤ n) (h' : n ≤ 400000) :
    100 ≤ sysFreq.tdiv n ∧ sysFreq.tdiv n ≤ 65536 := by
  rw [Int.tdiv_eq_ediv_of_nonneg (by decide), sysFreq]
  constructor
  · rw [Int.le_ediv_iff_mul_le (by omega)]
    omega
  · exact Int.lt_add_one_iff.1 ((Int.ediv_lt_iff_lt_mul (by omega)).2 (by omega))

/-- The period that a frequency in range sets. -/
theorem storePeriod_freq {n : ℤ} (h : 611 ≤ n) (h' : n ≤ 400000) :
    100 ≤ sysFreq.tdiv n ∧ (storePeriod (sysFreq.tdiv n - 1) : ℤ) = sysFreq.tdiv n - 1 := by
  obtain ⟨hlo, hhi⟩ := tdiv_sysFreq_bounds h h'
  exact ⟨hlo, storePeriod_pred (by omega) hhi⟩

/-- The PWM period, in counts, is at least 100. -/
def PeriodOk (b : Board) : Prop := 100 ≤ b.dev.pr2 + 1

theorem periodOk_step {b b' : Board} {e : Event} (hb : PeriodOk b) (h : dutySystem.step b e b') :
    PeriodOk b' := by
  obtain ⟨h, hrange⟩ := h
  cases h with
  | payload _ h =>
    rcases adbCallback_pr2 h with hsame | ⟨h1, h5, hid, hset⟩
    · rw [PeriodOk, hsame]
      exact hb
    · obtain ⟨hlo, hhi⟩ := hrange ⟨h1, h5, hid⟩
      obtain ⟨hper, hstore⟩ := storePeriod_freq hlo hhi
      rw [PeriodOk, hset]
      rw [freqValue] at hper hstore
      omega
  | tick _ h =>
    obtain ⟨o, k, rfl⟩ := timer3ISR_frame h
    exact hb

/-- One step keeps the limit, unless it is a frequency message that finds too long a pulse. -/
theorem dutyOk_step_iff {b b' : Board} {e : Event} (hp : PeriodOk b) (hb : DutyOk b.dev)
    (h : dutySystem.step b e b') : DutyOk b'.dev ↔ PulseFits b e := by
  have hlimit := fun dc => dutyCount_bounds hp dc
  obtain ⟨h, hrange⟩ := h
  cases h with
  | @payload p d _ h =>
    by_cases hfreq : IsFreq b p
    · obtain ⟨hlo, hhi⟩ := hrange hfreq
      obtain ⟨-, hstore⟩ := storePeriod_freq hlo hhi
      obtain ⟨z, hz⟩ : ∃ z, freqValue b p = z := ⟨_, rfl⟩
      rw [adbCallback_freq hfreq.1 hfreq.2.1 hfreq.2.2, handleFreq_returned hz (by omega)] at h
      rw [← Outcome.returned.inj h]
      rw [hz] at hstore
      simp only [DutyOk, PulseFits, hfreq, hz, true_imp_iff, hstore]
      exact ⟨fun hd => by omega, fun hd => ⟨hb.1, by omega⟩⟩
    · have hfits : PulseFits b (.payload p) := fun hf => absurd hf hfreq
      have hpr : d.pr2 = b.dev.pr2 :=
        (adbCallback_pr2 h).resolve_right fun hf => hfreq ⟨hf.1, hf.2.1, hf.2.2.1⟩
      simp only [hfits, iff_true, DutyOk, hpr]
      rcases adbCallback_oc3rs h with hsame | hset
      · rw [hsame]
        exact hb
      · rw [hset]
        exact_mod_cast hlimit _
  | @tick r d _ h =>
    simp only [PulseFits, iff_true]
    rcases timer3ISR_cases h with ⟨s, hs⟩ | rfl
    · obtain ⟨v, -, -, rfl⟩ := timer3ISR_some hs h
      exact_mod_cast hlimit (levelDuty v)
    · exact hb

/-! ## Runs -/

theorem periodOk_boot : PeriodOk bootBoard := by
  simp only [PeriodOk, bootBoard, boot_pr2]
  omega

theorem dutyOk_boot : DutyOk bootBoard.dev := by
  simp only [DutyOk, bootBoard, boot_pr2, boot_oc3rs]
  omega

/-- **The limit along a run.** It holds in the state reached when the frequency messages of the run
all find a pulse that fits, and it holds after every event of the run exactly when they do. -/
theorem dutyLimit_iff (es : List Event) :
    (∀ b, (dutySystem.restrict PulseFits).Run bootBoard es b → DutyOk b.dev) ∧
    (dutySystem.Always (fun _ _ b => DutyOk b.dev) bootBoard es ↔
      dutySystem.Always (fun b e _ => PulseFits b e) bootBoard es) := by
  constructor
  · intro b hr
    have hinv : PeriodOk b ∧ DutyOk b.dev := by
      refine hr.invariant (I := fun b => PeriodOk b ∧ DutyOk b.dev) ?_ ⟨periodOk_boot, dutyOk_boot⟩
      rintro b e b' ⟨hp, hd⟩ ⟨h, hfits⟩
      exact ⟨periodOk_step hp h, (dutyOk_step_iff hp hd h).2 hfits⟩
    exact hinv.2
  · refine Lts.always_iff_always (I := fun b => PeriodOk b ∧ DutyOk b.dev) ?_ ?_
      ⟨periodOk_boot, dutyOk_boot⟩ es
    · exact fun b e b' hb h => dutyOk_step_iff hb.1 hb.2 h
    · exact fun b e b' hb h hfits => ⟨periodOk_step hb.1 h, (dutyOk_step_iff hb.1 hb.2 h).2 hfits⟩

/-- The full level, then the frequency 33700: a pulse of 597 counts in a period of 1186. -/
theorem dutyLimit_exceeded :
    ∃ b, dutySystem.Run bootBoard
        [.payload [commandMag, 0xff], .payload [commandFreq, 0xa4, 0x83, 0x00, 0x00]] b ∧
      ¬ DutyOk b.dev := by
  have hlevel : receive [commandMag, 0xff] (fun _ => 0) 1 = 0xff := by decide
  have hmag : adbCallback (receive [commandMag, 0xff] (fun _ => 0)) 2 boot =
      .returned (handleMag (receive [commandMag, 0xff] (fun _ => 0)) boot) :=
    adbCallback_mag (by decide) (by decide) (by decide)
  have hval : intFromBytes (rawData (receive [commandFreq, 0xa4, 0x83, 0x00, 0x00]
      (receive [commandMag, 0xff] (fun _ => 0)))) = 33700 := by decide
  have hfreq (d : Device) : adbCallback (receive [commandFreq, 0xa4, 0x83, 0x00, 0x00]
      (receive [commandMag, 0xff] (fun _ => 0))) 5 d =
      .returned { d with incoming := 33700, pr2 := 1185, tmr2 := 0 } := by
    rw [adbCallback_freq (by decide) (by decide) (by decide), handleFreq_returned hval (by decide)]
    rfl
  refine ⟨_, .cons ⟨.payload (by decide) hmag, fun hf => absurd hf.2.2 (by decide)⟩
    (.cons ⟨.payload (by decide) (hfreq _), fun _ => ?_⟩ (.nil _)), ?_⟩
  · simp only [freqValue, bootBoard, hval]
    decide
  · simp only [DutyOk, handleMag_eq, hlevel, boot_pr2, dutyCount_level]
    decide

end TPadFire.Firmware
