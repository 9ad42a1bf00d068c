import TPadFire.Firmware.Player

/-!
# The frequency command over all values

`TPad.freq` sends any `int`, and the branch `COMMAND_FREQ` of `ADBCallback` divides `SYS_FREQ` by it
and stores the quotient less one in the 16 bits of `PR2`, with no check. The division traps at 0;
the value stored is the one computed for the values from 611 to `SYS_FREQ`, and for no others
(`frequency_iff`).
-/

namespace TPadFire.Firmware

/-- The timer period for the frequency `n`, less one count. -/
def periodFor (n : ℤ) : ℤ := sysFreq.tdiv n - 1

/-- The handler returned, and left `PR2` alone or set to the period for `n`, which fits in it. -/
def FreqExact (n : ℤ) (d : Device) (o : Outcome) : Prop :=
  ∃ d', o = .returned d' ∧
    (0 ≤ periodFor n ∧ periodFor n ≤ 65535 ∧ (d'.pr2 : ℤ) = periodFor n ∨ d'.pr2 = d.pr2)

/-- The frequencies whose period fits in 16 bits. -/
theorem periodFor_mem_iff {n : ℤ} (hn : n ≠ 0) :
    (0 ≤ periodFor n ∧ periodFor n ≤ 65535) ↔ 611 ≤ n ∧ n ≤ sysFreq := by
  rcases lt_or_gt_of_ne hn with hneg | hpos
  · have hdiv : sysFreq.tdiv n ≤ 0 := Int.tdiv_nonpos_of_nonneg_of_nonpos (by decide) hneg.le
    rw [periodFor]
    omega
  · have hlow : 1 ≤ sysFreq / n ↔ n ≤ sysFreq := by
      rw [Int.le_ediv_iff_mul_le hpos, one_mul]
    have hhigh : sysFreq / n < 65537 ↔ 611 ≤ n := by
      rw [Int.ediv_lt_iff_lt_mul hpos, sysFreq]
      omega
    rw [periodFor, Int.tdiv_eq_ediv_of_nonneg (by decide), ← hlow, ← hhigh]
    omega

theorem storePeriod_eq (z : ℤ) : (storePeriod z : ℤ) = z % 65536 := by
  rw [storePeriod, lowBits]
  omega

/-- **Which frequencies are handled exactly.** For every value of a frequency message, from every
state, the handler returns with `PR2` exact or unchanged, exactly when the value lies between 611
and `SYS_FREQ`, or is not 0 and `PR2` already holds the low 16 bits of its period. -/
theorem frequency_iff (d : Device) (rx : RecvBuffer) (b0 b1 b2 b3 : Byte) :
    FreqExact (Player.valueOf [b0, b1, b2, b3]) d
        (adbCallback (receive [commandFreq, b0, b1, b2, b3] rx) 5 d) ↔
      (611 ≤ Player.valueOf [b0, b1, b2, b3] ∧ Player.valueOf [b0, b1, b2, b3] ≤ sysFreq) ∨
      (Player.valueOf [b0, b1, b2, b3] ≠ 0 ∧
        (d.pr2 : ℤ) = periodFor (Player.valueOf [b0, b1, b2, b3]) % 65536) := by
  have hcall : adbCallback (receive [commandFreq, b0, b1, b2, b3] rx) 5 d =
      handleFreq (receive [commandFreq, b0, b1, b2, b3] rx) d := callback_freq rfl
  have hvalue : intFromBytes (rawData (receive [commandFreq, b0, b1, b2, b3] rx)) =
      Player.valueOf [b0, b1, b2, b3] := intFromBytes_receive _ _ rfl
  rw [hcall]
  generalize Player.valueOf [b0, b1, b2, b3] = n at hvalue ⊢
  by_cases h0 : n = 0
  · -- the division traps
    rw [handleFreq_trapped (hvalue.trans h0)]
    constructor
    · rintro ⟨d', hd', -⟩
      cases hd'
    · rintro (⟨hlow, -⟩ | ⟨hne, -⟩)
      · omega
      · exact absurd h0 hne
  · rw [handleFreq_returned hvalue h0, ← periodFor_mem_iff h0]
    have hstore := storePeriod_eq (periodFor n)
    constructor
    · rintro ⟨d', hd', hexact⟩
      cases hd'
      rcases hexact with ⟨hlow, hhigh, -⟩ | hsame
      · exact .inl ⟨hlow, hhigh⟩
      · rw [← hsame]
        exact .inr ⟨h0, hstore⟩
    · rintro (⟨hlow, hhigh⟩ | ⟨-, hsame⟩)
      · refine ⟨_, rfl, .inl ⟨hlow, hhigh, hstore.trans ?_⟩⟩
        omega
      · exact ⟨_, rfl, .inr (by exact_mod_cast hstore.trans hsame.symm)⟩

/-- The frequency 0 divides by it; the frequency 600 asks for a period of 66666 counts and gets one
of 1130. -/
theorem frequency_fails :
    (∃ d, adbCallback (receive [commandFreq, 0, 0, 0, 0] fun _ => 0) 5 boot = .trapped d) ∧
    ¬ FreqExact 0 boot (adbCallback (receive [commandFreq, 0, 0, 0, 0] fun _ => 0) 5 boot) ∧
    ¬ FreqExact 600 boot
        (adbCallback (receive [commandFreq, 0x58, 0x02, 0, 0] fun _ => 0) 5 boot) := by
  have hzero : intFromBytes (rawData (receive [commandFreq, 0, 0, 0, 0] fun _ => 0)) = 0 := by
    decide
  have hvalue : intFromBytes (rawData (receive [commandFreq, 0x58, 0x02, 0, 0] fun _ => 0)) =
      600 := by decide
  have htrap : adbCallback (receive [commandFreq, 0, 0, 0, 0] fun _ => 0) 5 boot = .trapped _ :=
    (callback_freq rfl).trans (handleFreq_trapped hzero)
  have hlow : adbCallback (receive [commandFreq, 0x58, 0x02, 0, 0] fun _ => 0) 5 boot =
      .returned _ := (callback_freq rfl).trans (handleFreq_returned hvalue (by decide))
  refine ⟨⟨_, htrap⟩, ?_, ?_⟩
  · rintro ⟨d', hd', -⟩
    cases htrap.symm.trans hd'
  · rintro ⟨d', hd', hexact⟩
    cases hlow.symm.trans hd'
    rw [boot_pr2] at hexact
    exact absurd hexact (by decide)

end TPadFire.Firmware
