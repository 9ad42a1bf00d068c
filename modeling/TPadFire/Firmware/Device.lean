import TPadFire.Foundations.Convert
import TPadFire.Foundations.Memory

/-!
# The device: registers and the texture double buffer

The state that the handlers of `main.c` share: the globals `tpadMAG` and `incoming`, the texture
buffer `tBuff`, the special function registers they write, and the core timer. `pwmSetDC` is
`PWM_Set_DC`, the only place that writes the PWM count `OC3RS`; `boot` is the state in which `main`
enters its loop.

`pwmSetDC` computes in `double`; here its arithmetic is that of exact rationals. The count it stores
for an 8-bit level has the integer form of `dutyCount_level`, and lies within the limits of
`dutyCount_bounds` for every argument when the PWM period is at least 100 counts.
-/

namespace TPadFire.Firmware

/-- `BYTE`. -/
abbrev Byte := UInt8

/-! ## Constants -/

/-- `SYS_FREQ`, the clock of the timers in Hz. -/
def sysFreq : ℤ := 40000000

/-- `OUTPUT_FREQ`, the PWM frequency at start. -/
def outputFreq : ℤ := 33500

/-- `BUFFER_FREQ`, the rate at which texture samples are played. -/
def bufferFreq : ℤ := 10000

/-- `MAX_BUFFER_LENGTH`, the cells of a texture buffer. -/
def maxBufferLength : ℕ := 1000

/-- `COMMAND_MAG`. -/
def commandMag : Byte := 0x0a

/-- `COMMAND_FREQ`. -/
def commandFreq : Byte := 0x0b

/-- `COMMAND_TEXT`. -/
def commandText : Byte := 0x0c

/-- `COMMAND_ALIVE`. -/
def commandAlive : Byte := 0x0d

/-! ## State -/

/-- The two halves of the double buffer. -/
inductive Slot
  | buff0
  | buff1
  deriving DecidableEq, Repr

namespace Slot

/-- The value of `Front` that selects the half. -/
def byte : Slot → Byte
  | buff0 => 0
  | buff1 => 1

/-- The other half. -/
def other : Slot → Slot
  | buff0 => buff1
  | buff1 => buff0

theorem byte_injective {s s' : Slot} (h : s.byte = s'.byte) : s = s' := by
  revert h
  cases s <;> cases s' <;> decide

@[simp] theorem other_ne (s : Slot) : s.other ≠ s := by cases s <;> decide

end Slot

/-- `TextureBuff`. -/
structure TextureBuff where
  /-- `Buff0` and `Buff1`. -/
  buff : Slot → Block Byte maxBufferLength
  front : Byte
  index : ℤ
  /-- `Length0` and `Length1`. -/
  length : Slot → ℤ
  on : Byte

/-- The half `s` holds exactly the samples `l`. -/
structure TextureBuff.Holds (t : TextureBuff) (s : Slot) (l : List Byte) : Prop where
  length : t.length s = l.length
  le : l.length ≤ maxBufferLength
  contents : (t.buff s).contents l.length = l

theorem TextureBuff.Holds.congr {t t' : TextureBuff} {s : Slot} {l : List Byte} (h : t.Holds s l)
    (hl : t'.length s = t.length s) (hb : t'.buff s = t.buff s) : t'.Holds s l :=
  ⟨hl.trans h.length, h.le, by rw [hb, h.contents]⟩

theorem TextureBuff.Holds.cell {t : TextureBuff} {s : Slot} {l : List Byte} (h : t.Holds s l)
    {k : ℕ} (hk : k < l.length) : (t.buff s).cell? k = some l[k] := by
  have hle := h.le
  have hcell := (t.buff s).getElem_contents l.length (i := k)
    (by rw [Block.length_contents]; omega) (by omega)
  simp only [h.contents] at hcell
  rw [Block.cell?_natCast _ (by omega), hcell]

/-- The state the handlers share. A timer register holds the value last written to it. -/
structure Device where
  tpadMag : ℤ
  incoming : ℤ
  tBuff : TextureBuff
  /-- The period register of Timer2, which times the PWM; it has 16 bits. -/
  pr2 : ℕ
  tmr2 : ℕ
  pr3 : ℕ
  tmr3 : ℕ
  /-- The PWM count, as the `int` that was stored. -/
  oc3rs : ℤ
  /-- The interrupt enable bit of Timer3. -/
  t3ie : Bool
  /-- The interrupt flag of Timer3. -/
  t3if : Bool
  /-- The count of the core timer. -/
  coreTimer : ℕ

/-! ## The PWM count -/

/-- The duty cycle in percent that `PWM_Set_DC` settles for. -/
def clampDuty (dc : ℚ) : ℚ :=
  let dc := if dc > 50 then 50 else dc
  if dc < 1 then 1 else dc

/-- The count for a duty cycle in percent, with a period of `period` counts. -/
def dutyCount (period : ℕ) (dc : ℚ) : ℤ := truncate (clampDuty dc * period / 100) - 1

/-- `PWM_Set_DC`. -/
def pwmSetDC (dc : ℚ) (d : Device) : Device :=
  { d with oc3rs := dutyCount (d.pr2 + 1) dc }

/-- The duty cycle of an 8-bit level: `level / 255.0 * 50`. -/
def levelDuty (b : Byte) : ℚ := (b.toNat : ℚ) / 255 * 50

theorem clampDuty_mem (dc : ℚ) : 1 ≤ clampDuty dc ∧ clampDuty dc ≤ 50 := by
  rw [clampDuty]
  split_ifs <;> constructor <;> linarith

/-- **The limits of the PWM count**: half the period, for any duty cycle asked for. -/
theorem dutyCount_bounds {period : ℕ} (h : 100 ≤ period) (dc : ℚ) :
    0 ≤ dutyCount period dc ∧ 2 * (dutyCount period dc + 1) ≤ period := by
  obtain ⟨h1, h50⟩ := clampDuty_mem dc
  have hp : (100 : ℚ) ≤ period := by exact_mod_cast h
  have hlow : (1 : ℚ) ≤ clampDuty dc * period / 100 := by
    rw [le_div_iff₀ (by norm_num)]
    nlinarith
  have hhigh : clampDuty dc * period / 100 ≤ (period : ℚ) / 2 := by
    rw [div_le_div_iff₀ (by norm_num) (by norm_num)]
    nlinarith
  have hnonneg : (0 : ℚ) ≤ clampDuty dc * period / 100 := by linarith
  simp only [dutyCount, truncate_of_nonneg hnonneg]
  refine ⟨by have := Int.le_floor.2 (show ((1 : ℤ) : ℚ) ≤ _ by exact_mod_cast hlow); omega, ?_⟩
  have hfloor : (⌊clampDuty dc * period / 100⌋ : ℚ) ≤ period / 2 := (Int.floor_le _).trans hhigh
  have hint : 2 * (⌊clampDuty dc * period / 100⌋ : ℚ) ≤ period := by linarith
  have hint' : 2 * ⌊clampDuty dc * period / 100⌋ ≤ (period : ℤ) := by exact_mod_cast hint
  omega

theorem clampDuty_levelDuty (b : Byte) :
    clampDuty (levelDuty b) = if b.toNat * 50 < 255 then 1 else levelDuty b := by
  have hb : (b.toNat : ℚ) ≤ 255 := by exact_mod_cast Nat.le_of_lt_succ b.toNat_lt
  have h50 : ¬ levelDuty b > 50 := by
    rw [levelDuty]
    linarith
  have hlt : levelDuty b < 1 ↔ b.toNat * 50 < 255 := by
    rw [levelDuty, div_mul_eq_mul_div, div_lt_one (by norm_num)]
    exact_mod_cast Iff.rfl
  simp only [clampDuty, h50, if_false, hlt]

/-- **The PWM count of an 8-bit level**, in integers. -/
theorem dutyCount_level (period : ℕ) (b : Byte) :
    dutyCount period (levelDuty b) =
      (if b.toNat * 50 < 255 then period / 100 else b.toNat * period / 510 : ℕ) - 1 := by
  rw [dutyCount, clampDuty_levelDuty]
  split_ifs with h
  · rw [one_mul, show (100 : ℚ) = ((100 : ℕ) : ℚ) by norm_num, truncate_natCast_div]
  · rw [← truncate_natCast_div, levelDuty]
    congr 2
    push_cast
    ring

/-! ## Timers and initialisation -/

/-- A store to a 16-bit period register. -/
def storePeriod (z : ℤ) : ℕ := lowBits 16 z

theorem storePeriod_pred {z : ℤ} (h1 : 1 ≤ z) (h : z ≤ 65536) : (storePeriod (z - 1) : ℤ) = z - 1 :=
  lowBits_of_lt (by omega) (by norm_num; omega)

/-- `setTimer2`. -/
def setTimer2 (freq : ℤ) (d : Device) : Device :=
  { d with pr2 := storePeriod (sysFreq.tdiv freq - 1), tmr2 := 0 }

/-- `setupTimer3`; it leaves the interrupt of the timer disabled. -/
def setupTimer3 (freq : ℤ) (d : Device) : Device :=
  { d with pr3 := storePeriod (sysFreq.tdiv freq - 1), tmr3 := 0, t3if := false }

/-- `pauseTimer3`. -/
def pauseTimer3 (d : Device) : Device := { d with t3ie := false }

/-- `resumeTimer3`. -/
def resumeTimer3 (d : Device) : Device := { d with tmr3 := 0, t3ie := true }

/-- `WriteCoreTimer`. -/
def writeCoreTimer (n : ℕ) (d : Device) : Device := { d with coreTimer := n }

/-- `initPWM`. -/
def initPWM (d : Device) : Device := pwmSetDC 0 { d with oc3rs := 0 }

/-- Globals and registers after reset. -/
def reset : Device where
  tpadMag := 0
  incoming := 0
  tBuff := { buff := fun _ _ => 0, front := 0, index := 0, length := fun _ => 0, on := 0 }
  pr2 := 0
  tmr2 := 0
  pr3 := 0
  tmr3 := 0
  oc3rs := 0
  t3ie := false
  t3if := false
  coreTimer := 0

/-- The initialisation of `tBuff` in `main`. -/
def initTexture (d : Device) : Device :=
  { d with tBuff :=
    { buff := fun _ _ => 0, front := 0, index := 0, length := fun _ => 0, on := 0 } }

/-- The device when `main` enters its loop. -/
def boot : Device := initTexture (initPWM (setupTimer3 bufferFreq (setTimer2 outputFreq reset)))

theorem boot_pr2 : boot.pr2 = 1193 := by decide

theorem boot_oc3rs : boot.oc3rs = 10 := by
  have h : boot.oc3rs = dutyCount 1194 (levelDuty 0) := by
    rw [show levelDuty 0 = 0 by norm_num [levelDuty]]
    rfl
  rw [h, dutyCount_level]
  decide

end TPadFire.Firmware
