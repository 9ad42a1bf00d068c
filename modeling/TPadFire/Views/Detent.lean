import TPadFire.Host.TPad
import TPadFire.Views.Drag

/-!
# The detents of the combination lock

`ComboChoose` draws four rings and leaves a friction for the TPad: a detent for every number of the
current ring, by the remainder of its angle by 100, and full friction beside the rings and at the
borders between them. The rise at the end of a remainder is 34 pixels long and divided by 33, so the
friction is above 1 at a remainder between 99 and 100 (`detent_iff`), and the byte that
`generateMag` makes of it can wrap to almost none (`detent_wraps`).
-/

namespace TPadFire.Views

open Host (generateMag generateMag_eq level level_eq toNat_level)
open Firmware (Byte commandMag)

/-- The combination lock. -/
structure ComboChoose where
  comboringarr : Fin 4 → ComboRing
  curring : Fin 4
  currentnum : ℤ

namespace ComboChoose

/-- `x` -/
def chooseX : ℤ := 100

/-- `w` -/
def chooseW : ℤ := 400

/-- `numring` -/
def numring : ℕ := 4

/-- `ringw` -/
def ringw : ℤ := chooseW / numring

/-- The constructor. -/
def new : ComboChoose where
  comboringarr i := ComboRing.new (chooseX + ringw * (i : ℕ))
  curring := 1
  currentnum := 0

/-- The body of the loop of `drawit`. The current ring is the one that the finger was within at the
frame before. -/
def drawRing (f : ComboFrame) (k : ComboChoose) (i : Fin 4) : ComboChoose :=
  let currentnum := k.currentnum + (k.comboringarr i).currentnum * 10 ^ (numring - 1 - (i : ℕ))
  let curring := if (k.comboringarr i).within then i else k.curring
  { comboringarr := Function.update k.comboringarr i ((k.comboringarr i).drawit f)
    curring := curring
    currentnum := currentnum }

/-- The detent for the angle of the current ring. -/
def detent (touching : Bool) (ang : ℚ) : ℚ :=
  let rel := remainder ang 100
  if !touching then 0
  else if rel > 66 then (rel - 66) / 33
  else if rel < 33 then 1 - rel / 33
  else 0

/-- The finger is beside the rings. -/
def Beside (f : ComboFrame) : Prop := f.fingX < chooseX ∨ f.fingX > chooseX + chooseW

/-- The finger is at the border on the left of the ring `i`. -/
def AtBorder (f : ComboFrame) (i : ℕ) : Prop :=
  f.fingX > chooseX + i * ringw - 10 / 2 ∧ f.fingX < chooseX + i * ringw + 10 / 2

instance : DecidablePred Beside := fun _ => inferInstanceAs (Decidable (_ ∨ _))

instance (f : ComboFrame) : DecidablePred (AtBorder f) :=
  fun _ => inferInstanceAs (Decidable (_ ∧ _))

/-- The friction for the angle of the current ring. -/
def friction (f : ComboFrame) (ang : ℚ) : ℚ :=
  let friction := detent f.touching ang
  let friction := if Beside f then 1 else friction
  (List.range' 1 (numring - 1)).foldl (fun friction i => if AtBorder f i then 1 else friction)
    friction

/-- `drawit`, with the friction it leaves. -/
def drawit (k : ComboChoose) (f : ComboFrame) : ComboChoose × ℚ :=
  let k := (List.finRange 4).foldl (drawRing f) { k with currentnum := 1000000 }
  (k, friction f (k.comboringarr k.curring).ang)

/-! ## The friction -/

variable {f : ComboFrame} {ang : ℚ}

/-- The finger is where the friction is full whatever the angle. -/
def Full (f : ComboFrame) : Prop := Beside f ∨ ∃ i ∈ List.range' 1 (numring - 1), AtBorder f i

instance : DecidablePred Full := fun _ => inferInstanceAs (Decidable (_ ∨ _))

theorem foldl_border (is : List ℕ) (friction : ℚ) :
    is.foldl (fun friction i => if AtBorder f i then 1 else friction) friction =
      if ∃ i ∈ is, AtBorder f i then 1 else friction := by
  induction is generalizing friction with
  | nil => simp
  | cons i is ih =>
    rw [List.foldl_cons, ih]
    by_cases hi : AtBorder f i
    · simp [hi]
    · simp [hi]

theorem friction_eq : friction f ang = if Full f then 1 else detent f.touching ang := by
  rw [friction, foldl_border]
  by_cases hborder : ∃ i ∈ List.range' 1 (numring - 1), AtBorder f i
  · have hfull : Full f := Or.inr hborder
    rw [if_pos hborder, if_pos hfull]
  · by_cases hbeside : Beside f
    · have hfull : Full f := Or.inl hbeside
      rw [if_neg hborder, if_pos hbeside, if_pos hfull]
    · have hfull : ¬Full f := not_or.2 ⟨hbeside, hborder⟩
      rw [if_neg hborder, if_neg hbeside, if_neg hfull]

/-- The detent of a positive angle is between 0 and 1 up to a remainder of 99. -/
theorem detent_mem_iff {touching : Bool} (h : 0 < ang) :
    (0 ≤ detent touching ang ∧ detent touching ang ≤ 1) ↔
      ¬(touching ∧ 99 < remainder ang 100) := by
  obtain ⟨h0, -⟩ := remainder_bounds h.le (b := 100) (by norm_num)
  cases touching with
  | false => simp [detent]
  | true =>
    rw [detent]
    simp only [Bool.not_true, Bool.false_eq_true, if_false, true_and, not_lt]
    split_ifs with hrise hfall
    · rw [div_le_one (by norm_num)]
      refine ⟨fun hmem => by linarith [hmem.2], fun hle => ⟨?_, by linarith⟩⟩
      exact div_nonneg (by linarith) (by norm_num)
    · have hpart : remainder ang 100 / 33 ≤ 1 := by
        rw [div_le_one (by norm_num)]
        exact hfall.le
      have hpart' := div_nonneg h0 (by norm_num : (0 : ℚ) ≤ 33)
      exact iff_of_true ⟨by linarith, by linarith⟩ (by linarith)
    · exact iff_of_true ⟨le_rfl, zero_le_one⟩ (by linarith)

/-! ## On the way to the device -/

/-- The friction is from 0 to 1, and `generateMag` sends that part of 255, no more for less
friction. -/
structure Encoded (q : ℚ) : Prop where
  nonneg : 0 ≤ q
  le_one : q ≤ 1
  byte : ∃ b : Byte, generateMag q = some [commandMag, b] ∧ (b.toNat : ℤ) = ⌊255 * q⌋
  grows : ∀ q' b b', 0 ≤ q' → q' ≤ q → generateMag q = some [commandMag, b] →
    generateMag q' = some [commandMag, b'] → b' ≤ b

theorem byte_level {q : ℚ} (h0 : 0 ≤ q) (h1 : q ≤ 1) :
    ((UInt8.ofNat (level q)).toNat : ℤ) = ⌊255 * q⌋ := by
  rw [toNat_level h1, level_eq h0]

/-- From 0 to 1 nothing wraps. -/
theorem encoded_iff {q : ℚ} : Encoded q ↔ 0 ≤ q ∧ q ≤ 1 := by
  refine ⟨fun h => ⟨h.nonneg, h.le_one⟩, fun ⟨h0, h1⟩ =>
    ⟨h0, h1, ⟨_, generateMag_eq h0 h1, byte_level h0 h1⟩, ?_⟩⟩
  intro q' b b' h0' hle hb hb'
  rw [generateMag_eq h0 h1] at hb
  rw [generateMag_eq h0' (hle.trans h1)] at hb'
  cases hb
  cases hb'
  rw [UInt8.le_iff_toNat_le]
  have hlevel := byte_level h0 h1
  have hlevel' := byte_level h0' (hle.trans h1)
  have hmono : ⌊255 * q'⌋ ≤ ⌊255 * q⌋ := Int.floor_mono (by linarith)
  omega

/-- **The detent force reaches the device.** For every angle that a rollover leaves, the friction
that `drawit` leaves is sent as it is meant unless the finger touches the ring, not at a border,
where the remainder of the angle is above 99. -/
theorem detent_iff (k : ComboChoose) (f : ComboFrame) :
    let ring := (k.drawit f).1.comboringarr (k.drawit f).1.curring
    0 < ring.ang → ring.ang < ComboRing.ringY + ComboRing.circ →
      (Encoded (k.drawit f).2 ↔ ¬(f.touching ∧ ¬Full f ∧ 99 < remainder ring.ang 100)) := by
  intro ring hpos _
  have hfriction : (k.drawit f).2 = if Full f then 1 else detent f.touching ring.ang := friction_eq
  rw [encoded_iff, hfriction]
  split_ifs with hfull
  · exact iff_of_true ⟨zero_le_one, le_rfl⟩ fun h => h.2.1 hfull
  · rw [detent_mem_iff hpos]
    exact not_congr ⟨fun h => ⟨h.1, hfull, h.2⟩, fun h => ⟨h.1, h.2.2⟩⟩

/-- The finger at the height `y`, 50 pixels into the second ring. -/
def onSecond (y : ℚ) : ComboFrame := ⟨250, y, y, true, true⟩

/-- The finger comes down on the second ring, at an angle of 1150, where no friction is left. -/
theorem detent_iff_down :
    let k := (new.drawit (onSecond 800)).1
    (0 < (k.comboringarr k.curring).ang ∧
      (k.comboringarr k.curring).ang < ComboRing.ringY + ComboRing.circ) ∧
      Encoded (new.drawit (onSecond 800)).2 := by
  have hang : 0 < ((new.drawit (onSecond 800)).1.comboringarr
        (new.drawit (onSecond 800)).1.curring).ang ∧
      ((new.drawit (onSecond 800)).1.comboringarr
        (new.drawit (onSecond 800)).1.curring).ang < ComboRing.ringY + ComboRing.circ := by
    decide +kernel
  have hrel : ¬99 < remainder ((new.drawit (onSecond 800)).1.comboringarr
      (new.drawit (onSecond 800)).1.curring).ang 100 := by decide +kernel
  exact ⟨hang, (detent_iff new (onSecond 800) hang.1 hang.2).2 fun h => hrel h.2.2⟩

/-- The finger comes down on the second ring, and moves on by 33 pixels: the friction is 67/66, and
the byte that is sent is 2. -/
theorem detent_wraps :
    let k := (new.drawit (onSecond 800)).1
    let k' := (k.drawit (onSecond 833)).1
    (k'.comboringarr k'.curring).ang = 2399 / 2 ∧ (k.drawit (onSecond 833)).2 = 67 / 66 ∧
      generateMag (k.drawit (onSecond 833)).2 = some [commandMag, 2] ∧
      ¬Encoded (k.drawit (onSecond 833)).2 := by
  intro k k'
  have hfriction : (k.drawit (onSecond 833)).2 = 67 / 66 := by decide +kernel
  have hbyte : generateMag (67 / 66) = some [commandMag, 2] := by decide +kernel
  have hang : (k'.comboringarr k'.curring).ang = 2399 / 2 := by decide +kernel
  refine ⟨hang, hfriction, by rw [hfriction, hbyte], fun h => ?_⟩
  have hle := h.le_one
  rw [hfriction] at hle
  norm_num at hle

end ComboChoose

end TPadFire.Views
