import Mathlib.Data.Fin.Tuple.Basic
import Mathlib.Data.List.FinRange
import TPadFire.Foundations.Convert

/-!
# The number rings of the combination lock

`ComboRing` of `ComboChooseView`: a ring of ten numbers, 100 pixels apart on a circumference of
1000. The finger drags the ring (`rollover`), and without the finger it returns to the number that
was selected eight frames ago (`drawit`). `update` places the numbers for an angle, and selects
those in the band around the centre. `ang` is a `float`, read as a rational number.

Of the ten numbers at most one is in the band: the one that `inBand_position` names, when the angle
is above -900 (`update_of_selected`), and none below (`update_of_not_selected`).
-/

namespace TPadFire.Views

/-- What a frame reads of the view: `Fing`, `Fing_old.y`, `touching` and `touchlast`. -/
structure ComboFrame where
  fingX : ℚ
  fingY : ℚ
  fingOldY : ℚ
  touching : Bool
  touchlast : Bool

/-- A number ring: `nums i` is the height of the number `i`. -/
structure ComboRing where
  x : ℤ
  ang : ℚ
  within : Bool
  first : Bool
  currentnum : Fin 10
  yenter : ℚ
  angenter : ℚ
  pastnums : Fin 8 → Fin 10
  nums : Fin 10 → ℤ

namespace ComboRing

/-! ## The constants of `ComboChooseView` -/

/-- `y` of every ring. -/
def ringY : ℤ := 250

/-- `w` of every ring. -/
def ringW : ℤ := 100

/-- `h` of every ring. -/
def ringH : ℤ := 500

/-- `circ` -/
def circ : ℚ := ringH * 2

/-- `numnums` -/
def numnums : ℚ := 10

/-- `nums[i].yoff` -/
def yoff (i : Fin 10) : ℤ := truncate (ringY + (numnums - ((i : ℕ) - 1)) * circ / numnums)

/-! ## The ring -/

/-- The height `update` computes for the number `i`. -/
def position (i : Fin 10) (ang : ℚ) : ℤ :=
  let z := yoff i + truncate ang
  let z := truncate (remainder z circ)
  if z < ringY - 20 then ringY + truncate circ else z

/-- The selection band around the centre. -/
def InBand (z : ℤ) : Prop :=
  (ringY + ringH / 2 : ℤ) - circ / (numnums * 2) < z ∧
    z ≤ (ringY + ringH / 2 : ℤ) + circ / (numnums * 2)

instance : DecidablePred InBand := fun _ => inferInstanceAs (Decidable (_ ∧ _))

/-- The index 0 of `pastnums`, of the number selected eight frames ago. -/
def oldest : Fin 8 := ⟨0, Nat.zero_lt_succ 7⟩

/-- `pastnums` one place on, with a new number at the end. -/
def shift (pastnums : Fin 8 → Fin 10) (i : Fin 10) : Fin 8 → Fin 10 :=
  Fin.snoc (α := fun _ => Fin 10) (Fin.tail pastnums) i

/-- The body of the loop of `update`. -/
def place (r : ComboRing) (i : Fin 10) : ComboRing :=
  let r := { r with nums := Function.update r.nums i (position i r.ang) }
  if InBand (r.nums i) then { r with currentnum := i, pastnums := shift r.pastnums i } else r

/-- `update` -/
def update (r : ComboRing) : ComboRing := (List.finRange 10).foldl place r

/-- The constructor. -/
def new (x : ℤ) : ComboRing where
  x := x
  ang := 1150
  within := false
  first := false
  currentnum := 0
  yenter := 0
  angenter := 0
  pastnums := fun _ => 0
  nums i := ringY + yoff i

/-- `withinarea` -/
def withinarea (r : ComboRing) (f : ComboFrame) : ComboRing :=
  let within : Bool := r.x < f.fingX ∧ f.fingX ≤ r.x + ringW ∧ f.touching
  { r with within := within, first := within && !r.within }

/-- `rollover` -/
def rollover (r : ComboRing) (yin : ℤ) (f : ComboFrame) : ComboRing :=
  let r := if r.first then { r with yenter := yin * (3 / 2), angenter := r.ang } else r
  let r := if f.fingOldY ≠ 0 then
      let ang := remainder (r.angenter + f.fingY * (3 / 2) - r.yenter) circ
      { r with ang := if ang < ringY then ang + circ else ang }
    else r
  r.update

/-- The return to home. The two branches of the source move the ring in the same way. -/
def returnHome (r : ComboRing) (f : ComboFrame) : ComboRing :=
  let r := if f.touchlast && !f.touching then { r with currentnum := r.pastnums oldest } else r
  let r := { r with ang := r.ang + 1 / 4 * (ringY + ringH / 2 - r.nums r.currentnum : ℤ) }
  r.update

/-- `drawit`, for the `version` 1 that `ComboChooseView` constructs. -/
def drawit (r : ComboRing) (f : ComboFrame) : ComboRing :=
  let r := r.withinarea f
  if r.within then r.rollover (truncate f.fingY) f else r.returnHome f

/-! ## Where the numbers are -/

theorem yoff_eq (i : Fin 10) : yoff i = 1350 - 100 * (i : ℕ) := by
  have hcirc : (ringY : ℚ) + (numnums - ((i : ℕ) - 1)) * circ / numnums =
      ((1350 - 100 * (i : ℕ) : ℤ) : ℚ) := by
    rw [ringY, numnums, circ, ringH]
    push_cast
    ring
  rw [yoff, hcirc, truncate_intCast]

/-- The offset and the angle added up, on the circle; off the screen and before the first turn the
number is parked at 1250. -/
theorem position_eq (i : Fin 10) (ang : ℚ) :
    position i ang = if 1350 - 100 * (i : ℕ) + truncate ang < 230 ∨
        (1350 - 100 * (i : ℕ) + truncate ang) % 1000 < 230 then 1250
      else (1350 - 100 * (i : ℕ) + truncate ang) % 1000 := by
  have hcirc : circ = (1000 : ℕ) := by
    rw [circ, ringH]
    norm_num
  have hpark : ringY + truncate circ = 1250 := by
    rw [hcirc, ← Int.cast_natCast, truncate_intCast, ringY]
    rfl
  rw [position, hpark]
  simp only [yoff_eq, ringY]
  rw [hcirc, remainder_intCast, truncate_intCast, Nat.cast_ofNat]
  rcases le_total 0 (1350 - 100 * (i : ℕ) + truncate ang) with hz | hz
  · rw [Int.tmod_eq_emod_of_nonneg hz]
    split_ifs <;> omega
  · have hmod := Int.tmod_nonneg 1000 (neg_nonneg.2 hz)
    rw [Int.neg_tmod] at hmod
    split_ifs <;> omega

theorem inBand_iff (z : ℤ) : InBand z ↔ 450 < z ∧ z ≤ 550 := by
  have hlow : ((ringY + ringH / 2 : ℤ) : ℚ) - circ / (numnums * 2) = (450 : ℤ) := by
    rw [ringY, ringH, circ, numnums, ringH]
    norm_num
  have hhigh : ((ringY + ringH / 2 : ℤ) : ℚ) + circ / (numnums * 2) = (550 : ℤ) := by
    rw [ringY, ringH, circ, numnums, ringH]
    norm_num
  rw [InBand, hlow, hhigh, Int.cast_lt, Int.cast_le]

/-- The number that is in the band, when there is one. -/
def selection (ang : ℚ) : Fin 10 := Fin.ofNat 10 ((899 + truncate ang) / 100).toNat

/-- **One number in the band.** From -899 up the angle, cut to an integer, puts exactly one number
into the band, and below it none. -/
theorem inBand_position (i : Fin 10) (ang : ℚ) :
    InBand (position i ang) ↔ -899 ≤ truncate ang ∧ i = selection ang := by
  have hi := i.isLt
  have hval : i = selection ang ↔ (i : ℕ) = ((899 + truncate ang) / 100).toNat % 10 := by
    rw [Fin.ext_iff]
    rfl
  rw [inBand_iff, position_eq, hval]
  split_ifs <;> omega

/-! ## What `update` does -/

theorem place_eq (r : ComboRing) (i : Fin 10) :
    r.place i = { r with
      nums := Function.update r.nums i (position i r.ang)
      currentnum := if InBand (position i r.ang) then i else r.currentnum
      pastnums := if InBand (position i r.ang) then shift r.pastnums i else r.pastnums } := by
  rw [place]
  simp only [Function.update_self]
  split_ifs <;> rfl

/-- The loop over any numbers selects those in the band, in order. -/
theorem foldl_place (is : List (Fin 10)) (r : ComboRing) :
    is.foldl place r = { r with
      nums := fun i => if i ∈ is then position i r.ang else r.nums i
      currentnum := (is.filter fun i => InBand (position i r.ang)).getLastD r.currentnum
      pastnums := (is.filter fun i => InBand (position i r.ang)).foldl shift r.pastnums } := by
  induction is generalizing r with
  | nil => rfl
  | cons j is ih =>
    rw [List.foldl_cons, ih, place_eq]
    have hnums : (fun i => if i ∈ is then position i r.ang
        else Function.update r.nums j (position j r.ang) i) =
        fun i => if i ∈ j :: is then position i r.ang else r.nums i := by
      funext i
      by_cases hij : i = j
      · subst hij
        simp
      · simp [hij]
    simp only [hnums, List.filter_cons]
    by_cases hj : InBand (position j r.ang)
    · simp only [hj, if_true, decide_true, List.getLastD_cons, List.foldl_cons]
    · simp only [hj, if_false, decide_false, Bool.false_eq_true]

/-- The numbers that `update` selects. -/
theorem filter_inBand (ang : ℚ) :
    ((List.finRange 10).filter fun i => InBand (position i ang)) =
      if -899 ≤ truncate ang then [selection ang] else [] := by
  have hone : ∀ a : Fin 10, (List.finRange 10).filter (· = a) = [a] := by decide
  split_ifs with h
  · rw [← hone (selection ang)]
    refine List.filter_congr fun i _ => ?_
    rw [decide_eq_decide, inBand_position]
    exact and_iff_right h
  · refine List.filter_eq_nil_iff.2 fun i _ => ?_
    rw [decide_eq_true_eq, inBand_position]
    exact fun hsel => h hsel.1

theorem update_of_selected {r : ComboRing} (h : -899 ≤ truncate r.ang) :
    r.update = { r with
      nums := fun i => position i r.ang
      currentnum := selection r.ang
      pastnums := shift r.pastnums (selection r.ang) } := by
  rw [update, foldl_place, filter_inBand, if_pos h]
  simp

theorem update_of_not_selected {r : ComboRing} (h : truncate r.ang < -899) :
    r.update = { r with nums := fun i => position i r.ang } := by
  rw [update, foldl_place, filter_inBand, if_neg (by omega)]
  simp

@[simp] theorem update_ang (r : ComboRing) : r.update.ang = r.ang := by
  rw [update, foldl_place]

@[simp] theorem update_nums (r : ComboRing) (i : Fin 10) :
    r.update.nums i = position i r.ang := by
  rw [update, foldl_place]
  simp

@[simp] theorem update_currentnum (r : ComboRing) :
    r.update.currentnum = if -899 ≤ truncate r.ang then selection r.ang else r.currentnum := by
  split_ifs with h
  · rw [update_of_selected h]
  · rw [update_of_not_selected (by omega)]

/-- An angle above -900 selects. -/
theorem selected_iff {ang : ℚ} : -899 ≤ truncate ang ↔ -900 < ang := by
  rw [le_truncate_iff (by norm_num)]
  norm_num

end ComboRing

end TPadFire.Views
