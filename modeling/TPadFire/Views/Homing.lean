import Mathlib.Logic.Function.Iterate
import TPadFire.Foundations.Approach
import TPadFire.Views.Drag

/-!
# A released number ring

Without a finger, every frame turns the ring by a quarter of the distance of the selected number
from the centre. On the way back the ring approaches the angle at which that number is centred, and
rests there. A number at the upper end of the circle is parked at 1250, below the band, and turns
the ring the other way; that ends when another number is selected, which happens as long as the
angle stays above -900. A ring that is left lower than -712.5 with its number parked never comes to
rest (`released_iff`).
-/

namespace TPadFire.Views.ComboRing

/-- A frame without a finger on the screen. -/
def idle (f : ComboFrame) (r : ComboRing) : ComboRing :=
  r.drawit { f with touching := false, touchlast := false }

/-- The first frame without the finger. -/
def release (f : ComboFrame) (r : ComboRing) : ComboRing :=
  r.drawit { f with touching := false, touchlast := true }

/-- The selected number is in the centre, and the ring does not move any more. -/
def AtRest (f : ComboFrame) (r : ComboRing) : Prop :=
  r.nums r.currentnum = ringY + ringH / 2 ∧ ∀ n, ((idle f)^[n] r).ang = r.ang ∧
    ((idle f)^[n] r).currentnum = r.currentnum ∧ ((idle f)^[n] r).nums = r.nums

/-- The numbers stand where the angle puts them. -/
def Placed (r : ComboRing) : Prop := ∀ i, r.nums i = position i r.ang

variable {f : ComboFrame} {r : ComboRing} {i : Fin 10} {q : ℚ}

/-! ## One frame -/

theorem withinarea_untouched (h : f.touching = false) :
    r.withinarea f = { r with within := false, first := false } := by
  rw [withinarea]
  simp [h]

theorem idle_eq :
    idle f r = ({ r with
      within := false
      first := false
      ang := r.ang + 1 / 4 * (500 - r.nums r.currentnum : ℤ) } : ComboRing).update := by
  rw [idle, drawit, withinarea_untouched rfl]
  rfl

theorem release_eq : release f r = idle f { r with currentnum := r.pastnums oldest } := by
  rw [idle_eq, release, drawit, withinarea_untouched rfl]
  rfl

theorem idle_placed : (idle f r).Placed := fun i => by
  rw [idle_eq, update_nums, update_ang]

theorem idle_currentnum :
    (idle f r).currentnum =
      if -899 ≤ truncate (idle f r).ang then selection (idle f r).ang else r.currentnum := by
  rw [idle_eq, update_currentnum, update_ang]

/-- The angle after a frame: the ring approaches the one that centres the selected number. -/
theorem idle_ang (hr : r.Placed) {target : ℤ}
    (htarget : position r.currentnum r.ang = 500 + truncate r.ang - target) :
    (idle f r).ang = approach (1 / 4) target r.ang := by
  rw [idle_eq, update_ang, hr, htarget, approach]
  dsimp only
  congr 3
  omega

/-! ## Where the selected number goes -/

theorem position_cases (i : Fin 10) (q : ℚ) :
    230 ≤ position i q ∧ position i q < 1000 ∨ position i q = 1250 := by
  rw [position_eq]
  split_ifs <;> omega

/-- As long as it stays on the circle a number moves with the angle. -/
theorem position_move (q' : ℚ) (h : position i q < 1000)
    (hlow : 230 ≤ position i q + (truncate q' - truncate q))
    (hhigh : position i q + (truncate q' - truncate q) < 1000) :
    position i q' = position i q + (truncate q' - truncate q) := by
  rw [position_eq] at h hlow hhigh ⊢
  rw [position_eq i q]
  split_ifs at h hlow hhigh ⊢ <;> omega

/-- A frame brings the selected number nearer to the centre, and not past it. -/
theorem idle_position (hr : r.Placed) {target : ℤ}
    (htarget : position r.currentnum r.ang = 500 + truncate r.ang - target)
    (h : position r.currentnum r.ang < 1000) :
    position r.currentnum (idle f r).ang = 500 + truncate (idle f r).ang - target ∧
      min (position r.currentnum r.ang) 500 ≤ position r.currentnum (idle f r).ang ∧
      position r.currentnum (idle f r).ang ≤ max (position r.currentnum r.ang) 500 := by
  have hang := idle_ang (f := f) hr htarget
  have hcases := position_cases r.currentnum r.ang
  have hbetween : min (truncate r.ang) target ≤ truncate (idle f r).ang ∧
      truncate (idle f r).ang ≤ max (truncate r.ang) target := by
    rw [hang]
    rcases le_total (truncate r.ang) target with hle | hle
    · have hmove := approach_le (c := 1 / 4) (by norm_num) (by norm_num) hle
      omega
    · have hmove := le_approach (c := 1 / 4) (by norm_num) (by norm_num) hle
      omega
  rw [position_move (idle f r).ang h (by omega) (by omega)]
  omega

/-! ## Coming to rest -/

/-- The ring comes to rest after some frames. -/
def Rests (f : ComboFrame) (r : ComboRing) : Prop := ∃ n, AtRest f ((idle f)^[n] r)

theorem AtRest.idle (h : AtRest f r) : AtRest f (r.idle f) := by
  obtain ⟨hnum, hsame⟩ := h
  obtain ⟨hang, hcur, hnums⟩ := hsame 1
  rw [Function.iterate_one] at hang hcur hnums
  refine ⟨by rw [hnums, hcur, hnum], fun n => ?_⟩
  rw [← Function.iterate_succ_apply, hang, hcur, hnums]
  exact hsame (n + 1)

theorem rests_idle_iff : Rests f (r.idle f) ↔ Rests f r := by
  constructor
  · rintro ⟨n, hn⟩
    exact ⟨n + 1, hn⟩
  · rintro ⟨n, hn⟩
    refine ⟨n, ?_⟩
    rw [← Function.iterate_succ_apply, Function.iterate_succ_apply']
    exact hn.idle

/-- With the selected number in the centre nothing moves. -/
theorem atRest_of_centred (hr : r.Placed) (h : position r.currentnum r.ang = 500) :
    AtRest f r := by
  refine ⟨by rw [hr, h]; rfl, fun n => ?_⟩
  induction n generalizing r with
  | zero => exact ⟨rfl, rfl, rfl⟩
  | succ n ih =>
    have herror : position r.currentnum r.ang = 500 + truncate r.ang - truncate r.ang := by omega
    have hang : (r.idle f).ang = r.ang := by
      rw [idle_ang hr herror, approach_of_eq rfl]
    have hsel := (inBand_position r.currentnum r.ang).1 ((inBand_iff _).2 (by omega))
    have hcur : (r.idle f).currentnum = r.currentnum := by
      rw [idle_currentnum, hang, if_pos hsel.1, ← hsel.2]
    have hnums : (r.idle f).nums = r.nums := funext fun i => by
      rw [idle_placed, hang, hr]
    have hnext := ih idle_placed (by rw [hcur, hang, h])
    rwa [hang, hcur, hnums] at hnext

theorem rests_of_centred (hr : r.Placed) (h : position r.currentnum r.ang = 500) : Rests f r :=
  ⟨0, atRest_of_centred hr h⟩

/-- **Induction on the way home.** A frame of a ring whose selected number is on the screen either
selects another number, or leaves the ring nearer to the angle that centres it. -/
theorem homing_induction {P : ComboRing → Prop}
    (hcentred : ∀ r : ComboRing, r.Placed → position r.currentnum r.ang = 500 → P r)
    (hstep : ∀ r : ComboRing, r.Placed →
      min (position r.currentnum r.ang) 500 ≤ position r.currentnum (r.idle f).ang →
      position r.currentnum (r.idle f).ang ≤ max (position r.currentnum r.ang) 500 →
      ((r.idle f).currentnum = r.currentnum → P (r.idle f)) → P r)
    (hr : r.Placed) (h : position r.currentnum r.ang < 1000) : P r := by
  obtain ⟨target, htarget⟩ : ∃ target,
      position r.currentnum r.ang = 500 + truncate r.ang - target :=
    ⟨500 + truncate r.ang - position r.currentnum r.ang, by omega⟩
  obtain ⟨q, hq⟩ : ∃ q, r.ang = q := ⟨_, rfl⟩
  induction q using approach_induction (c := 1 / 4) (by norm_num) (by norm_num) target
    generalizing r with
  | hreached q hreached =>
    rw [hq, hreached] at htarget
    exact hcentred r hr (by rw [hq]; omega)
  | hstep q _ ih =>
    obtain ⟨htarget', hlow, hhigh⟩ := idle_position (f := f) hr htarget h
    rw [← hq, ← idle_ang (f := f) hr htarget] at ih
    refine hstep r hr hlow hhigh fun hcur => ih idle_placed ?_ ?_ rfl
    · rw [hcur]
      omega
    · rwa [hcur]

/-- With the selected number in the band the ring comes to rest: the number stays selected. -/
theorem rests_of_inBand (hr : r.Placed) (h : InBand (position r.currentnum r.ang)) :
    Rests f r := by
  have hlt := (inBand_iff _).1 h
  refine homing_induction (f := f)
    (P := fun r => InBand (position r.currentnum r.ang) → Rests f r) ?_ ?_ hr (by omega) h
  · intro r hr hcentre _
    exact rests_of_centred hr hcentre
  · intro r _ hlow hhigh ih h
    rw [inBand_iff] at h
    have hband : InBand (position r.currentnum (r.idle f).ang) := (inBand_iff _).2 (by omega)
    obtain ⟨hsel, hcur⟩ := (inBand_position _ _).1 hband
    have hcur' : (r.idle f).currentnum = r.currentnum := by
      rw [idle_currentnum, if_pos hsel, ← hcur]
    rw [← rests_idle_iff]
    exact ih hcur' (by rwa [hcur'])

theorem rests_of_selected (h : -899 ≤ truncate (r.idle f).ang) : Rests f r := by
  rw [← rests_idle_iff]
  refine rests_of_inBand idle_placed ((inBand_position _ _).2 ⟨h, ?_⟩)
  rw [idle_currentnum, if_pos h]

/-- With the selected number on the screen the ring comes to rest. -/
theorem rests_of_lt (hr : r.Placed) (h : position r.currentnum r.ang < 1000) : Rests f r := by
  refine homing_induction (f := f) (fun r hr hcentre => rests_of_centred hr hcentre) ?_ hr h
  · intro r hr _ _ ih
    rcases lt_or_ge (truncate (r.idle f).ang) (-899) with hnone | hsel
    · rw [← rests_idle_iff]
      exact ih (by rw [idle_currentnum, if_neg (by omega)])
    · exact rests_of_selected hsel

/-! ## Running away -/

/-- The selected number is parked, and the next frame turns the ring too low to select another. -/
structure Away (r : ComboRing) : Prop where
  placed : r.Placed
  ang_le : r.ang ≤ -1425 / 2
  parked : yoff r.currentnum + truncate r.ang < ringY - 20

theorem position_of_parked (h : yoff i + truncate q < ringY - 20) : position i q = 1250 := by
  rw [yoff_eq, ringY] at h
  rw [position_eq, if_pos (Or.inl (by omega))]

/-- With the number parked a frame turns the ring down by a quarter of 750. -/
theorem idle_ang_of_parked (hr : r.Placed) (h : position r.currentnum r.ang = 1250) :
    (r.idle f).ang = r.ang - 375 / 2 := by
  rw [idle_eq, update_ang, hr, h]
  push_cast
  ring

theorem Away.idle (h : Away r) : Away (r.idle f) := by
  have hang := idle_ang_of_parked (f := f) h.placed (position_of_parked h.parked)
  have hle := h.ang_le
  have hnone : ¬-899 ≤ truncate (r.idle f).ang := by
    rw [selected_iff, hang]
    linarith
  have hmono : truncate (r.idle f).ang ≤ truncate r.ang := truncate_mono (by rw [hang]; linarith)
  refine ⟨idle_placed, by rw [hang]; linarith, ?_⟩
  rw [idle_currentnum, if_neg hnone]
  exact lt_of_le_of_lt (by omega) h.parked

theorem Away.iterate (h : Away r) (n : ℕ) : Away ((ComboRing.idle f)^[n] r) := by
  induction n with
  | zero => exact h
  | succ n ih =>
    rw [Function.iterate_succ_apply']
    exact ih.idle

theorem Away.not_rests (h : Away r) : ¬Rests f r := by
  rintro ⟨n, hrest, -⟩
  have haway := h.iterate (f := f) n
  rw [haway.placed, position_of_parked haway.parked] at hrest
  exact absurd hrest (by decide)

/-- **When the way home ends.** The ring comes to rest unless its number is parked at an angle of
-712.5 or below. -/
theorem rests_iff (hr : r.Placed) :
    Rests f r ↔ ¬(r.ang ≤ -1425 / 2 ∧ yoff r.currentnum + truncate r.ang < ringY - 20) := by
  refine ⟨fun h haway => Away.not_rests ⟨hr, haway.1, haway.2⟩ h, fun h => ?_⟩
  rcases position_cases r.currentnum r.ang with ⟨-, hlt⟩ | hpark
  · exact rests_of_lt hr hlt
  · have hang : -1425 / 2 < r.ang := by
      by_contra hle
      have hlow : ¬-711 ≤ truncate r.ang := by
        rw [le_truncate_iff (by norm_num)]
        push_cast
        linarith
      refine h ⟨not_lt.1 hle, ?_⟩
      rw [position_eq] at hpark
      rw [yoff_eq, ringY]
      split_ifs at hpark <;> omega
    refine rests_of_selected ?_
    rw [selected_iff, idle_ang_of_parked hr hpark]
    linarith

/-! ## After a rollover -/

theorem rollover_placed (r : ComboRing) (yin : ℤ) (f : ComboFrame) : (r.rollover yin f).Placed :=
  fun i => by rw [rollover_eq, update_nums, update_ang]

theorem rollover_ang_of_eq {yin : ℤ} (h : f.fingOldY = 0) : (r.rollover yin f).ang = r.ang := by
  rw [rollover_eq, update_ang, rolled]
  simp only [h, ne_eq, not_true_eq_false, if_false]
  split_ifs <;> rfl

/-- **A released ring comes to rest**, with any history, unless the rollover kept an angle of
-712.5 or below, which it does when `Fing_old.y` is 0, and the number selected eight frames ago is
parked at that angle. -/
theorem released_iff (r : ComboRing) (yin : ℤ) (f : ComboFrame) (pastnums : Fin 8 → Fin 10)
    (g : ComboFrame) :
    (∃ n, AtRest g ((ComboRing.idle g)^[n]
      (release g { r.rollover yin f with pastnums := pastnums }))) ↔
    ¬(f.fingOldY = 0 ∧ r.ang ≤ -1425 / 2 ∧
      yoff (pastnums oldest) + truncate r.ang < ringY - 20) := by
  have hplaced : Placed { r.rollover yin f with
      pastnums := pastnums, currentnum := pastnums oldest } := rollover_placed r yin f
  have hrests := rests_iff (f := g) hplaced
  rw [release_eq]
  refine rests_idle_iff.trans (hrests.trans (not_congr ?_))
  dsimp only
  by_cases h : f.fingOldY = 0
  · rw [rollover_ang_of_eq h]
    exact (and_iff_right h).symm
  · have hpos := (rolled_mem r yin h).1
    rw [rollover_eq, update_ang]
    exact iff_of_false (fun hle => absurd hle.1 (by linarith)) fun hle => h hle.1

/-- The finger on the first ring at the height `y`, which is also where it was before. -/
def fingerAt (y : ℚ) : ComboFrame := ⟨150, y, y, true, true⟩

/-- The finger leaves the screen at the height `y`. -/
def liftedAt (y : ℚ) : ComboFrame := ⟨150, y, y, false, true⟩

/-- The ring after a drag up and six taps at the upper edge, but for the frame of the last tap. -/
def tapped : ComboRing :=
  (([800, 400, 400, 267, 267, 206, 206, 133, 206].map fingerAt) ++
    [liftedAt 206, fingerAt 0, liftedAt 0, fingerAt 0, liftedAt 0, fingerAt 0,
      liftedAt 0, fingerAt 0, liftedAt 0, fingerAt 0, liftedAt 0]).foldl drawit (new 100)

/-- The last tap leaves the ring at -866, and no frame after it brings the ring to rest. -/
theorem tapped_runs_away :
    let r := (tapped.withinarea (fingerAt 0)).rollover (truncate 0) (fingerAt 0)
    tapped.drawit (fingerAt 0) = r ∧ r.ang = -866 ∧
      ¬∃ n, AtRest (liftedAt 0) ((ComboRing.idle (liftedAt 0))^[n] (release (liftedAt 0) r)) := by
  intro r
  have hang : r.ang = -866 := by decide +kernel
  have hpast : r.pastnums oldest = 5 := by decide +kernel
  have hplaced : Placed { r with currentnum := r.pastnums oldest } := rollover_placed _ _ _
  have hparked : yoff 5 + truncate (-866) < ringY - 20 := by decide +kernel
  refine ⟨drawit_of_within (by decide +kernel), hang, ?_⟩
  rw [release_eq]
  refine mt rests_idle_iff.1 (Away.not_rests ⟨hplaced, ?_, ?_⟩)
  · change r.ang ≤ _
    rw [hang]
    norm_num
  · change yoff (r.pastnums oldest) + truncate r.ang < _
    rw [hang, hpast]
    exact hparked

end TPadFire.Views.ComboRing
