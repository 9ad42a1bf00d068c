import Mathlib.Data.List.DropRight
import TPadFire.Views.ComboRing

/-!
# Dragging a number ring

While the finger drags a ring, every frame leaves it at an angle between 0 and 1250, with one number
in the band. That number is selected, and enters `pastnums` at the end (`rollover_selects`), so
eight frames fill `pastnums` (`dragging_selects`).
-/

namespace TPadFire.Views.ComboRing

/-- From `r` to `r'` one number is selected: the only one in the band. -/
structure Selects (r r' : ComboRing) : Prop where
  ang_pos : 0 < r'.ang
  ang_lt : r'.ang < ringY + circ
  unique : ∃! i, InBand (r'.nums i)
  inBand : InBand (r'.nums r'.currentnum)
  pastnums : List.ofFn r'.pastnums = (List.ofFn r.pastnums).tail ++ [r'.currentnum]

theorem ofFn_shift (pastnums : Fin 8 → Fin 10) (i : Fin 10) :
    List.ofFn (shift pastnums i) = (List.ofFn pastnums).tail ++ [i] := by
  rw [shift, List.ofFn_succ', List.concat_eq_append, List.ofFn_succ (f := pastnums),
    List.tail_cons]
  simp only [Fin.snoc_castSucc, Fin.snoc_last]
  rfl

/-- `update` selects at every angle above -900. -/
theorem update_selects {r : ComboRing} (h : -900 < r.ang) :
    (∃! i, InBand (r.update.nums i)) ∧ InBand (r.update.nums r.update.currentnum) ∧
      List.ofFn r.update.pastnums = (List.ofFn r.pastnums).tail ++ [r.update.currentnum] := by
  have hsel := selected_iff.2 h
  rw [update_of_selected hsel]
  have hband : InBand (position (selection r.ang) r.ang) := (inBand_position _ _).2 ⟨hsel, rfl⟩
  exact ⟨⟨_, hband, fun i hi => ((inBand_position _ _).1 hi).2⟩, hband, ofFn_shift _ _⟩

/-- `%`, and the turn added below `y`, leave an angle between 0 and `y + circ`. -/
theorem wrapped_mem (a : ℚ) :
    let ang := remainder a circ
    0 < (if ang < ringY then ang + circ else ang) ∧
      (if ang < ringY then ang + circ else ang) < ringY + circ := by
  have hcirc : circ = 1000 := by
    rw [circ, ringH]
    norm_num
  have hpos : 0 < circ := by
    rw [hcirc]
    norm_num
  have hmem : -circ < remainder a circ ∧ remainder a circ < circ := by
    rcases le_total 0 a with h | h
    · obtain ⟨h0, hlt⟩ := remainder_bounds h hpos
      exact ⟨by linarith, hlt⟩
    · obtain ⟨hlt, h0⟩ := remainder_bounds_neg h hpos
      exact ⟨hlt, by linarith⟩
  have hy : (ringY : ℚ) = 250 := by
    rw [ringY]
    norm_num
  rw [hcirc] at hmem ⊢
  rw [hy]
  dsimp only
  split_ifs <;> constructor <;> linarith [hmem.1, hmem.2]

/-- What `rollover` has set when it calls `update`. -/
def rolled (r : ComboRing) (yin : ℤ) (f : ComboFrame) : ComboRing :=
  let r := if r.first then { r with yenter := yin * (3 / 2), angenter := r.ang } else r
  if f.fingOldY ≠ 0 then
    let ang := remainder (r.angenter + f.fingY * (3 / 2) - r.yenter) circ
    { r with ang := if ang < ringY then ang + circ else ang }
  else r

theorem rollover_eq (r : ComboRing) (yin : ℤ) (f : ComboFrame) :
    r.rollover yin f = (r.rolled yin f).update := rfl

theorem rolled_mem (r : ComboRing) (yin : ℤ) {f : ComboFrame} (h : f.fingOldY ≠ 0) :
    0 < (r.rolled yin f).ang ∧ (r.rolled yin f).ang < ringY + circ := by
  rw [rolled]
  simp only [h, ne_eq, not_false_eq_true, if_true]
  exact wrapped_mem _

theorem rolled_pastnums (r : ComboRing) (yin : ℤ) (f : ComboFrame) :
    (r.rolled yin f).pastnums = r.pastnums := by
  rw [rolled]
  split_ifs <;> rfl

/-- **One frame of a drag**, from any state of the ring. -/
theorem rollover_selects (r : ComboRing) (yin : ℤ) {f : ComboFrame} (h : f.fingOldY ≠ 0) :
    Selects r (r.rollover yin f) := by
  obtain ⟨hpos, hlt⟩ := rolled_mem r yin h
  obtain ⟨hunique, hband, hpast⟩ := update_selects (r := r.rolled yin f) (by linarith)
  rw [rolled_pastnums] at hpast
  exact ⟨by simpa [rollover_eq], by simpa [rollover_eq], hunique, hband, hpast⟩

/-! ## Frames -/

/-- The finger drags the ring: it is in the ring's area, on the screen, and moved at a height other
than 0. -/
def Drags (r : ComboRing) (f : ComboFrame) : Prop :=
  (r.x < f.fingX ∧ f.fingX ≤ r.x + ringW ∧ f.touching) ∧ f.fingOldY ≠ 0

instance (r : ComboRing) (f : ComboFrame) : Decidable (r.Drags f) :=
  inferInstanceAs (Decidable (_ ∧ _))

theorem update_x (r : ComboRing) : r.update.x = r.x := by
  rw [update, foldl_place]

theorem drawit_of_within {r : ComboRing} {f : ComboFrame}
    (h : r.x < f.fingX ∧ f.fingX ≤ r.x + ringW ∧ f.touching) :
    r.drawit f = (r.withinarea f).rollover (truncate f.fingY) f := by
  rw [drawit]
  exact if_pos (decide_eq_true h)

theorem drawit_selects {r : ComboRing} {f : ComboFrame} (h : r.Drags f) :
    Selects r (r.drawit f) := by
  rw [drawit_of_within h.1]
  obtain ⟨hpos, hlt, hunique, hband, hpast⟩ :=
    rollover_selects (r.withinarea f) (truncate f.fingY) h.2
  exact ⟨hpos, hlt, hunique, hband, hpast⟩

theorem drawit_x {r : ComboRing} {f : ComboFrame} (h : r.Drags f) : (r.drawit f).x = r.x := by
  rw [drawit_of_within h.1, rollover_eq, update_x, rolled]
  split_ifs <;> rfl

/-- The numbers that frames select, one each. -/
def selections (r : ComboRing) : List ComboFrame → List (Fin 10)
  | [] => []
  | f :: fs => (r.drawit f).currentnum :: selections (r.drawit f) fs

theorem length_selections (r : ComboRing) (fs : List ComboFrame) :
    (selections r fs).length = fs.length := by
  induction fs generalizing r with
  | nil => rfl
  | cons f fs ih => rw [selections, List.length_cons, List.length_cons, ih]

/-- The history of a drag: what `pastnums` held, then the selections, less one for every frame. -/
theorem ofFn_pastnums {r : ComboRing} {fs : List ComboFrame} (h : ∀ f ∈ fs, r.Drags f) :
    List.ofFn (fs.foldl drawit r).pastnums =
      (List.ofFn r.pastnums ++ selections r fs).drop fs.length := by
  induction fs generalizing r with
  | nil => simp [selections]
  | cons f fs ih =>
    have hf := h f List.mem_cons_self
    have hfs : ∀ f' ∈ fs, (r.drawit f).Drags f' := fun f' hf' => by
      rw [Drags, drawit_x hf]
      exact h f' (List.mem_cons_of_mem f hf')
    rw [List.foldl_cons, ih hfs, (drawit_selects hf).pastnums, selections, List.ofFn_succ]
    simp

/-- **A drag selects one number a frame.** From every state, and for every finger position,
`rollover` leaves the angle between 0 and `y + circ`, exactly one number in the band, that number
selected, and `pastnums` one place on. After eight frames or more of a drag `pastnums` lists the
last eight selections. -/
theorem dragging_selects :
    (∀ (r : ComboRing) (yin : ℤ) (f : ComboFrame), f.fingOldY ≠ 0 → Selects r (r.rollover yin f)) ∧
      ∀ (r : ComboRing) (fs : List ComboFrame), 8 ≤ fs.length → (∀ f ∈ fs, r.Drags f) →
        List.ofFn (fs.foldl drawit r).pastnums = (selections r fs).rtake 8 := by
  refine ⟨fun r yin f h => rollover_selects r yin h, fun r fs h8 h => ?_⟩
  rw [ofFn_pastnums h, List.drop_append, List.drop_eq_nil_of_le (by simpa using h8), List.rtake,
    length_selections, List.length_ofFn, List.nil_append]

/-- A finger that moves down over the first ring. -/
def swipe : List ComboFrame :=
  (List.range 9).map fun k : ℕ => ⟨150, 100 * k + 50, 100 * k + 50, true, true⟩

theorem dragging_selects_swipe :
    (∀ f ∈ swipe, Selects (new 100) ((new 100).rollover 0 f)) ∧
      List.ofFn (swipe.foldl drawit (new 100)).pastnums = (selections (new 100) swipe).rtake 8 := by
  have hdrags : ∀ f ∈ swipe, (new 100).Drags f := fun f hf => by
    obtain ⟨k, -, rfl⟩ := List.mem_map.1 hf
    have hpos : 0 < 100 * (k : ℚ) + 50 := by positivity
    exact ⟨by norm_num [new, ringW], hpos.ne'⟩
  exact ⟨fun f hf => dragging_selects.1 _ _ _ (hdrags f hf).2,
    dragging_selects.2 _ _ (by simp [swipe]) hdrags⟩

end TPadFire.Views.ComboRing
