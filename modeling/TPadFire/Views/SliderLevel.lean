import TPadFire.Views.Slider

/-!
# The level that the slider shows

The marks are to be those of the rectangles up to the level that was set last. After a DOWN they are
when the rectangle was marked before, and after a MOVE when all below it were (`shows_press_iff`,
`shows_slide_iff`). So the level shown is all that a run depends on (`Matches`), and `slider_iff`
says over which events every level is shown.
-/

namespace TPadFire.Views.RectangleSliderView

variable {ρ : Type*}

/-! ## What the slider is to show -/

/-- The marks are those of the rectangles up to `i`. -/
def Shows (i : Fin numRects) (m : Fin numRects → Bool) : Prop := ∀ j, m j = true ↔ j ≤ i

/-- An event in a rectangle leaves marks that show it, and one outside leaves them alone. -/
def Reflects (e : Event) (m m' : Fin numRects → Bool) : Prop :=
  (∀ i, InRect e i → Shows i m') ∧ ((∀ i, ¬InRect e i) → m' = m)

/-- Every event of a run is reflected. An exception ends the run. -/
def Correct (obtain' : ℕ → ρ) : RectangleSliderView ρ → List Event → Prop
  | _, [] => True
  | v, e :: es =>
    match v.onTouchEvent obtain' e with
    | some (v', _) => Reflects e v.marked v'.marked ∧ Correct obtain' v' es
    | none => Reflects e v.marked v.marked

/-! ## When it does -/

/-- The level that an event sets. -/
def level (e : Event) : Option (Fin numRects) :=
  match e.touch with
  | .down x y => rectAt (saturate x) (saturate y)
  | .move x y _ _ => rectAt (saturate x) (saturate y)
  | .up => none
  | .cancel => none

/-- After the level `k`, if any, level `i` is set: by a DOWN no higher, or by a MOVE at the bottom
or at most one higher. -/
def Follows (k : Option (Fin numRects)) (i : Fin numRects) : Touch → Prop
  | .down _ _ => ∃ l ∈ k, i ≤ l
  | .move _ _ _ _ => i.val = 0 ∨ ∃ l ∈ k, i.val ≤ l.val + 1
  | .up => True
  | .cancel => True

/-- Every level follows the one before, the first one `k`. -/
def Steady (k : Option (Fin numRects)) : List Event → Prop
  | [] => True
  | e :: es =>
    match level e with
    | some i => Follows k i e.touch ∧ Steady (some i) es
    | none => Steady k es

/-- The same from the constructor on. A MOVE or a CANCEL before any DOWN throws, and nothing is set
after it. -/
def Started : List Event → Prop
  | [] => True
  | e :: es =>
    match e.touch with
    | .down _ _ => Steady none (e :: es)
    | .move _ _ _ _ => level e = none
    | .up => Started es
    | .cancel => True

/-! ## Levels of events -/

theorem level_eq_some_iff {e : Event} {i : Fin numRects} : level e = some i ↔ InRect e i := by
  rw [level, InRect]
  cases e.touch with
  | down x y => exact rectAt_eq_some_iff
  | move x y vx vy => exact rectAt_eq_some_iff
  | up => simp
  | cancel => simp

/-! ## When a rectangle shows its level -/

section Marks

variable {m : Fin numRects → Bool} {k : Option (Fin numRects)} {i j : Fin numRects} {e : Event}

theorem press_apply (m : Fin numRects → Bool) (i j : Fin numRects) :
    press m i j = if j < i then true else if j = i then m i else false := by
  have hj : j.val < numRects := j.isLt
  rw [press, fill_apply, fill_apply]
  rcases lt_trichotomy j i with h | rfl | h
  · rw [if_pos ⟨j.val.zero_le, h⟩, if_pos h]
  · rw [if_neg (by omega), if_neg (by omega), if_neg (lt_irrefl j), if_pos rfl]
  · rw [if_neg (by omega), if_pos ⟨h, hj⟩, if_neg h.not_gt, if_neg h.ne']

theorem slide_apply (m : Fin numRects → Bool) (i j : Fin numRects) :
    slide m i j = if j < i then m j else if j = i then markBelow m i else false := by
  have hj : j.val < numRects := j.isLt
  rw [slide, fill_apply]
  rcases lt_trichotomy j i with h | rfl | h
  · rw [if_neg (by omega), Function.update_of_ne h.ne, if_pos h]
  · rw [if_neg (by omega), Function.update_self, if_neg (lt_irrefl j), if_pos rfl]
  · rw [if_pos ⟨h, hj⟩, if_neg h.not_gt, if_neg h.ne']

/-- Marks with none above `i` show it when all below are there and its own is. -/
theorem shows_iff {below : Fin numRects → Bool} {own : Bool}
    (hm : ∀ j, m j = if j < i then below j else if j = i then own else false) :
    Shows i m ↔ (∀ j < i, below j = true) ∧ own = true := by
  constructor
  · intro hshows
    refine ⟨fun j hj => ?_, ?_⟩
    · have hmark := (hshows j).2 hj.le
      rwa [hm, if_pos hj] at hmark
    · have hmark := (hshows i).2 le_rfl
      rwa [hm, if_neg (lt_irrefl i), if_pos rfl] at hmark
  · rintro ⟨hbelow, hown⟩ j
    rw [hm]
    rcases lt_trichotomy j i with hj | rfl | hj
    · rw [if_pos hj]
      exact iff_of_true (hbelow j hj) hj.le
    · rw [if_neg (lt_irrefl j), if_pos rfl]
      exact iff_of_true hown le_rfl
    · rw [if_neg hj.not_gt, if_neg hj.ne']
      exact iff_of_false Bool.false_ne_true hj.not_ge

/-- A DOWN sets all marks below, and not its own. -/
theorem shows_press_iff : Shows i (press m i) ↔ m i = true :=
  (shows_iff (press_apply m i)).trans (and_iff_right fun _ _ => rfl)

/-- A MOVE sets its own mark, and only when the one below is set. -/
theorem shows_slide_iff : Shows i (slide m i) ↔ ∀ j < i, m j = true := by
  refine (shows_iff (slide_apply m i)).trans (and_iff_left_of_imp fun hbelow => ?_)
  rw [markBelow]
  split_ifs with h0
  · rfl
  · exact hbelow _ (Nat.sub_lt (Nat.pos_of_ne_zero h0) one_pos)

/-- After a DOWN a MOVE in the same rectangle shows its level, from all marks. -/
theorem shows_slide_press (m : Fin numRects → Bool) (i : Fin numRects) :
    Shows i (slide (press m i) i) := by
  rw [shows_slide_iff]
  intro j hj
  rw [press_apply, if_pos hj]

/-- The marks show the level `k`, or nothing before the first. -/
def Matches (k : Option (Fin numRects)) (m : Fin numRects → Bool) : Prop :=
  ∀ j, m j = true ↔ ∃ l ∈ k, j ≤ l

theorem matches_some : Matches (some i) m ↔ Shows i m := by
  simp [Matches, Shows]

theorem Matches.below_iff (hm : Matches k m) :
    (∀ j < i, m j = true) ↔ i.val = 0 ∨ ∃ l ∈ k, i.val ≤ l.val + 1 := by
  constructor
  · intro hbelow
    rcases Nat.eq_zero_or_pos i.val with h0 | hpos
    · exact .inl h0
    · have hmark := hbelow ⟨i.val - 1, by omega⟩ (Nat.sub_lt hpos one_pos)
      obtain ⟨l, hl, hle⟩ := (hm _).1 hmark
      exact .inr ⟨l, hl, Nat.le_add_of_sub_le hle⟩
  · rintro (h0 | ⟨l, hl, hle⟩) j hj
    · omega
    · exact (hm j).2 ⟨l, hl, by omega⟩

theorem reflects_of_level_none (h : level e = none) : Reflects e m m := by
  refine ⟨fun i hi => ?_, fun _ => rfl⟩
  rw [← level_eq_some_iff, h] at hi
  cases hi

theorem marksAfter_of_level_none (h : level e = none) : marksAfter e.touch m = m := by
  unfold level at h
  cases htouch : e.touch with
  | down x y =>
    simp only [htouch] at h
    rw [marksAfter, h]
    rfl
  | move x y vx vy =>
    simp only [htouch] at h
    rw [marksAfter, h]
    rfl
  | up => rfl
  | cancel => rfl

theorem reflects_of_level_some {m' : Fin numRects → Bool} (h : level e = some i) :
    Reflects e m m' ↔ Shows i m' := by
  have hin : ∀ j, InRect e j ↔ j = i := fun j => by
    rw [← level_eq_some_iff, h, Option.some.injEq, eq_comm]
  constructor
  · exact fun hreflects => hreflects.1 i ((hin i).2 rfl)
  · intro hshows
    exact ⟨fun j hj => (hin j).1 hj ▸ hshows, fun hout => absurd ((hin i).2 rfl) (hout i)⟩

/-- An event is reflected when its level follows the one that the marks show. -/
theorem shows_marksAfter_iff (hm : Matches k m) (h : level e = some i) :
    Shows i (marksAfter e.touch m) ↔ Follows k i e.touch := by
  unfold level at h
  cases htouch : e.touch with
  | down x y =>
    simp only [htouch] at h
    rw [marksAfter, h]
    exact shows_press_iff.trans (hm i)
  | move x y vx vy =>
    simp only [htouch] at h
    rw [marksAfter, h]
    exact shows_slide_iff.trans hm.below_iff
  | up => simp [htouch] at h
  | cancel => simp [htouch] at h

end Marks

/-! ## Runs -/

section Runs

variable {obtain' : ℕ → ρ} {v v' : RectangleSliderView ρ} {calls : List SliderCall}
  {k : Option (Fin numRects)} {e : Event} {es : List Event}

/-- One event of a run, and with it the rest. -/
theorem correct_cons_iff (hstep : v.onTouchEvent obtain' e = some (v', calls))
    (hm : Matches k v.marked)
    (hrun : ∀ k', Matches k' v'.marked → (Correct obtain' v' es ↔ Steady k' es)) :
    Correct obtain' v (e :: es) ↔ Steady k (e :: es) := by
  obtain ⟨-, hmarked, -⟩ := onTouchEvent_eq_some hstep
  dsimp only at hmarked
  rw [Correct, hstep, Steady]
  dsimp only
  cases hlevel : level e with
  | none =>
    rw [marksAfter_of_level_none hlevel] at hmarked
    rw [hmarked]
    exact (and_iff_right (reflects_of_level_none hlevel)).trans (hrun k (hmarked ▸ hm))
  | some i =>
    have hstep : Reflects e v.marked v'.marked ↔ Follows k i e.touch := by
      rw [reflects_of_level_some hlevel, hmarked]
      exact shows_marksAfter_iff hm hlevel
    refine (and_congr_right fun hreflects => ?_).trans (and_congr_left' hstep)
    -- marks that show the level are what the next event starts from
    exact hrun (some i) (matches_some.2 ((reflects_of_level_some hlevel).1 hreflects))

/-- Once there is a tracker. -/
theorem correct_iff_steady {r : ρ} (hr : v.tracking.vTracker = some r)
    (hm : Matches k v.marked) (es : List Event) : Correct obtain' v es ↔ Steady k es := by
  induction es generalizing v k with
  | nil => exact Iff.rfl
  | cons e es ih =>
    obtain ⟨v', calls, hstep, hr'⟩ := onTouchEvent_held obtain' hr e
    exact correct_cons_iff hstep hm fun k' hm' => ih hr' hm'

/-- From no tracker and no marks. -/
theorem correct_iff_started (hv : v.tracking.vTracker = none) (hm : Matches none v.marked)
    (es : List Event) : Correct obtain' v es ↔ Started es := by
  induction es generalizing v with
  | nil => exact Iff.rfl
  | cons e es ih =>
    rw [Started]
    cases htouch : e.touch with
    | down x y =>
      obtain ⟨v', calls, r, hstep, hr⟩ := onTouchEvent_down obtain' hv htouch
      exact correct_cons_iff hstep hm fun k hm' => correct_iff_steady hr hm' es
    | move x y vx vy =>
      rw [Correct, onTouchEvent_throws hv (.inl ⟨x, y, vx, vy, htouch⟩)]
      dsimp only
      cases hlevel : level e with
      | none => exact iff_of_true (reflects_of_level_none hlevel) rfl
      | some i =>
        rw [reflects_of_level_some hlevel, ← matches_some]
        refine iff_of_false (fun hsome => ?_) (Option.some_ne_none i)
        simpa using (hm i).1 ((hsome i).2 ⟨i, rfl, le_rfl⟩)
    | up =>
      have hlevel : level e = none := by rw [level, htouch]
      rw [Correct, onTouchEvent_up htouch]
      exact (and_iff_right (reflects_of_level_none hlevel)).trans (ih hv hm)
    | cancel =>
      have hlevel : level e = none := by rw [level, htouch]
      rw [Correct, onTouchEvent_throws hv (.inr htouch)]
      exact iff_of_true (reflects_of_level_none hlevel) trivial

/-- **When the slider shows the level it set.** Over every list of events, and whatever trackers it
obtains: when every level follows the one before, the first being that of a MOVE at the bottom. -/
theorem slider_iff {ρ : Type*} (obtain' : ℕ → ρ) (es : List Event) :
    Correct obtain' initial es ↔ Started es :=
  correct_iff_started rfl (fun j => by simp [initial]) es

end Runs

/-- Level 3. -/
def levelThree : Fin numRects := ⟨3, by decide⟩

/-- The finger comes down in its rectangle. -/
def pressThree : Event := feelEvent (.down 150 350)

/-- It comes down beside the rectangles and moves to level 0, and then to level 3 at once. -/
def skipToThree : List Event :=
  [feelEvent (.down 0 0), feelEvent (.move 150 550 0 0), feelEvent (.move 150 350 0 0)]

/-- A first DOWN marks the rectangles below the level it sets and not its own; a swipe that skips
rectangles sets a level and marks what was marked below. -/
theorem slider_unmarked :
    ((initial.onTouchEvent id pressThree).map fun p => (List.ofFn p.1.marked, p.2)) =
        some ([true, true, true, false, false, false, false, false],
          [.setVolume levelThree, .send 1]) ∧
      InRect pressThree levelThree ∧
      ¬Correct id initial [pressThree] ∧ ¬Correct id initial skipToThree := by
  have hpress : InRect pressThree levelThree := by
    change (rects levelThree).contains (saturate 150) (saturate 350)
    decide +kernel
  refine ⟨by decide +kernel, hpress, ?_, ?_⟩
  · intro hcorrect
    have hmark := (hcorrect.1.1 levelThree hpress levelThree).2 le_rfl
    exact absurd hmark (by decide +kernel)
  · -- the third event has the point of the DOWN
    intro hcorrect
    have hmark := (hcorrect.2.2.1.1 levelThree hpress levelThree).2 le_rfl
    exact absurd hmark (by decide +kernel)

end TPadFire.Views.RectangleSliderView
