import TPadFire.Views.Tracker

/-!
# The volume slider

`RectangleSliderView` sets the volume to one of eight levels, a rectangle each, and highlights the
rectangles that are `marked`. Both handlers change the old marks: a MOVE in a rectangle copies the
mark of the one below it, and a DOWN marks the rectangles below and leaves the mark of its own as it
was. `onTouchEvent_eq_some` says what an event does.

The volume of level `i` is `1 - log (numRects - i) / log numRects`; here the level stands for it. A
`MediaPlayer` that throws is left out.
-/

namespace TPadFire.Views

/-- `Rect` -/
structure Rect where
  left : ℤ
  top : ℤ
  right : ℤ
  bottom : ℤ

/-- The left and the top are inside, the right and the bottom are not, and an empty rectangle
contains nothing. -/
def Rect.contains (r : Rect) (x y : ℤ) : Bool :=
  r.left < r.right && r.top < r.bottom &&
    r.left ≤ x && x < r.right && r.top ≤ y && y < r.bottom

/-- `Arrays.fill`, from `fromIndex` until before `toIndex`. -/
def fill {n : ℕ} (a : Fin n → Bool) (fromIndex toIndex : ℕ) (val : Bool) : Fin n → Bool :=
  fun j => if fromIndex ≤ j ∧ j < toIndex then val else a j

namespace RectangleSliderView

/-! ## The layout -/

def numRects : ℕ := 8

def rectWidth : ℤ := 400

def rectHeight : ℤ := 50

def rectGap : ℤ := 20

def height : ℤ := 1024

def boundingRect : Rect := ⟨100, 0, rectWidth + 100, 600⟩

/-- `rects` -/
def rects (i : Fin numRects) : Rect :=
  let bot := height - ((i + 22) * rectGap + i * rectHeight)
  ⟨boundingRect.left, bot - rectHeight, boundingRect.right, bot⟩

/-- `gaps` -/
def gaps (i : Fin numRects) : Rect :=
  ⟨boundingRect.left, (rects i).top - rectGap, boundingRect.right, (rects i).top⟩

/-- The first rectangle that contains a point, as the loop of a DOWN finds it. -/
def rectAt (x y : ℤ) : Option (Fin numRects) :=
  (List.finRange numRects).find? fun i => (rects i).contains x y

/-! ## The music -/

/-- The tracks among the resources. -/
inductive Track
  | vivaldishort
  | psyshort
  | dukeshort
  | onionshort
  deriving DecidableEq

/-- `myMusic` -/
def myMusic : List Track := [.vivaldishort, .psyshort, .dukeshort, .onionshort]

/-- `getNextTrack` -/
def getNextTrack (currTrack : Fin myMusic.length) : Fin myMusic.length :=
  if h : currTrack.val + 1 = myMusic.length then ⟨0, by decide⟩
  else ⟨currTrack.val + 1, by omega⟩

/-- `getPrevTrack` -/
def getPrevTrack (currTrack : Fin myMusic.length) : Fin myMusic.length :=
  if currTrack.val = 0 then ⟨myMusic.length - 1, by decide⟩
  else ⟨currTrack.val - 1, by omega⟩

end RectangleSliderView

open RectangleSliderView (numRects rectAt Track myMusic)

/-- What the slider calls. -/
inductive SliderCall
  /-- `setVolume` with the volume of level `i`. -/
  | setVolume (i : Fin numRects)
  | send (friction : ℚ)
  /-- The player is reset and starts the track. -/
  | play (t : Track)
  deriving DecidableEq

/-- `RectangleSliderView` -/
structure RectangleSliderView (ρ : Type*) where
  marked : Fin numRects → Bool
  tracking : Tracking ρ
  isSwitchingSong : Bool
  currTrack : Fin myMusic.length

namespace RectangleSliderView

variable {ρ : Type*}

/-- The constructor. -/
def initial : RectangleSliderView ρ := ⟨fun _ => false, .initial, false, ⟨0, by decide⟩⟩

/-- `send`, while the drawer is not scrolling. -/
def sendUnless (isScrolling : Bool) (friction : ℚ) : List SliderCall :=
  if isScrolling = false then [.send friction] else []

/-! ## The handlers -/

/-- What a MOVE in rectangle `i` sets `marked[i]` to. -/
def markBelow (m : Fin numRects → Bool) (i : Fin numRects) : Bool :=
  if i.val = 0 then true else m ⟨i.val - 1, by omega⟩

/-- The marks at a MOVE in rectangle `i`. -/
def slide (m : Fin numRects → Bool) (i : Fin numRects) : Fin numRects → Bool :=
  fill (Function.update m i (markBelow m i)) (i + 1) numRects false

/-- The marks at a DOWN in rectangle `i`. -/
def press (m : Fin numRects → Bool) (i : Fin numRects) : Fin numRects → Bool :=
  fill (fill m (i + 1) numRects false) 0 i true

/-- A fast MOVE plays the next track or the one before, once a gesture. -/
def switchSong (v : RectangleSliderView ρ) (vx : ℚ) : RectangleSliderView ρ × List SliderCall :=
  if vx > 1000 ∧ v.isSwitchingSong = false then
    let t := getNextTrack v.currTrack
    ({ v with isSwitchingSong := true, currTrack := t }, [.send 0, .play (myMusic.get t)])
  else if vx < -1000 ∧ v.isSwitchingSong = false then
    let t := getPrevTrack v.currTrack
    ({ v with isSwitchingSong := true, currTrack := t }, [.send 0, .play (myMusic.get t)])
  else (v, [])

/-- The body of the loop of a MOVE, over the marks and the calls. -/
def moveRect (x y : ℤ) (isScrolling : Bool) (s : (Fin numRects → Bool) × List SliderCall)
    (i : Fin numRects) : (Fin numRects → Bool) × List SliderCall :=
  if (rects i).contains x y then (slide s.1 i, s.2 ++ .setVolume i :: sendUnless isScrolling 1)
  else if (gaps i).contains x y then (s.1, s.2 ++ sendUnless isScrolling 0)
  else s

/-- `ACTION_MOVE` -/
def actionMove (v : RectangleSliderView ρ) (x y : ℤ) (vx : ℚ) (isScrolling : Bool) :
    RectangleSliderView ρ × List SliderCall :=
  let (v, calls) := v.switchSong vx
  if boundingRect.contains x y then
    let (marked, calls) := (List.finRange numRects).foldl (moveRect x y isScrolling)
      (v.marked, calls)
    ({ v with marked := marked }, calls)
  else (v, calls ++ sendUnless isScrolling 1)

/-- `ACTION_DOWN` -/
def actionDown (v : RectangleSliderView ρ) (x y : ℤ) (isScrolling : Bool) :
    RectangleSliderView ρ × List SliderCall :=
  let v := { v with isSwitchingSong := false }
  match if boundingRect.contains x y then rectAt x y else none with
  | some i => ({ v with marked := press v.marked i }, .setVolume i :: sendUnless isScrolling 1)
  | none => (v, sendUnless isScrolling 0)

/-- `onTouchEvent`; without a tracker a MOVE or a CANCEL throws. -/
def onTouchEvent (obtain' : ℕ → ρ) (v : RectangleSliderView ρ) (e : Event) :
    Option (RectangleSliderView ρ × List SliderCall) :=
  (v.tracking.respond obtain' (track e)).map fun (tracking, _) =>
    let v := { v with tracking := tracking }
    match e.touch with
    | .move x y vx _ => v.actionMove (saturate x) (saturate y) vx e.isScrolling
    | .down x y => v.actionDown (saturate x) (saturate y) e.isScrolling
    | .up => (v, [])
    | .cancel => (v, [])

/-- The point of an event lies in `rects[i]`. -/
def InRect (e : Event) (i : Fin numRects) : Prop :=
  match e.touch with
  | .down x y => (rects i).contains (saturate x) (saturate y)
  | .move x y _ _ => (rects i).contains (saturate x) (saturate y)
  | .up => False
  | .cancel => False

/-! ## Rectangles -/

theorem fill_apply {n : ℕ} (a : Fin n → Bool) (fromIndex toIndex : ℕ) (val : Bool) (j : Fin n) :
    fill a fromIndex toIndex val j = if fromIndex ≤ j ∧ j < toIndex then val else a j := rfl

theorem contains_iff {r : Rect} {x y : ℤ} :
    r.contains x y ↔ (r.left < r.right ∧ r.top < r.bottom) ∧
      (r.left ≤ x ∧ x < r.right) ∧ r.top ≤ y ∧ y < r.bottom := by
  simp only [Rect.contains, Bool.and_eq_true, decide_eq_true_eq, and_assoc]

theorem contains_rects {i : Fin numRects} {x y : ℤ} :
    (rects i).contains x y ↔
      (100 ≤ x ∧ x < 500) ∧ 534 - 70 * (i : ℤ) ≤ y ∧ y < 584 - 70 * (i : ℤ) := by
  simp only [contains_iff, rects, boundingRect, height, rectGap, rectHeight, rectWidth]
  omega

theorem boundingRect_contains {i : Fin numRects} {x y : ℤ} (h : (rects i).contains x y) :
    boundingRect.contains x y := by
  have hi : i.val < 8 := i.isLt
  rw [contains_rects] at h
  simp only [contains_iff, boundingRect, rectWidth]
  omega

/-- No two rectangles overlap. -/
theorem contains_rects_unique {i j : Fin numRects} {x y : ℤ} (hi : (rects i).contains x y)
    (hj : (rects j).contains x y) : i = j := by
  rw [contains_rects] at hi hj
  omega

theorem rectAt_eq_some_iff {i : Fin numRects} {x y : ℤ} :
    rectAt x y = some i ↔ (rects i).contains x y := by
  rw [rectAt]
  constructor
  · intro hfind
    have h := List.find?_some hfind
    exact h
  · intro h
    cases hfind : (List.finRange numRects).find? fun i => (rects i).contains x y with
    | none => exact absurd h (List.find?_eq_none.1 hfind i (List.mem_finRange i))
    | some j =>
      have hj := List.find?_some hfind
      rw [contains_rects_unique h hj]

theorem filter_contains (x y : ℤ) :
    ((List.finRange numRects).filter fun i => (rects i).contains x y) = (rectAt x y).toList := by
  rw [rectAt, ← List.head?_filter]
  cases hfilter : (List.finRange numRects).filter fun i => (rects i).contains x y with
  | nil => rfl
  | cons i is =>
    have hnodup : (i :: is).Nodup := hfilter ▸ (List.nodup_finRange numRects).filter _
    have hmem : ∀ j ∈ i :: is, (rects j).contains x y := fun j hj => by
      rw [← hfilter, List.mem_filter] at hj
      exact hj.2
    -- a second rectangle would be the first again
    have hnil : is = [] := List.eq_nil_iff_forall_not_mem.2 fun j hj => by
      have hij : i = j := contains_rects_unique (hmem i List.mem_cons_self)
        (hmem j (List.mem_cons_of_mem i hj))
      exact (List.nodup_cons.1 hnodup).1 (hij ▸ hj)
    rw [hnil]
    rfl

/-! ## The loop of a MOVE -/

theorem foldl_moveRect_marked (x y : ℤ) (isScrolling : Bool)
    (s : (Fin numRects → Bool) × List SliderCall) (is : List (Fin numRects)) :
    (is.foldl (moveRect x y isScrolling) s).1 =
      (is.filter fun i => (rects i).contains x y).foldl slide s.1 := by
  induction is generalizing s with
  | nil => rfl
  | cons i is ih =>
    rw [List.foldl_cons, ih, List.filter_cons]
    by_cases h : (rects i).contains x y
    · simp only [moveRect, h, if_true, List.foldl_cons]
    · simp only [moveRect, h, Bool.false_eq_true, if_false]
      split_ifs <;> rfl

@[simp] theorem setVolume_notMem_sendUnless (i : Fin numRects) (isScrolling : Bool)
    (friction : ℚ) : .setVolume i ∉ sendUnless isScrolling friction := by
  unfold sendUnless
  split_ifs <;> simp

theorem setVolume_mem_foldl_moveRect (x y : ℤ) (isScrolling : Bool)
    (s : (Fin numRects → Bool) × List SliderCall) (is : List (Fin numRects)) (i : Fin numRects) :
    .setVolume i ∈ (is.foldl (moveRect x y isScrolling) s).2 ↔
      .setVolume i ∈ s.2 ∨ i ∈ is ∧ (rects i).contains x y := by
  induction is generalizing s with
  | nil => simp
  | cons j is ih =>
    refine (ih (moveRect x y isScrolling s j)).trans ?_
    unfold moveRect
    split_ifs with hj hgap
    · simp only [List.mem_append, List.mem_cons, setVolume_notMem_sendUnless,
        SliderCall.setVolume.injEq, or_false]
      grind
    · simp only [List.mem_append, List.mem_cons, setVolume_notMem_sendUnless, or_false]
      grind
    · simp only [List.mem_cons]
      grind

/-! ## The marks after an event -/

/-- The marks after an event that does not throw. -/
def marksAfter (t : Touch) (m : Fin numRects → Bool) : Fin numRects → Bool :=
  match t with
  | .down x y => (rectAt (saturate x) (saturate y)).elim m (press m)
  | .move x y _ _ => (rectAt (saturate x) (saturate y)).elim m (slide m)
  | .up => m
  | .cancel => m

section Handlers

variable {obtain' : ℕ → ρ} {v : RectangleSliderView ρ}

/-- A fast MOVE leaves the marks and the tracker, and sets no volume. -/
theorem switchSong_frame (v : RectangleSliderView ρ) (vx : ℚ) :
    (v.switchSong vx).1.marked = v.marked ∧ (v.switchSong vx).1.tracking = v.tracking ∧
      ∀ i, .setVolume i ∉ (v.switchSong vx).2 := by
  unfold switchSong
  split_ifs <;> simp

theorem rectAt_eq_none_of_outside {x y : ℤ} (h : ¬boundingRect.contains x y) :
    rectAt x y = none := by
  rw [rectAt, List.find?_eq_none]
  exact fun i _ hi => h (boundingRect_contains hi)

theorem actionMove_marked (v : RectangleSliderView ρ) (x y : ℤ) (vx : ℚ) (isScrolling : Bool) :
    (v.actionMove x y vx isScrolling).1.marked = (rectAt x y).elim v.marked (slide v.marked) := by
  unfold actionMove
  by_cases h : boundingRect.contains x y
  · simp only [h, if_true, foldl_moveRect_marked, filter_contains, (switchSong_frame v vx).1]
    cases rectAt x y <;> rfl
  · simp only [h, Bool.false_eq_true, if_false, rectAt_eq_none_of_outside h]
    exact (switchSong_frame v vx).1

theorem actionMove_tracking (v : RectangleSliderView ρ) (x y : ℤ) (vx : ℚ) (isScrolling : Bool) :
    (v.actionMove x y vx isScrolling).1.tracking = v.tracking := by
  unfold actionMove
  by_cases h : boundingRect.contains x y
  · simp only [h, if_true]
    exact (switchSong_frame v vx).2.1
  · simp only [h, Bool.false_eq_true, if_false]
    exact (switchSong_frame v vx).2.1

theorem setVolume_mem_actionMove (v : RectangleSliderView ρ) (x y : ℤ) (vx : ℚ)
    (isScrolling : Bool) (i : Fin numRects) :
    .setVolume i ∈ (v.actionMove x y vx isScrolling).2 ↔ (rects i).contains x y := by
  have hsong := (switchSong_frame v vx).2.2 i
  unfold actionMove
  by_cases h : boundingRect.contains x y
  · simp only [h, if_true, setVolume_mem_foldl_moveRect]
    simp [hsong]
  · simp only [h, Bool.false_eq_true, if_false]
    exact iff_of_false (by simp [hsong]) fun hi => h (boundingRect_contains hi)

/-- The loop of a DOWN finds the rectangle at its point, in `boundingRect` or not. -/
theorem actionDown_eq (v : RectangleSliderView ρ) (x y : ℤ) (isScrolling : Bool) :
    v.actionDown x y isScrolling =
      match rectAt x y with
      | some i => ({ v with isSwitchingSong := false, marked := press v.marked i },
          .setVolume i :: sendUnless isScrolling 1)
      | none => ({ v with isSwitchingSong := false }, sendUnless isScrolling 0) := by
  unfold actionDown
  by_cases h : boundingRect.contains x y
  · simp only [h, if_true]
  · simp only [h, Bool.false_eq_true, if_false, rectAt_eq_none_of_outside h]

theorem actionDown_marked (v : RectangleSliderView ρ) (x y : ℤ) (isScrolling : Bool) :
    (v.actionDown x y isScrolling).1.marked = (rectAt x y).elim v.marked (press v.marked) := by
  rw [actionDown_eq]
  cases rectAt x y <;> rfl

theorem actionDown_tracking (v : RectangleSliderView ρ) (x y : ℤ) (isScrolling : Bool) :
    (v.actionDown x y isScrolling).1.tracking = v.tracking := by
  rw [actionDown_eq]
  cases rectAt x y <;> rfl

theorem setVolume_mem_actionDown (v : RectangleSliderView ρ) (x y : ℤ) (isScrolling : Bool)
    (i : Fin numRects) :
    .setVolume i ∈ (v.actionDown x y isScrolling).2 ↔ (rects i).contains x y := by
  rw [actionDown_eq, ← rectAt_eq_some_iff]
  cases rectAt x y with
  | none => simp
  | some j => simp [eq_comm]

/-- What an event does that does not throw: it has the marks of `marksAfter`, and sets the volume
of the level of its rectangle. -/
theorem onTouchEvent_eq_some {e : Event} {p : RectangleSliderView ρ × List SliderCall}
    (h : v.onTouchEvent obtain' e = some p) :
    (∃ accesses, v.tracking.respond obtain' (track e) = some (p.1.tracking, accesses)) ∧
      p.1.marked = marksAfter e.touch v.marked ∧ ∀ i, .setVolume i ∈ p.2 ↔ InRect e i := by
  rw [onTouchEvent, Option.map_eq_some_iff] at h
  obtain ⟨⟨tracking, accesses⟩, hrespond, hstep⟩ := h
  rw [hrespond]
  unfold marksAfter InRect
  cases htouch : e.touch with
  | down x y =>
    simp only [htouch] at hstep
    subst hstep
    exact ⟨⟨accesses, by rw [actionDown_tracking]⟩, actionDown_marked _ _ _ _,
      setVolume_mem_actionDown _ _ _ _⟩
  | move x y vx vy =>
    simp only [htouch] at hstep
    subst hstep
    exact ⟨⟨accesses, by rw [actionMove_tracking]⟩, actionMove_marked _ _ _ _ _,
      setVolume_mem_actionMove _ _ _ _ _⟩
  | up =>
    simp only [htouch] at hstep
    subst hstep
    exact ⟨⟨accesses, rfl⟩, rfl, by simp⟩
  | cancel =>
    simp only [htouch] at hstep
    subst hstep
    exact ⟨⟨accesses, rfl⟩, rfl, by simp⟩

/-- An event goes through when its response does. -/
theorem onTouchEvent_of_respond {e : Event} {tracking : Tracking ρ}
    {accesses : List (Access TrackerCall ρ)}
    (h : v.tracking.respond obtain' (track e) = some (tracking, accesses)) :
    ∃ v' calls, v.onTouchEvent obtain' e = some (v', calls) ∧ v'.tracking = tracking := by
  have hsome : (v.onTouchEvent obtain' e).isSome := by
    simp [onTouchEvent, h]
  obtain ⟨⟨v', calls⟩, hstep⟩ := Option.isSome_iff_exists.1 hsome
  obtain ⟨⟨accesses', htracking⟩, -⟩ := onTouchEvent_eq_some hstep
  rw [h, Option.some.injEq, Prod.mk.injEq] at htracking
  exact ⟨v', calls, hstep, htracking.1.symm⟩

/-- With a tracker every event goes through. -/
theorem onTouchEvent_held (obtain' : ℕ → ρ) {r : ρ} (hr : v.tracking.vTracker = some r)
    (e : Event) :
    ∃ v' calls, v.onTouchEvent obtain' e = some (v', calls) ∧
      v'.tracking.vTracker = some r := by
  have hrespond : ∃ accesses, v.tracking.respond obtain' (track e) =
      some (v.tracking, accesses) := by
    cases track e <;> simp [Tracking.respond, hr]
  obtain ⟨accesses, hrespond⟩ := hrespond
  obtain ⟨v', calls, hstep, htracking⟩ := onTouchEvent_of_respond hrespond
  exact ⟨v', calls, hstep, htracking ▸ hr⟩

/-- Without one the first DOWN obtains it. -/
theorem onTouchEvent_down (obtain' : ℕ → ρ) {e : Event} {x y : ℚ}
    (hv : v.tracking.vTracker = none) (he : e.touch = .down x y) :
    ∃ v' calls r, v.onTouchEvent obtain' e = some (v', calls) ∧
      v'.tracking.vTracker = some r := by
  have hrespond : v.tracking.respond obtain' (track e) =
      some (⟨some (obtain' v.tracking.obtained), v.tracking.obtained + 1⟩,
        [.obtain (obtain' v.tracking.obtained),
          .use .addMovement (obtain' v.tracking.obtained)]) := by
    simp [track, he, trackTouch, Tracking.respond, hv]
  obtain ⟨v', calls, hstep, htracking⟩ := onTouchEvent_of_respond hrespond
  exact ⟨v', calls, _, hstep, by rw [htracking]⟩

/-- Without one a MOVE or a CANCEL throws. -/
theorem onTouchEvent_throws {e : Event} (hv : v.tracking.vTracker = none)
    (he : (∃ x y vx vy, e.touch = .move x y vx vy) ∨ e.touch = .cancel) :
    v.onTouchEvent obtain' e = none := by
  rw [onTouchEvent, Option.map_eq_none_iff, track]
  rcases he with ⟨x, y, vx, vy, htouch⟩ | htouch
  · simp [htouch, trackTouch, velocity, Tracking.respond, hv]
  · simp [htouch, trackTouch, Tracking.respond, hv]

theorem onTouchEvent_up {e : Event} (he : e.touch = .up) :
    v.onTouchEvent obtain' e = some (v, []) := by
  rw [onTouchEvent, track, he]
  rfl

end Handlers

end RectangleSliderView

end TPadFire.Views
