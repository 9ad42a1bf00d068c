import TPadFire.Foundations.Lease
import TPadFire.Views.Pixels

/-!
# Velocity trackers

Four touch handlers follow the finger with a `VelocityTracker` that they obtain at the first touch,
keep in a field and recycle when a gesture is cancelled; `TPadDrawer` recycles it at the end of
every gesture. The field is not cleared, so the next touch uses a tracker that has been given back.
`trackers_iff` says which gestures the trackers survive.

A handler is given by what it does with the tracker at an event. `VelocityTracker.obtain` is a
parameter: the tracker that its `n`th call returns. A method called on no tracker throws, and ends
the run.
-/

namespace TPadFire.Views

/-- The methods of a `VelocityTracker` besides `obtain` and `recycle`. -/
inductive TrackerCall
  | clear
  | addMovement
  | computeCurrentVelocity (units : ℕ)
  | getXVelocity
  | getYVelocity
  deriving DecidableEq

/-- What a handler does with its tracker at an event. -/
inductive Response
  /-- It obtains a tracker, or clears the one it has, and adds the event. -/
  | start
  /-- It calls methods, one at least. -/
  | calls (first : TrackerCall) (rest : List TrackerCall)
  | recycle
  | nothing
  deriving DecidableEq

/-- A view's field `vTracker`, and how often the view has called `obtain`. -/
structure Tracking (ρ : Type*) where
  vTracker : Option ρ
  obtained : ℕ

namespace Tracking

variable {ρ : Type*} (obtain' : ℕ → ρ)

/-- Before the first event. -/
def initial : Tracking ρ := ⟨none, 0⟩

/-- What follows from a response, and the accesses it makes. -/
def respond (v : Tracking ρ) : Response → Option (Tracking ρ × List (Access TrackerCall ρ))
  | .start =>
    match v.vTracker with
    | none =>
      let r := obtain' v.obtained
      some (⟨some r, v.obtained + 1⟩, [.obtain r, .use .addMovement r])
    | some r => some (v, [.use .clear r, .use .addMovement r])
  | .calls first rest => v.vTracker.map fun r => (v, (first :: rest).map fun o => .use o r)
  | .recycle => v.vTracker.map fun r => (v, [.recycle r])
  | .nothing => some (v, [])

/-- The accesses of a list of responses. -/
def accesses : Tracking ρ → List Response → List (Access TrackerCall ρ)
  | _, [] => []
  | v, x :: xs =>
    match v.respond obtain' x with
    | some (v', calls) => calls ++ accesses v' xs
    | none => []

end Tracking

/-! ## The handlers -/

/-- The velocity in both directions. -/
def velocity (units : ℕ) : Response :=
  .calls .addMovement [.computeCurrentVelocity units, .getXVelocity, .getYVelocity]

/-- The switch over the events, given what is done at a move and when the finger is lifted. -/
def trackTouch (onMove onUp : Response) : Touch → Response
  | .down _ _ => .start
  | .move _ _ _ _ => onMove
  | .up => onUp
  | .cancel => .recycle

/-- `HapticCanvasView.onTouchEvent` -/
def HapticCanvasView.track (e : Event) : Response :=
  if e.currentTab = .brush then .nothing else trackTouch (velocity 1) .nothing e.touch

/-- `BlueBallView.onTouchEvent` -/
def BlueBallView.track (e : Event) : Response := trackTouch (velocity 1000) .nothing e.touch

/-- `RectangleSliderView.onTouchEvent` -/
def RectangleSliderView.track (e : Event) : Response := trackTouch (velocity 1000) .nothing e.touch

/-- `onTouch` of the listener of `TPadDrawer`. -/
def TPadDrawer.track (e : Event) : Response :=
  trackTouch
    (if e.isScrolling then .calls .addMovement [.computeCurrentVelocity 1000, .getYVelocity]
      else .nothing)
    .recycle e.touch

/-! ## Gestures -/

/-- A gesture: the finger comes down, moves, and is lifted unless the gesture is cancelled. -/
structure Gesture where
  down : Event
  moves : List Event
  last : Event
  down_down : ∃ x y, down.touch = .down x y
  moves_move : ∀ e ∈ moves, ∃ x y vx vy, e.touch = .move x y vx vy
  last_ends : last.touch = .up ∨ last.touch = .cancel

/-- The events of a gesture. -/
def Gesture.events (g : Gesture) : List Event := g.down :: g.moves ++ [g.last]

/-! ## Which responses are disciplined -/

namespace Tracking

variable {ρ : Type*} {obtain' : ℕ → ρ} {v : Tracking ρ} {held : Set ρ} {r : ρ}
  {xs : List Response}

theorem accesses_filter (v : Tracking ρ) (xs : List Response) :
    v.accesses obtain' (xs.filter (· ≠ .nothing)) = v.accesses obtain' xs := by
  induction xs generalizing v with
  | nil => rfl
  | cons x xs ih =>
    by_cases hx : x = .nothing
    · rw [List.filter_cons_of_neg (by simpa using hx), ih, hx]
      rfl
    · rw [List.filter_cons_of_pos (by simpa using hx), accesses, accesses]
      cases v.respond obtain' x with
      | none => rfl
      | some p =>
        obtain ⟨v', calls⟩ := p
        exact congrArg (calls ++ ·) (ih v')

/-- With a tracker that has been given back every response goes wrong. -/
theorem disciplined_recycled (hv : v.vTracker = some r) (hr : r ∉ held)
    (hxs : .nothing ∉ xs) : Disciplined held (v.accesses obtain' xs) ↔ xs = [] := by
  cases xs with
  | nil => exact iff_of_true trivial rfl
  | cons x xs =>
    refine iff_of_false ?_ (List.cons_ne_nil x xs)
    rw [accesses]
    cases x with
    | start => simp [respond, hv, Disciplined, hr]
    | calls first rest => simp [respond, hv, Disciplined, hr]
    | recycle => simp [respond, hv, Disciplined, hr]
    | nothing => exact absurd List.mem_cons_self hxs

theorem recycle_notMem_dropLast {x : Response} (hx : x ≠ .recycle) :
    .recycle ∉ (x :: xs).dropLast ↔ .recycle ∉ xs.dropLast := by
  cases xs with
  | nil => simp
  | cons y xs => simp [hx.symm]

/-- With a tracker that is held nothing goes wrong as long as nothing follows a `recycle`. -/
theorem disciplined_held (hv : v.vTracker = some r) (hr : r ∈ held) (hxs : .nothing ∉ xs) :
    Disciplined held (v.accesses obtain' xs) ↔ .recycle ∉ xs.dropLast := by
  induction xs with
  | nil => exact iff_of_true trivial List.not_mem_nil
  | cons x xs ih =>
    obtain ⟨hx, hxs'⟩ := not_or.1 (mt List.mem_cons.2 hxs)
    -- a response that only uses the tracker leaves it held
    have huse : ∀ os : List TrackerCall,
        v.respond obtain' x = some (v, os.map fun o => .use o r) → x ≠ .recycle →
        (Disciplined held (v.accesses obtain' (x :: xs)) ↔ .recycle ∉ (x :: xs).dropLast) := by
      intro os hos hne
      obtain ⟨huses, hheld⟩ := disciplined_uses hr os
      rw [accesses, hos, recycle_notMem_dropLast hne, ← ih hxs']
      dsimp only
      rw [disciplined_append, hheld]
      exact and_iff_right huses
    cases x with
    | start => exact huse [.clear, .addMovement] (by simp [respond, hv]) (by simp)
    | calls first rest => exact huse (first :: rest) (by simp [respond, hv]) (by simp)
    | recycle =>
      have hrespond : v.respond obtain' .recycle = some (v, [.recycle r]) := by simp [respond, hv]
      rw [accesses, hrespond]
      have hgone : Disciplined (held \ {r}) (v.accesses obtain' xs) ↔ xs = [] :=
        disciplined_recycled hv (by simp) hxs'
      refine (and_congr Iff.rfl hgone).trans ?_
      cases xs with
      | nil => simpa using hr
      | cons y xs => simp
    | nothing => exact absurd rfl hx

/-- **When the accesses of a view are disciplined**: of the events at which it does something with
its tracker, if the first is one at which it obtains it, none follows a `recycle`. -/
theorem disciplined_iff (xs : List Response) :
    Disciplined ∅ (initial.accesses obtain' xs) ↔
      ((xs.filter (· ≠ .nothing)).head? = some .start →
        .recycle ∉ (xs.filter (· ≠ .nothing)).dropLast) := by
  have hnone : .nothing ∉ xs.filter (· ≠ .nothing) := by simp
  rw [← accesses_filter]
  generalize xs.filter (· ≠ .nothing) = xs at hnone
  cases xs with
  | nil => simp [accesses, Disciplined]
  | cons x xs =>
    obtain ⟨hx, hxs⟩ := not_or.1 (mt List.mem_cons.2 hnone)
    cases x with
    | start =>
      have hheld : Disciplined {obtain' 0} (accesses obtain' ⟨some (obtain' 0), 1⟩ xs) ↔
          .recycle ∉ xs.dropLast := disciplined_held rfl rfl hxs
      rw [recycle_notMem_dropLast (by simp), ← hheld]
      simp [accesses, respond, initial, Disciplined]
    | calls first rest => simp [accesses, respond, initial, Disciplined]
    | recycle => simp [accesses, respond, initial, Disciplined]
    | nothing => exact absurd rfl hx

end Tracking

section Gestures

variable {onMove : Event → Response} {onUp : Response}

/-- What a view does with its tracker in a gesture. -/
def Gesture.responses (onMove : Event → Response) (onUp : Response) (g : Gesture) :
    List Response :=
  (g.events.map fun e => trackTouch (onMove e) onUp e.touch).filter (· ≠ .nothing)

/-- The gesture ends with a `recycle`. -/
def Gesture.Recycles (onUp : Response) (g : Gesture) : Prop :=
  g.last.touch = .cancel ∨ onUp = .recycle

/-- A gesture obtains or clears the tracker, and can recycle it at its end only. -/
theorem Gesture.responses_eq (hmove : ∀ e, onMove e ≠ .recycle)
    (hup : onUp = .nothing ∨ onUp = .recycle) (g : Gesture) :
    ∃ moves, Response.recycle ∉ moves ∧
      (g.Recycles onUp ∧ g.responses onMove onUp = .start :: moves ++ [.recycle] ∨
        ¬g.Recycles onUp ∧ g.responses onMove onUp = .start :: moves) := by
  obtain ⟨x, y, hdown⟩ := g.down_down
  have hmoves : ∀ e ∈ g.moves, trackTouch (onMove e) onUp e.touch ≠ .recycle := fun e he => by
    obtain ⟨x, y, vx, vy, htouch⟩ := g.moves_move e he
    rw [htouch]
    exact hmove e
  refine ⟨(g.moves.map fun e => trackTouch (onMove e) onUp e.touch).filter (· ≠ .nothing), ?_, ?_⟩
  · intro hmem
    obtain ⟨e, he, heq⟩ := List.mem_map.1 (List.mem_of_mem_filter hmem)
    exact hmoves e he heq
  · rw [Gesture.responses, Gesture.events, List.map_append, List.filter_append, List.map_cons,
      hdown, List.filter_cons_of_pos (by simp [trackTouch]), List.map_singleton]
    rcases g.last_ends with hlast | hlast
    · rcases hup with hup | hup
      · exact .inr ⟨by simp [Gesture.Recycles, hlast, hup], by simp [hlast, hup, trackTouch]⟩
      · exact .inl ⟨.inr hup, by simp [hlast, hup, trackTouch]⟩
    · exact .inl ⟨.inl hlast, by simp [hlast, trackTouch]⟩

theorem Gesture.head_responses (hmove : ∀ e, onMove e ≠ .recycle)
    (hup : onUp = .nothing ∨ onUp = .recycle) (g : Gesture) :
    (g.responses onMove onUp).head? = some .start := by
  obtain ⟨moves, -, ⟨-, heq⟩ | ⟨-, heq⟩⟩ := g.responses_eq hmove hup
  · rw [heq]
    rfl
  · rw [heq]
    rfl

theorem Gesture.recycle_mem_responses (hmove : ∀ e, onMove e ≠ .recycle)
    (hup : onUp = .nothing ∨ onUp = .recycle) (g : Gesture) :
    .recycle ∈ g.responses onMove onUp ↔ g.Recycles onUp := by
  obtain ⟨moves, hmoves, ⟨hr, heq⟩ | ⟨hr, heq⟩⟩ := g.responses_eq hmove hup
  · rw [heq]
    exact iff_of_true (by simp) hr
  · rw [heq]
    exact iff_of_false (by simp [hmoves]) hr

theorem Gesture.recycle_notMem_dropLast (hmove : ∀ e, onMove e ≠ .recycle)
    (hup : onUp = .nothing ∨ onUp = .recycle) (g : Gesture) :
    .recycle ∉ (g.responses onMove onUp).dropLast := by
  obtain ⟨moves, hmoves, ⟨-, heq⟩ | ⟨-, heq⟩⟩ := g.responses_eq hmove hup
  · rw [heq, List.dropLast_concat]
    simp [hmoves]
  · rw [heq]
    exact fun hmem => by simpa [hmoves] using List.mem_of_mem_dropLast hmem

/-- **Over gestures**: the accesses are disciplined when no gesture but the last ends with a
`recycle`. -/
theorem gestures_iff {ρ : Type*} (obtain' : ℕ → ρ) (onMove : Event → Response) (onUp : Response)
    (hmove : ∀ e, onMove e ≠ .recycle) (hup : onUp = .nothing ∨ onUp = .recycle)
    (gs : List Gesture) :
    Disciplined ∅ (Tracking.initial.accesses obtain' ((gs.flatMap Gesture.events).map fun e =>
      trackTouch (onMove e) onUp e.touch)) ↔ ∀ g ∈ gs.dropLast, ¬g.Recycles onUp := by
  have hhead : ∀ (g : Gesture) gs,
      ((g :: gs).flatMap (Gesture.responses onMove onUp)).head? = some .start := fun g gs => by
    rw [List.flatMap_cons, List.head?_append, g.head_responses hmove hup]
    rfl
  rw [Tracking.disciplined_iff, List.map_flatMap, List.filter_flatMap]
  change ((gs.flatMap (Gesture.responses onMove onUp)).head? = some .start →
    .recycle ∉ (gs.flatMap (Gesture.responses onMove onUp)).dropLast) ↔ _
  induction gs with
  | nil => simp
  | cons g gs ih =>
    refine (forall_prop_of_true (hhead g gs)).trans ?_
    cases gs with
    | nil =>
      rw [List.flatMap_singleton]
      exact iff_of_true (g.recycle_notMem_dropLast hmove hup) (by simp)
    | cons g' gs =>
      have hne : (g' :: gs).flatMap (Gesture.responses onMove onUp) ≠ [] := fun hnil => by
        simpa [hnil] using hhead g' gs
      have ih' := (forall_prop_of_true (hhead g' gs)).symm.trans ih
      rw [List.flatMap_cons, List.dropLast_append_of_ne_nil hne, List.mem_append, not_or, ih',
        g.recycle_mem_responses hmove hup, List.dropLast_cons_cons, List.forall_mem_cons]

end Gestures

/-! ## The four views -/

/-- The accesses of a view over a list of events. -/
def trackerAccesses {ρ : Type*} (obtain' : ℕ → ρ) (track : Event → Response) (es : List Event) :
    List (Access TrackerCall ρ) :=
  Tracking.initial.accesses obtain' (es.map track)

/-- The events at which `HapticCanvasView` does something with its tracker. -/
def HapticCanvasView.tracks (e : Event) : Bool :=
  e.currentTab ≠ .brush && match e.touch with
    | .down _ _ | .move _ _ _ _ | .cancel => true
    | .up => false

/-- Of these events, if the first is a DOWN, none follows a CANCEL. -/
def HapticCanvasView.CancelLast (es : List Event) : Prop :=
  (∃ e, (es.filter tracks).head? = some e ∧ ∃ x y, e.touch = .down x y) →
    ∀ e ∈ (es.filter tracks).dropLast, e.touch ≠ .cancel

theorem HapticCanvasView.track_eq_nothing (e : Event) :
    decide (track e ≠ .nothing) = tracks e := by
  rw [track, tracks]
  by_cases htab : e.currentTab = .brush
  · simp [htab]
  · cases e.touch <;> simp [htab, trackTouch, velocity]

theorem HapticCanvasView.track_eq_start {e : Event} (h : tracks e = true) :
    track e = .start ↔ ∃ x y, e.touch = .down x y := by
  rw [tracks, Bool.and_eq_true, decide_eq_true_eq] at h
  rw [track, if_neg h.1]
  cases e.touch <;> simp [trackTouch, velocity]

theorem HapticCanvasView.track_eq_recycle {e : Event} (h : tracks e = true) :
    track e = .recycle ↔ e.touch = .cancel := by
  rw [tracks, Bool.and_eq_true, decide_eq_true_eq] at h
  rw [track, if_neg h.1]
  cases e.touch <;> simp [trackTouch, velocity]

theorem HapticCanvasView.disciplined_iff {ρ : Type*} (obtain' : ℕ → ρ) (es : List Event) :
    Disciplined ∅ (trackerAccesses obtain' track es) ↔ CancelLast es := by
  have hfilter : (es.map track).filter (· ≠ .nothing) = (es.filter tracks).map track := by
    rw [List.filter_map]
    refine congrArg (List.map track) (List.filter_congr fun e _ => ?_)
    exact track_eq_nothing e
  have htracks : ∀ e ∈ es.filter tracks, tracks e = true := fun e he => List.of_mem_filter he
  rw [trackerAccesses, Tracking.disciplined_iff, hfilter, CancelLast, ← List.map_dropLast]
  refine imp_congr ?_ ?_
  · rw [List.head?_map, Option.map_eq_some_iff]
    refine exists_congr fun e => and_congr_right fun he => track_eq_start ?_
    exact htracks e (List.mem_of_head? he)
  · rw [List.mem_map, not_exists]
    refine forall_congr' fun e => not_and.trans (forall_congr' fun he => not_congr ?_)
    exact track_eq_recycle (htracks e (List.mem_of_mem_dropLast he))

/-- **When the trackers survive**: in the views that recycle at a CANCEL, when no gesture, or for
`HapticCanvasView` no event that it handles, follows a CANCEL; in the drawer for one gesture. -/
theorem trackers_iff {ρ : Type*} (obtain' : ℕ → ρ) (gs : List Gesture) :
    (Disciplined ∅ (trackerAccesses obtain' HapticCanvasView.track (gs.flatMap Gesture.events)) ↔
      HapticCanvasView.CancelLast (gs.flatMap Gesture.events)) ∧
    (Disciplined ∅ (trackerAccesses obtain' BlueBallView.track (gs.flatMap Gesture.events)) ↔
      ∀ g ∈ gs.dropLast, g.last.touch ≠ .cancel) ∧
    (Disciplined ∅ (trackerAccesses obtain' RectangleSliderView.track
        (gs.flatMap Gesture.events)) ↔
      ∀ g ∈ gs.dropLast, g.last.touch ≠ .cancel) ∧
    (Disciplined ∅ (trackerAccesses obtain' TPadDrawer.track (gs.flatMap Gesture.events)) ↔
      gs.length ≤ 1) := by
  have hball : Disciplined ∅ (trackerAccesses obtain' BlueBallView.track
      (gs.flatMap Gesture.events)) ↔ ∀ g ∈ gs.dropLast, g.last.touch ≠ .cancel := by
    refine (gestures_iff obtain' (fun _ => velocity 1000) .nothing (by simp [velocity]) (.inl rfl)
      gs).trans ?_
    simp [Gesture.Recycles]
  refine ⟨HapticCanvasView.disciplined_iff obtain' _, hball, hball, ?_⟩
  refine (gestures_iff obtain' _ .recycle (fun e => ?_) (.inr rfl) gs).trans ?_
  · split_ifs <;> simp
  · rw [← Nat.sub_eq_zero_iff_le, ← List.length_dropLast, List.length_eq_zero_iff,
      List.eq_nil_iff_forall_not_mem]
    simp [Gesture.Recycles]

/-- An event while the drawer does not scroll, with the tab `Feel`. -/
def feelEvent (t : Touch) : Event := ⟨t, .feel, false, false, fun _ _ => 0⟩

/-- The finger comes down and is lifted. -/
def tapGesture : Gesture :=
  ⟨feelEvent (.down 1 1), [], feelEvent .up, ⟨1, 1, rfl⟩, List.forall_mem_nil _, .inl rfl⟩

/-- The finger comes down, and the gesture is cancelled. -/
def cancelledGesture : Gesture :=
  ⟨feelEvent (.down 1 1), [], feelEvent .cancel, ⟨1, 1, rfl⟩, List.forall_mem_nil _, .inr rfl⟩

/-- Two taps on the drawer, and in the other views a tap after a cancelled gesture: the second
gesture clears a tracker that has been recycled, and in the drawer recycles it again. -/
theorem trackers_reused :
    (trackerAccesses id TPadDrawer.track ([tapGesture, tapGesture].flatMap Gesture.events) =
        [.obtain 0, .use .addMovement 0, .recycle 0, .use .clear 0, .use .addMovement 0,
          .recycle 0] ∧
      ¬Disciplined ∅ (trackerAccesses id TPadDrawer.track
        ([tapGesture, tapGesture].flatMap Gesture.events))) ∧
    ∀ track ∈ [HapticCanvasView.track, BlueBallView.track, RectangleSliderView.track],
      trackerAccesses id track ([cancelledGesture, tapGesture].flatMap Gesture.events) =
        [.obtain 0, .use .addMovement 0, .recycle 0, .use .clear 0, .use .addMovement 0] ∧
      ¬Disciplined ∅ (trackerAccesses id track
        ([cancelledGesture, tapGesture].flatMap Gesture.events)) := by
  have hdrawer : trackerAccesses id TPadDrawer.track
      ([tapGesture, tapGesture].flatMap Gesture.events) =
        [.obtain 0, .use .addMovement 0, .recycle 0, .use .clear 0, .use .addMovement 0,
          .recycle 0] := rfl
  have hviews : ∀ track ∈ [HapticCanvasView.track, BlueBallView.track, RectangleSliderView.track],
      trackerAccesses id track ([cancelledGesture, tapGesture].flatMap Gesture.events) =
        [.obtain 0, .use .addMovement 0, .recycle 0, .use .clear 0, .use .addMovement 0] := by
    simp only [List.forall_mem_cons, List.not_mem_nil, false_imp_iff, implies_true, and_true]
    exact ⟨rfl, rfl, rfl⟩
  refine ⟨⟨hdrawer, ?_⟩, fun track htrack => ⟨hviews track htrack, ?_⟩⟩
  · rw [hdrawer]
    simp [Disciplined]
  · rw [hviews track htrack]
    simp [Disciplined]

end TPadFire.Views
