import TPadFire.Views.Pixels

/-!
# The lookups of the views

`HapticCanvasView`, `BitmapView` and `TextureView` bring the position into the bitmap before they
look up a pixel. `GlassCleanView` does not: its drawing thread casts the position that the touch
thread stored last, at any moment between two stores. `lookups_iff` says when every lookup of the
four is inside its bitmap.
-/

namespace TPadFire.Views

open Host (Message square sinusoid)

variable (colorToHSV : ℤ → Hsv)

/-! ## `HapticCanvasView` -/

/-- `HapticCanvasView` -/
structure HapticCanvasView where
  px : ℚ
  py : ℚ
  vx : ℚ
  vy : ℚ
  myDrawBitmap : Bitmap

namespace HapticCanvasView

/-- `PREDICT_HORIZON` -/
def predictHorizon : ℕ := 200

/-- The lookup of the sample `i`. -/
def predicted (v : HapticCanvasView) (i : ℕ) : Lookup :=
  ⟨v.myDrawBitmap, predictPixel v.px v.vx i v.myDrawBitmap.width,
    predictPixel v.py v.vy i v.myDrawBitmap.height⟩

/-- `predictPixels` for the samples `is`, and the send of all samples; `predictedPixels` holds those
before. -/
def predictPixels (v : HapticCanvasView) : List ℕ → List ℚ → List Call
  | [], predictedPixels => [.send (.texture predictedPixels)]
  | i :: is, predictedPixels =>
    lookUp (v.predicted i) fun pixel =>
      predictPixels v is (predictedPixels ++ [pixelToFriction colorToHSV pixel])

/-- `onTouchEvent` -/
def onTouchEvent (v : HapticCanvasView) (e : Event) : HapticCanvasView × List Call :=
  if e.currentTab = .brush then (v, [])
  else
    match e.touch with
    | .down x y => ({ v with px := x, py := y, vx := 0, vy := 0 }, [])
    | .move x y vx vy =>
      let v := { v with
        px := x
        py := y
        vx := vx
        vy := vy
        myDrawBitmap := { v.myDrawBitmap with pixel := e.drawn } }
      (v, if e.isDrawing then [] else v.predictPixels colorToHSV (List.range predictHorizon) [])
    | .up => (v, [.send (.mag 0), .send (.mag 0)])
    | .cancel => (v, [])

theorem predictPixels_inside (v : HapticCanvasView) (is : List ℕ) (predictedPixels : List ℚ) :
    ∀ c ∈ v.predictPixels colorToHSV is predictedPixels, c.Inside := by
  induction is generalizing predictedPixels with
  | nil => exact List.forall_mem_singleton.2 trivial
  | cons i is ih =>
    obtain ⟨hx, hx'⟩ := predictPixel_mem v.px v.vx i v.myDrawBitmap.width_pos
    obtain ⟨hy, hy'⟩ := predictPixel_mem v.py v.vy i v.myDrawBitmap.height_pos
    exact lookUp_inside ⟨hx, hx', hy, hy'⟩ fun pixel => ih _

theorem onTouchEvent_inside (v : HapticCanvasView) (e : Event) :
    ∀ c ∈ (v.onTouchEvent colorToHSV e).2, c.Inside := by
  rw [onTouchEvent]
  by_cases htab : e.currentTab = .brush
  · rw [if_pos htab]
    exact List.forall_mem_nil _
  · rw [if_neg htab]
    cases e.touch with
    | down x y => exact List.forall_mem_nil _
    | move x y vx vy =>
      dsimp only
      split_ifs
      · exact List.forall_mem_nil _
      · exact predictPixels_inside colorToHSV _ _ _
    | up => exact List.forall_mem_cons.2 ⟨trivial, List.forall_mem_singleton.2 trivial⟩
    | cancel => exact List.forall_mem_nil _

end HapticCanvasView

/-! ## `BitmapView` -/

/-- `BitmapView` -/
structure BitmapView where
  px : ℚ
  py : ℚ
  logobmp : Bitmap
  stripesbmp : Bitmap
  displaybmp : Bitmap

namespace BitmapView

/-- `bitmapTasks` -/
def bitmapTasks (v : BitmapView) (isScrolling : Bool) : List Call :=
  lookUp ⟨v.displaybmp, clampPixel v.px v.displaybmp.width, clampPixel v.py v.displaybmp.height⟩
    fun pixel => if isScrolling then [] else [.send (.mag (pixelToFriction colorToHSV pixel))]

/-- The bitmap that is shown after a swipe of horizontal velocity `vx`. -/
def swiped (v : BitmapView) (vx : ℚ) : Bitmap :=
  let displaybmp := if vx > 4000 then v.stripesbmp else v.displaybmp
  if vx < -4000 then v.logobmp else displaybmp

/-- `onTouchEvent` -/
def onTouchEvent (v : BitmapView) (e : Event) : BitmapView × List Call :=
  match e.touch with
  | .down x y =>
    let v := { v with px := x, py := y }
    (v, v.bitmapTasks colorToHSV e.isScrolling)
  | .move x y vx vy =>
    let v := { v with displaybmp := v.swiped vx, px := x + vx / 30, py := y + vy / 30 }
    (v, v.bitmapTasks colorToHSV e.isScrolling)
  | .up => (v, [])
  | .cancel => (v, [])

theorem bitmapTasks_inside (v : BitmapView) (isScrolling : Bool) :
    ∀ c ∈ v.bitmapTasks colorToHSV isScrolling, c.Inside := by
  obtain ⟨hx, hx'⟩ := clampPixel_mem v.px v.displaybmp.width_pos
  obtain ⟨hy, hy'⟩ := clampPixel_mem v.py v.displaybmp.height_pos
  refine lookUp_inside ⟨hx, hx', hy, hy'⟩ fun pixel => ?_
  split_ifs
  · exact List.forall_mem_nil _
  · exact List.forall_mem_singleton.2 trivial

theorem onTouchEvent_inside (v : BitmapView) (e : Event) :
    ∀ c ∈ (v.onTouchEvent colorToHSV e).2, c.Inside := by
  rw [onTouchEvent]
  cases e.touch with
  | down x y => exact bitmapTasks_inside colorToHSV _ _
  | move x y vx vy => exact bitmapTasks_inside colorToHSV _ _
  | up => exact List.forall_mem_nil _
  | cancel => exact List.forall_mem_nil _

end BitmapView

/-! ## `TextureView` -/

/-- `pixelToFrequency` of a colour: hue scaled to between 10 and 300 Hz. -/
def pixelToFrequency (pixel : ℤ) : ℚ :=
  let normHue := (colorToHSV pixel).hue / 360
  (normHue + 1 - 2 * normHue) * 290 + 10

/-- `pixelToWaveType` -/
def pixelToWaveType (pixel : ℤ) : ℤ :=
  if (colorToHSV pixel).hue < 120 ∨ (colorToHSV pixel).hue > 320 then square else sinusoid

/-- `TextureView` -/
structure TextureView where
  px : ℚ
  py : ℚ
  displaybmp : Bitmap

namespace TextureView

/-- The texture that is requested for a pixel. -/
def texture (pixel : ℤ) : Message :=
  .wave (pixelToWaveType colorToHSV pixel) (pixelToFrequency colorToHSV pixel)
    (pixelToFriction colorToHSV pixel)

/-- The lookup of `TextureTasks`. -/
def lookup (v : TextureView) : Lookup :=
  ⟨v.displaybmp, clampPixel v.px v.displaybmp.width, clampPixel v.py v.displaybmp.height⟩

/-- `TextureTasks` -/
def textureTasks (v : TextureView) : List Call :=
  lookUp v.lookup fun pixel => [.send (texture colorToHSV pixel)]

/-- `onTouchEvent` -/
def onTouchEvent (v : TextureView) (e : Event) : TextureView × List Call :=
  match e.touch with
  | .down x y =>
    let v := { v with px := x, py := y }
    (v, v.textureTasks colorToHSV)
  | .move x y _ _ =>
    let v := { v with px := x, py := y }
    (v, v.textureTasks colorToHSV)
  | .up => (v, [])
  | .cancel => (v, [])

theorem lookup_inside (v : TextureView) : v.lookup.Inside := by
  obtain ⟨hx, hx'⟩ := clampPixel_mem v.px v.displaybmp.width_pos
  obtain ⟨hy, hy'⟩ := clampPixel_mem v.py v.displaybmp.height_pos
  exact ⟨hx, hx', hy, hy'⟩

theorem textureTasks_inside (v : TextureView) : ∀ c ∈ v.textureTasks colorToHSV, c.Inside :=
  lookUp_inside v.lookup_inside fun _ => List.forall_mem_singleton.2 trivial

/-- The view looks up a pixel and requests its texture. -/
theorem textureTasks_eq (v : TextureView) :
    ∃ pixel, v.lookup.getPixel = some pixel ∧ v.textureTasks colorToHSV =
      [.getPixel v.lookup, .send (texture colorToHSV pixel)] := by
  refine ⟨v.displaybmp.pixel v.lookup.x v.lookup.y, if_pos v.lookup_inside, ?_⟩
  rw [textureTasks, lookUp, Lookup.getPixel, if_pos v.lookup_inside]
  rfl

theorem onTouchEvent_inside (v : TextureView) (e : Event) :
    ∀ c ∈ (v.onTouchEvent colorToHSV e).2, c.Inside := by
  rw [onTouchEvent]
  cases e.touch with
  | down x y => exact textureTasks_inside colorToHSV _
  | move x y vx vy => exact textureTasks_inside colorToHSV _
  | up => exact List.forall_mem_nil _
  | cancel => exact List.forall_mem_nil _

end TextureView

/-! ## `GlassCleanView` -/

/-- A store of the touch thread to a coordinate of `p1`. -/
inductive Store
  | x (q : ℚ)
  | y (q : ℚ)

/-- The stores of `GlassCleanView.onTouchEvent`, in order. -/
def Touch.stores : Touch → List Store
  | down x y => [.x x, .y y]
  | move x y _ _ => [.x x, .y y]
  | up => []
  | cancel => []

/-- Where the drawing thread is in its frame. -/
inductive Frame
  | idle
  /-- It has read `p1.x`. -/
  | readX (x : ℚ)
  /-- `getPixel` threw, which ends the thread. -/
  | ended

/-- `GlassCleanView`: what the touch thread has yet to store, the position, and the frame. -/
structure GlassCleanView where
  toStore : List Store
  x : ℚ
  y : ℚ
  frame : Frame

namespace GlassCleanView

/-- `myCanvasBitmap`, with what has been drawn on it. -/
def myCanvasBitmap (drawn : ℤ → ℤ → ℤ) : Bitmap := ⟨600, 1024, by decide, by decide, drawn⟩

/-- The view before a list of touches, the finger being at the corner. -/
def before (ts : List Touch) : GlassCleanView := ⟨ts.flatMap Touch.stores, 0, 0, .idle⟩

/-- A store is made. -/
def store (v : GlassCleanView) : Store → GlassCleanView
  | .x q => { v with x := q }
  | .y q => { v with y := q }

/-- The calls of a frame that read `x` and `y`. -/
def frameCalls (drawn : ℤ → ℤ → ℤ) (isScrolling drawing : Bool) (x y : ℚ) :
    List Call :=
  lookUp ⟨myCanvasBitmap drawn, saturate x, saturate y⟩ fun pixel =>
    if isScrolling = false ∧ drawing = false then
      [.send (.mag (pixelToFriction colorToHSV pixel))]
    else []

/-- One step of either thread, with its calls. -/
inductive Step : GlassCleanView → List Call → GlassCleanView → Prop
  | store {v : GlassCleanView} {s : Store} {rest : List Store} (h : v.toStore = s :: rest) :
      Step v [] { v.store s with toStore := rest }
  | readX {v : GlassCleanView} (h : v.frame = .idle) : Step v [] { v with frame := .readX v.x }
  | look {v : GlassCleanView} {x : ℚ} (h : v.frame = .readX x)
      (drawn : ℤ → ℤ → ℤ) (isScrolling drawing : Bool) :
      Step v (frameCalls colorToHSV drawn isScrolling drawing x v.y)
        { v with frame :=
          if (Lookup.mk (myCanvasBitmap drawn) (saturate x) (saturate v.y)).Inside then .idle
          else .ended }

/-- The two threads of the view. -/
def system : Lts GlassCleanView (List Call) := ⟨Step colorToHSV⟩

end GlassCleanView

/-- The coordinate is cast into the bitmap. -/
def Store.InView : Store → Prop
  | x q => -1 < q ∧ q < 600
  | y q => -1 < q ∧ q < 1024

/-- A touch that moves `p1` moves it to a point that is cast into the bitmap. -/
def Touch.InView (t : Touch) : Prop := ∀ s ∈ t.stores, s.InView

namespace GlassCleanView

variable {v v' : GlassCleanView} {cs : List Call}

theorem lookup_inside_iff (drawn : ℤ → ℤ → ℤ) (x y : ℚ) :
    (Lookup.mk (myCanvasBitmap drawn) (saturate x) (saturate y)).Inside ↔
      (Store.x x).InView ∧ (Store.y y).InView := by
  have hx := saturate_mem_iff (q := x) (n := 600) (by norm_num) (by norm_num)
  have hy := saturate_mem_iff (q := y) (n := 1024) (by norm_num) (by norm_num)
  push_cast at hx hy
  rw [Store.InView, Store.InView, ← hx, ← hy]
  exact ⟨fun h => ⟨⟨h.1, h.2⟩, h.3, h.4⟩, fun h => ⟨h.1.1, h.1.2, h.2.1, h.2.2⟩⟩

/-- What is stored, to be stored and read is in view. -/
structure Within (v : GlassCleanView) : Prop where
  toStore : ∀ s ∈ v.toStore, s.InView
  x : (Store.x v.x).InView
  y : (Store.y v.y).InView
  frame : ∀ x, v.frame = .readX x → (Store.x x).InView

theorem frameCalls_inside {drawn : ℤ → ℤ → ℤ} {isScrolling drawing : Bool} {x y : ℚ}
    (hx : (Store.x x).InView) (hy : (Store.y y).InView) :
    ∀ c ∈ frameCalls colorToHSV drawn isScrolling drawing x y, c.Inside := by
  refine lookUp_inside ((lookup_inside_iff drawn x y).2 ⟨hx, hy⟩) fun pixel => ?_
  split_ifs
  · exact List.forall_mem_singleton.2 trivial
  · exact List.forall_mem_nil _

/-- A step in view stays so and looks up inside. -/
theorem within_step (hv : v.Within) (h : (system colorToHSV).step v cs v') :
    v'.Within ∧ ∀ c ∈ cs, c.Inside := by
  cases h with
  | @store s rest hs =>
    obtain ⟨hstore, hx, hy, hframe⟩ := hv
    rw [hs] at hstore
    obtain ⟨hin, hrest⟩ := List.forall_mem_cons.1 hstore
    refine ⟨?_, List.forall_mem_nil _⟩
    cases s with
    | x q => exact ⟨hrest, hin, hy, hframe⟩
    | y q => exact ⟨hrest, hx, hin, hframe⟩
  | readX hf =>
    refine ⟨⟨hv.toStore, hv.x, hv.y, fun x hx => ?_⟩, List.forall_mem_nil _⟩
    cases hx
    exact hv.x
  | @look x hf drawn isScrolling drawing =>
    have hx := hv.frame x hf
    refine ⟨⟨hv.toStore, hv.x, hv.y, fun x' hx' => ?_⟩, frameCalls_inside colorToHSV hx hv.y⟩
    dsimp only at hx'
    split_ifs at hx'

/-- The touch thread makes its stores while the drawing thread waits. -/
theorem store_run (ss rest : List Store) (v : GlassCleanView) (h : v.toStore = ss ++ rest) :
    ∃ ls v', (system colorToHSV).Run v ls v' ∧ v'.toStore = rest ∧ v'.frame = v.frame := by
  induction ss generalizing v with
  | nil => exact ⟨[], v, .nil v, h, rfl⟩
  | cons s ss ih =>
    obtain ⟨ls, v', hrun, hrest, hframe⟩ := ih { v.store s with toStore := ss ++ rest } rfl
    refine ⟨[] :: ls, v', .cons (.store h) hrun, hrest, hframe.trans ?_⟩
    cases s <;> rfl

/-- The drawing thread can read a position right after it is stored. -/
theorem look_run {ts : List Touch} {t : Touch} (ht : t ∈ ts) {x y : ℚ}
    (hstores : t.stores = [.x x, .y y]) (drawn : ℤ → ℤ → ℤ) :
    ∃ ls v, (system colorToHSV).Run (before ts) ls v ∧
      ∃ cs ∈ ls, .getPixel ⟨myCanvasBitmap drawn, saturate x, saturate y⟩ ∈ cs := by
  obtain ⟨l, r, rfl⟩ := List.append_of_mem ht
  obtain ⟨ls, v, hrun, hrest, hframe⟩ := store_run colorToHSV (l.flatMap Touch.stores)
    ([.x x, .y y] ++ r.flatMap Touch.stores) (before (l ++ t :: r))
    (by rw [before, List.flatMap_append, List.flatMap_cons, hstores])
  refine ⟨ls ++ [[], [], [], frameCalls colorToHSV drawn true true x y], _, hrun.append
    (.cons (.store hrest) (.cons (.store rfl) (.cons (.readX hframe)
      (.cons (.look rfl drawn true true) (.nil _))))),
    frameCalls colorToHSV drawn true true x y, List.mem_append_right _ (by simp),
    List.mem_cons_self⟩

/-- **The lookups of `GlassCleanView`** are inside at every interleaving of its threads exactly when
every touch is in view. -/
theorem inside_iff (ts : List Touch) :
    (∀ ls v, (system colorToHSV).Run (before ts) ls v → ∀ cs ∈ ls, ∀ c ∈ cs, c.Inside) ↔
      ∀ t ∈ ts, t.InView := by
  constructor
  · intro h t ht
    have hpair {x y : ℚ} (hstores : t.stores = [.x x, .y y]) : t.InView := by
      obtain ⟨ls, v, hrun, cs, hcs, hc⟩ := look_run colorToHSV ht hstores 0
      have hinside := (lookup_inside_iff _ _ _).1 (h ls v hrun cs hcs _ hc)
      rw [Touch.InView, hstores]
      exact List.forall_mem_cons.2 ⟨hinside.1, List.forall_mem_singleton.2 hinside.2⟩
    cases t with
    | down x y => exact hpair rfl
    | move x y vx vy => exact hpair rfl
    | up => exact List.forall_mem_nil _
    | cancel => exact List.forall_mem_nil _
  · intro h ls v hrun
    have hbefore : (before ts).Within :=
      ⟨fun s hs => by
        obtain ⟨t, ht, hs⟩ := List.mem_flatMap.1 hs
        exact h t ht s hs, by norm_num [before, Store.InView], by norm_num [before, Store.InView],
        fun x hx => by cases hx⟩
    generalize before ts = v₀ at hrun hbefore
    induction hrun with
    | nil => exact List.forall_mem_nil _
    | cons hstep _ ih =>
      obtain ⟨hwithin, hinside⟩ := within_step colorToHSV hbefore hstep
      exact List.forall_mem_cons.2 ⟨hinside, ih hwithin⟩

end GlassCleanView

/-! ## The four views -/

/-- **Where lookups are inside.** For all bitmaps and all events of the four views, and whenever the
frames of `GlassCleanView` come, every lookup is inside its bitmap exactly when each touch of
`GlassCleanView` is above −1 and below the size of its bitmap in both coordinates. -/
theorem lookups_iff (canvas : HapticCanvasView) (bitmap : BitmapView) (texture : TextureView)
    (canvasEvents bitmapEvents textureEvents : List Event) (glassTouches : List Touch) :
    ((∀ c ∈ callsOf (HapticCanvasView.onTouchEvent colorToHSV) canvas canvasEvents, c.Inside) ∧
      (∀ c ∈ callsOf (BitmapView.onTouchEvent colorToHSV) bitmap bitmapEvents, c.Inside) ∧
      (∀ c ∈ callsOf (TextureView.onTouchEvent colorToHSV) texture textureEvents, c.Inside) ∧
      ∀ ls v, (GlassCleanView.system colorToHSV).Run (.before glassTouches) ls v →
        ∀ cs ∈ ls, ∀ c ∈ cs, c.Inside) ↔
      ∀ t ∈ glassTouches, t.InView := by
  have hcanvas := callsOf_inside (HapticCanvasView.onTouchEvent_inside colorToHSV) canvas
    canvasEvents
  have hbitmap := callsOf_inside (BitmapView.onTouchEvent_inside colorToHSV) bitmap bitmapEvents
  have htexture := callsOf_inside (TextureView.onTouchEvent_inside colorToHSV) texture textureEvents
  rw [GlassCleanView.inside_iff]
  exact ⟨fun h => h.2.2.2, fun h => ⟨hcanvas, hbitmap, htexture, h⟩⟩

/-- A touch to the right of `GlassCleanView`, and a frame after it. -/
theorem lookups_outside :
    ∃ ls v, (GlassCleanView.system fun _ => ⟨0, 0, 0⟩).Run (.before [.down 700 10]) ls v ∧
      ∃ cs ∈ ls, ∃ c ∈ cs, ¬ c.Inside := by
  obtain ⟨ls, v, hrun, cs, hcs, hc⟩ := GlassCleanView.look_run (fun _ => ⟨0, 0, 0⟩)
    (t := .down 700 10) List.mem_cons_self rfl 0
  refine ⟨ls, v, hrun, cs, hcs, _, hc, fun hinside => ?_⟩
  have hview := ((GlassCleanView.lookup_inside_iff _ _ _).1 hinside).1
  norm_num [Store.InView] at hview

end TPadFire.Views
