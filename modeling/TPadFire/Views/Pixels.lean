import TPadFire.Foundations.Lts
import TPadFire.Host.TPad

/-!
# Views that feel a bitmap

The views `HapticCanvasView`, `BitmapView`, `TextureView` and `GlassCleanView` turn the position of
the finger into a pixel of a bitmap and the pixel's colour into what is sent to the TPad. A position
is any number, also outside the view, and `getPixel` throws outside the bitmap. What a handler does
is the list of its calls; a lookup that throws is the last of them.

`Color.colorToHSV` is a parameter. What other parts of an application set is part of the event: the
current tab, whether the finger draws, whether the drawer is scrolling, and what is drawn.
-/

namespace TPadFire.Views

open Host (Message square sinusoid)

/-- What `Color.colorToHSV` gives: hue 0-360, saturation 0-1, value 0-1. -/
structure Hsv where
  hue : ℚ
  saturation : ℚ
  value : ℚ

/-- `Bitmap`; there is none without pixels. -/
structure Bitmap where
  width : ℕ
  height : ℕ
  width_pos : 0 < width
  height_pos : 0 < height
  pixel : ℤ → ℤ → ℤ

/-! ## Calls -/

/-- A call of `getPixel`. -/
structure Lookup where
  bitmap : Bitmap
  x : ℤ
  y : ℤ

/-- The lookup names a pixel of the bitmap. -/
structure Lookup.Inside (l : Lookup) : Prop where
  x_nonneg : 0 ≤ l.x
  x_lt : l.x < l.bitmap.width
  y_nonneg : 0 ≤ l.y
  y_lt : l.y < l.bitmap.height

instance (l : Lookup) : Decidable l.Inside :=
  decidable_of_iff (0 ≤ l.x ∧ l.x < l.bitmap.width ∧ 0 ≤ l.y ∧ l.y < l.bitmap.height)
    ⟨fun h => ⟨h.1, h.2.1, h.2.2.1, h.2.2.2⟩, fun h => ⟨h.1, h.2, h.3, h.4⟩⟩

/-- The pixel; outside the bitmap `getPixel` throws. -/
def Lookup.getPixel (l : Lookup) : Option ℤ :=
  if l.Inside then some (l.bitmap.pixel l.x l.y) else none

/-- What a view calls: a lookup, or a method of `TPad` that sends. -/
inductive Call
  | getPixel (l : Lookup)
  | send (m : Message)

/-- A lookup is inside its bitmap. -/
def Call.Inside : Call → Prop
  | getPixel l => l.Inside
  | send _ => True

/-- A lookup, and what is called with the pixel. -/
def lookUp (l : Lookup) (k : ℤ → List Call) : List Call :=
  .getPixel l :: match l.getPixel with
    | some pixel => k pixel
    | none => []

theorem lookUp_inside {l : Lookup} {k : ℤ → List Call} (hl : l.Inside)
    (hk : ∀ pixel, ∀ c ∈ k pixel, c.Inside) : ∀ c ∈ lookUp l k, c.Inside := by
  refine List.forall_mem_cons.2 ⟨hl, ?_⟩
  cases l.getPixel with
  | some pixel => exact hk pixel
  | none => exact List.forall_mem_nil _

/-! ## Events -/

/-- The tabs of `HapticCanvasActivity`. -/
inductive Tab
  | file
  | brush
  | edit
  | feel
  deriving DecidableEq

/-- A motion event, with what the velocity tracker computes at it. -/
inductive Touch
  | down (x y : ℚ)
  | move (x y vx vy : ℚ)
  | up
  | cancel

/-- A motion event and what else the handlers read at that time. -/
structure Event where
  touch : Touch
  currentTab : Tab
  isDrawing : Bool
  isScrolling : Bool
  /-- What is on the bitmap that the finger can draw on. -/
  drawn : ℤ → ℤ → ℤ

section Handlers

variable {σ : Type*} {onTouchEvent : σ → Event → σ × List Call}

/-- The calls of a handler over a list of events. -/
def callsOf (onTouchEvent : σ → Event → σ × List Call) : σ → List Event → List Call
  | _, [] => []
  | v, e :: es => (onTouchEvent v e).2 ++ callsOf onTouchEvent (onTouchEvent v e).1 es

/-- A handler that makes no lookup outside at any event makes none at all. -/
theorem callsOf_inside (h : ∀ v e, ∀ c ∈ (onTouchEvent v e).2, c.Inside) (v : σ)
    (es : List Event) : ∀ c ∈ callsOf onTouchEvent v es, c.Inside := by
  induction es generalizing v with
  | nil => exact List.forall_mem_nil _
  | cons e es ih =>
    exact List.forall_mem_append.2 ⟨h v e, ih _⟩

end Handlers

/-! ## Positions -/

/-- The pixel index of `bitmapTasks` and `TextureTasks` for a position, with `n` pixels. -/
def clampPixel (p : ℚ) (n : ℕ) : ℤ :=
  if p ≥ (n : ℚ) - 1 then (n : ℤ) - 1 else if p ≤ 0 then 0 else saturate p

/-- The pixel index of `predictPixels` for the sample `i`. -/
def predictPixel (p v : ℚ) (i n : ℕ) : ℤ :=
  let x := saturate (p + v / 10 * i)
  if x ≥ n then (n : ℤ) - 1 else if x < 0 then 0 else x

theorem clampPixel_mem (p : ℚ) {n : ℕ} (hn : 0 < n) :
    0 ≤ clampPixel p n ∧ clampPixel p n < n := by
  rw [clampPixel]
  split_ifs with hhigh hlow
  · omega
  · omega
  · have hpos : 0 ≤ p := (not_le.1 hlow).le
    obtain ⟨h0, hle, -⟩ := truncate_bounds hpos
    have hlt : (truncate p : ℚ) < (n : ℤ) := by
      push_cast
      linarith
    have hlt' : truncate p < n := by exact_mod_cast hlt
    rw [saturate]
    omega

theorem predictPixel_mem (p v : ℚ) (i : ℕ) {n : ℕ} (hn : 0 < n) :
    0 ≤ predictPixel p v i n ∧ predictPixel p v i n < n := by
  rw [predictPixel]
  split_ifs <;> omega

variable (colorToHSV : ℤ → Hsv)

/-- `pixelToFriction` -/
def pixelToFriction (pixel : ℤ) : ℚ := (colorToHSV pixel).value

end TPadFire.Views
