import Mathlib.Data.List.FinRange
import Mathlib.Data.List.OfFn
import Mathlib.Logic.Function.Basic
import Mathlib.Tactic.Common

/-!
# Blocks of memory and cyclic playback

A block of `n` cells is a function on `Fin n`. `contents b k` lists its first `k` cells. `memmove`
copies the first `k` cells of a block over those of another, and `storeAll` copies the cells of a
list of positions one after the other, which is the same when the list is the first `k` positions
(`storeAll_take_finRange`). `overlay` writes a list over the front of a block.

`succ_mod` is the index arithmetic of a player that steps through `L` cells and starts again.
-/

namespace TPadFire

/-- A block of `n` cells. -/
abbrev Block (α : Type*) (n : ℕ) := Fin n → α

namespace Block

variable {α : Type*} {n m : ℕ}

/-- The first `k` cells. -/
def contents (b : Block α n) (k : ℕ) : List α := (List.ofFn b).take k

@[simp] theorem length_contents (b : Block α n) (k : ℕ) : (b.contents k).length = min k n := by
  simp [contents]

theorem getElem_contents (b : Block α n) (k : ℕ) {i : ℕ} (h : i < (b.contents k).length)
    (hn : i < n) : (b.contents k)[i] = b ⟨i, hn⟩ := by
  simp [contents]

/-- Blocks of two sizes have the same first `k` cells. -/
theorem contents_eq_iff {b : Block α n} {b' : Block α m} {k : ℕ} (hn : k ≤ n) (hm : k ≤ m) :
    b.contents k = b'.contents k ↔
      ∀ i (h : i < k), b ⟨i, h.trans_le hn⟩ = b' ⟨i, h.trans_le hm⟩ := by
  constructor
  · intro h i hi
    have hl : i < (b.contents k).length := by rw [length_contents]; omega
    have hl' : i < (b'.contents k).length := by rw [length_contents]; omega
    rw [← b.getElem_contents k hl, ← b'.getElem_contents k hl']
    simp only [h]
  · intro h
    apply List.ext_getElem (by rw [length_contents, length_contents]; omega)
    intro i hl hl'
    have hi : i < k := by rw [length_contents] at hl; omega
    rw [b.getElem_contents k hl (by omega), b'.getElem_contents k hl' (by omega)]
    exact h i hi

/-- The cell at an integer index, if the index is in range. -/
def cell? (b : Block α n) (z : ℤ) : Option α :=
  if h : 0 ≤ z ∧ z < n then some (b ⟨z.toNat, by omega⟩) else none

theorem cell?_eq_some {b : Block α n} {z : ℤ} {a : α} :
    b.cell? z = some a ↔ ∃ h : z.toNat < n, 0 ≤ z ∧ b ⟨z.toNat, h⟩ = a := by
  rw [cell?]
  split_ifs with h
  · simp only [Option.some.injEq]
    exact ⟨fun hb => ⟨by omega, h.1, hb⟩, fun ⟨_, _, hb⟩ => hb⟩
  · simp only [false_iff, not_exists, not_and]
    intro h1 h2
    omega

theorem cell?_natCast (b : Block α n) {k : ℕ} (h : k < n) : b.cell? k = some (b ⟨k, h⟩) :=
  cell?_eq_some.2 ⟨h, by omega, rfl⟩

theorem cell?_isSome {b : Block α n} {z : ℤ} (h0 : 0 ≤ z) (h : z < n) : ∃ a, b.cell? z = some a :=
  ⟨_, cell?_eq_some.2 ⟨by omega, h0, rfl⟩⟩

/-! ## Copying -/

/-- Copy the first `k` cells of `src` over those of `dst`. -/
def memmove (h : n ≤ m) (dst : Block α n) (src : Block α m) (k : ℕ) : Block α n := fun i =>
  if (i : ℕ) < k then src (Fin.castLE h i) else dst i

theorem contents_memmove {h : n ≤ m} (dst : Block α n) (src : Block α m) {k : ℕ} (hk : k ≤ n) :
    (memmove h dst src k).contents k = src.contents k := by
  rw [contents_eq_iff hk (hk.trans h)]
  intro i hi
  simp only [memmove, hi, if_true, Fin.castLE_mk]

/-- Copy the cells at the positions `is`, in order. -/
def storeAll (h : n ≤ m) (src : Block α m) (dst : Block α n) (is : List (Fin n)) : Block α n :=
  is.foldl (fun b i => Function.update b i (src (Fin.castLE h i))) dst

theorem storeAll_cons {h : n ≤ m} (src : Block α m) (dst : Block α n) (i : Fin n)
    (is : List (Fin n)) : storeAll h src dst (i :: is) =
      storeAll h src (Function.update dst i (src (Fin.castLE h i))) is := rfl

theorem storeAll_apply {h : n ≤ m} (src : Block α m) (dst : Block α n) (is : List (Fin n))
    (i : Fin n) : storeAll h src dst is i = if i ∈ is then src (Fin.castLE h i) else dst i := by
  induction is generalizing dst with
  | nil => simp [storeAll]
  | cons j is ih =>
    rw [storeAll_cons, ih]
    by_cases hij : i = j
    · simp [hij]
    · simp [hij]

theorem mem_take_finRange {k : ℕ} {i : Fin n} : i ∈ (List.finRange n).take k ↔ (i : ℕ) < k := by
  rw [List.mem_take_iff_getElem]
  constructor
  · rintro ⟨j, hj, rfl⟩
    simp only [List.getElem_finRange, Fin.val_cast, List.length_finRange] at hj ⊢
    omega
  · intro hi
    exact ⟨i, by simp only [List.length_finRange]; omega, by simp⟩

/-- Copying the first `k` cells one by one copies them. -/
theorem storeAll_take_finRange {h : n ≤ m} (src : Block α m) (dst : Block α n) (k : ℕ) :
    storeAll h src dst ((List.finRange n).take k) = memmove h dst src k := by
  funext i
  rw [storeAll_apply, memmove]
  simp only [mem_take_finRange]

/-- Write the list `l` over the front of the block. -/
def overlay (l : List α) (b : Block α n) : Block α n := fun i =>
  if h : (i : ℕ) < l.length then l[(i : ℕ)] else b i

theorem overlay_of_lt {l : List α} (b : Block α n) {i : Fin n} (h : (i : ℕ) < l.length) :
    overlay l b i = l[(i : ℕ)] := by
  simp [overlay, h]

theorem overlay_of_le {l : List α} (b : Block α n) {i : Fin n} (h : l.length ≤ (i : ℕ)) :
    overlay l b i = b i := by
  simp [overlay, h]

/-- A list that fits is found at the front of the block. -/
theorem contents_overlay {l : List α} (b : Block α n) (h : l.length ≤ n) :
    (overlay l b).contents l.length = l := by
  apply List.ext_getElem (by rw [length_contents]; omega)
  intro i hi hi'
  rw [getElem_contents _ _ hi (by omega), overlay_of_lt b hi']

end Block

/-! ## Cyclic playback -/

/-- The position after `k` steps through `L` cells, one step later. -/
theorem succ_mod {L : ℕ} (hL : 0 < L) (k : ℕ) :
    (k + 1) % L = if k % L + 1 = L then 0 else k % L + 1 := by
  have hk : k % L < L := Nat.mod_lt k hL
  rw [← Nat.mod_add_mod]
  split_ifs with h
  · rw [h, Nat.mod_self]
  · exact Nat.mod_eq_of_lt (by omega)

end TPadFire
