import Mathlib.Data.Int.Notation
import Mathlib.Data.List.Basic
import Mathlib.Tactic.Common

/-!
# Byte buffers

Java's `ByteBuffer` as far as writing to it goes: an array of fixed length and a position. `put`
fails at the end of the array and `allocate` for a negative length, where Java throws. `array` is
the whole array, with zeros where nothing was written.

`putAll_putAll` says what a new buffer holds after two sequences of `put`s.
-/

namespace TPadFire

/-- A buffer of elements, with the position of the next `put`. -/
structure ByteBuffer (α : Type*) where
  array : List α
  position : ℕ

namespace ByteBuffer

variable {α : Type*} [OfNat α 0]

/-- A buffer of zeros. -/
def allocate (capacity : ℤ) : Option (ByteBuffer α) :=
  if 0 ≤ capacity then some ⟨List.replicate capacity.toNat 0, 0⟩ else none

/-- The position goes back to the start; the array stays. -/
def clear (b : ByteBuffer α) : ByteBuffer α := { b with position := 0 }

/-- Write an element at the position. -/
def put (b : ByteBuffer α) (a : α) : Option (ByteBuffer α) :=
  if b.position < b.array.length then some ⟨b.array.set b.position a, b.position + 1⟩ else none

/-- Write elements one after the other. -/
def putAll (b : ByteBuffer α) (l : List α) : Option (ByteBuffer α) := l.foldlM put b

theorem putAll_eq (pre l : List α) (k : ℕ) :
    putAll ⟨pre ++ List.replicate (l.length + k) 0, pre.length⟩ l =
      some ⟨pre ++ l ++ List.replicate k 0, pre.length + l.length⟩ := by
  induction l generalizing pre with
  | nil => simp [putAll]
  | cons a l ih =>
    have hroom : pre.length < (pre ++ List.replicate ((a :: l).length + k) (0 : α)).length := by
      rw [List.length_append, List.length_replicate, List.length_cons]
      omega
    have hput : put ⟨pre ++ List.replicate ((a :: l).length + k) 0, pre.length⟩ a =
        some ⟨(pre ++ [a]) ++ List.replicate (l.length + k) 0, (pre ++ [a]).length⟩ := by
      rw [put, if_pos hroom, List.length_cons, Nat.add_right_comm, List.replicate_succ,
        List.set_append_right _ _ (Nat.le_refl _), Nat.sub_self, List.set_cons_zero,
        List.append_assoc, List.singleton_append, List.length_append, List.length_singleton]
    rw [putAll, List.foldlM_cons, hput]
    have hrest := ih (pre ++ [a])
    rw [putAll] at hrest
    simp only [Option.bind_eq_bind, Option.bind_some, hrest]
    simp [Nat.add_assoc, Nat.add_comm 1]

theorem allocate_natCast (n : ℕ) :
    allocate (n : ℤ) = some (⟨List.replicate n (0 : α), 0⟩ : ByteBuffer α) := by
  rw [allocate, if_pos (Int.natCast_nonneg n), Int.toNat_natCast]

/-- **What is written to a new buffer** in two parts: the parts, then zeros. -/
theorem putAll_putAll {n : ℕ} (l l' : List α) (h : l.length + l'.length ≤ n) :
    ((putAll ⟨List.replicate n 0, 0⟩ l).bind fun b => b.putAll l').map array =
      some (l ++ l' ++ List.replicate (n - (l.length + l'.length)) 0) := by
  obtain ⟨k, rfl⟩ := Nat.exists_eq_add_of_le h
  have hl := putAll_eq [] l (l'.length + k)
  have hl' := putAll_eq l l' k
  simp only [List.nil_append, List.length_nil, Nat.zero_add, ← Nat.add_assoc] at hl
  rw [hl, Option.bind_some, hl', Option.map_some, Nat.add_sub_cancel_left]

end ByteBuffer

end TPadFire
