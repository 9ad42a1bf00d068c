import Mathlib.Data.Set.Insert

/-!
# Leased resources

A program that gets resources from a pool and gives them back leaves a trace of accesses. The trace
is disciplined when every use of a resource, and every return of it, is made while the program holds
it: after the request that returned it and before it is given back.
-/

namespace TPadFire

/-- An access to a resource of type `ρ`, by an operation of type `ω` unless it is requested or
given back. -/
inductive Access (ω ρ : Type*)
  | obtain (resource : ρ)
  | use (operation : ω) (resource : ρ)
  | recycle (resource : ρ)

variable {ω ρ : Type*}

/-- The resources held after a trace. -/
def heldAfter (held : Set ρ) : List (Access ω ρ) → Set ρ
  | [] => held
  | .obtain r :: trace => heldAfter (insert r held) trace
  | .use _ _ :: trace => heldAfter held trace
  | .recycle r :: trace => heldAfter (held \ {r}) trace

/-- Each access is made to a resource that is held at the time. -/
def Disciplined (held : Set ρ) : List (Access ω ρ) → Prop
  | [] => True
  | .obtain r :: trace => Disciplined (insert r held) trace
  | .use _ r :: trace => r ∈ held ∧ Disciplined held trace
  | .recycle r :: trace => r ∈ held ∧ Disciplined (held \ {r}) trace

theorem disciplined_append (held : Set ρ) (trace trace' : List (Access ω ρ)) :
    Disciplined held (trace ++ trace') ↔
      Disciplined held trace ∧ Disciplined (heldAfter held trace) trace' := by
  induction trace generalizing held with
  | nil => simp [Disciplined, heldAfter]
  | cons a trace ih =>
    cases a with
    | obtain r => exact ih (insert r held)
    | use o r => exact (and_congr_right fun _ => ih held).trans and_assoc.symm
    | recycle r => exact (and_congr_right fun _ => ih (held \ {r})).trans and_assoc.symm

/-- Operations on a resource that is held are disciplined, and leave it held. -/
theorem disciplined_uses {held : Set ρ} {r : ρ} (h : r ∈ held) (operations : List ω) :
    Disciplined held (operations.map fun o => Access.use o r) ∧
      heldAfter held (operations.map fun o => Access.use o r) = held := by
  induction operations with
  | nil => exact ⟨trivial, rfl⟩
  | cons o operations ih => exact ⟨⟨h, ih.1⟩, ih.2⟩

end TPadFire
