import Mathlib.Algebra.Order.Archimedean.Basic
import TPadFire.Foundations.Convert

/-!
# Approaching a target by its integer part

A controller that sees a rational number only by its integer part, and moves it by a part of the
error it sees. It does not pass the target (`approach_le`, `le_approach`), and reaches it after
finitely many steps: `approach_induction` is the induction over them.
-/

namespace TPadFire

/-- One step from `q` towards `target`: the part `c` of the error of the integer part. -/
def approach (c : ℚ) (target : ℤ) (q : ℚ) : ℚ := q + c * (target - truncate q : ℤ)

variable {c q : ℚ} {target : ℤ}

theorem approach_neg (c : ℚ) (target : ℤ) (q : ℚ) :
    approach c (-target) (-q) = -approach c target q := by
  rw [approach, approach, truncate_neg]
  push_cast
  ring

theorem approach_of_eq (h : truncate q = target) : approach c target q = q := by
  rw [approach, h, sub_self, Int.cast_zero, mul_zero, add_zero]

/-- From below the integer part moves up, and not past the target. -/
theorem approach_le (hc : 0 < c) (hc' : c ≤ 1) (h : truncate q ≤ target) :
    truncate q ≤ truncate (approach c target q) ∧ truncate (approach c target q) ≤ target := by
  have herror : (0 : ℚ) ≤ (target - truncate q : ℤ) := by exact_mod_cast sub_nonneg.2 h
  have hpart := mul_le_mul_of_nonneg_right hc' herror
  have hup := mul_nonneg hc.le herror
  push_cast at hpart hup
  have hmono : truncate q ≤ truncate (approach c target q) := truncate_mono (by
    rw [approach]
    push_cast
    linarith)
  refine ⟨hmono, ?_⟩
  rcases le_total 0 q with h0 | h0
  · obtain ⟨ht, -, hlt⟩ := truncate_bounds h0
    rw [← Int.lt_add_one_iff, truncate_lt_iff (by omega), approach]
    push_cast
    linarith
  · obtain ⟨-, hle, -⟩ := truncate_bounds_neg h0
    have htarget : approach c target q ≤ target := by
      rw [approach]
      push_cast
      linarith
    exact (truncate_mono htarget).trans_eq (truncate_intCast target)

/-- From above it moves down. -/
theorem le_approach (hc : 0 < c) (hc' : c ≤ 1) (h : target ≤ truncate q) :
    target ≤ truncate (approach c target q) ∧ truncate (approach c target q) ≤ truncate q := by
  have hle : truncate (-q) ≤ -target := by
    rw [truncate_neg]
    omega
  have hneg := approach_le hc hc' hle
  rw [approach_neg, truncate_neg, truncate_neg] at hneg
  omega

theorem approach_induction_le (hc : 0 < c) (hc' : c ≤ 1) {P : ℚ → Prop}
    (hreached : ∀ q, truncate q = target → P q)
    (hstep : ∀ q, truncate q ≠ target → P (approach c target q) → P q)
    (h : truncate q ≤ target) : P q := by
  -- the induction is on the number of steps of size `c` that the distance has room for
  obtain ⟨n, hn⟩ := Archimedean.arch (target - q) hc
  rw [nsmul_eq_mul] at hn
  induction n generalizing q with
  | zero =>
    rw [Nat.cast_zero, zero_mul, sub_nonpos] at hn
    have hge := truncate_mono hn
    rw [truncate_intCast] at hge
    exact hreached q (by omega)
  | succ n ih =>
    rcases h.eq_or_lt with heq | hlt
    · exact hreached q heq
    · refine hstep q hlt.ne (ih (approach_le hc hc' h).2 ?_)
      have herror : (1 : ℚ) ≤ (target - truncate q : ℤ) := by
        have herror' : 1 ≤ target - truncate q := by omega
        exact_mod_cast herror'
      have hmove := mul_le_mul_of_nonneg_left herror hc.le
      rw [approach]
      push_cast at hn hmove ⊢
      linarith

/-- **Induction along an approach.** What holds at the target, and of a number whenever of the
next, holds of every number. -/
theorem approach_induction (hc : 0 < c) (hc' : c ≤ 1) (target : ℤ) {P : ℚ → Prop}
    (hreached : ∀ q, truncate q = target → P q)
    (hstep : ∀ q, truncate q ≠ target → P (approach c target q) → P q) (q : ℚ) : P q := by
  rcases le_total (truncate q) target with h | h
  · exact approach_induction_le hc hc' hreached hstep h
  · have hle : truncate (-q) ≤ -target := by
      rw [truncate_neg]
      omega
    rw [← neg_neg q]
    refine approach_induction_le (P := fun q => P (-q)) hc hc' ?_ ?_ hle
    · intro q hq
      exact hreached (-q) (by rw [truncate_neg, hq, neg_neg])
    · intro q hq hnext
      refine hstep (-q) (fun heq => hq ?_) ?_
      · rw [← heq, truncate_neg, neg_neg]
      · rw [← neg_neg target, approach_neg]
        exact hnext

end TPadFire
