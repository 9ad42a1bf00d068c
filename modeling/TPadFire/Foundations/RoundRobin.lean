import Mathlib.Data.ZMod.Defs
import Mathlib.Data.List.Basic

/-!
# Round robin

Parties `Fin n` take turns in a cycle. `scan p n c` is the party served next when `c` was served
last and `p` says who wants to be: the loop that advances a cursor by one, up to `n` times, until
it meets a party that wants. `wait c i` is the number of parties that come before `i`.

* `scan_eq_some_iff`: the scan finds the party that wants and has the shortest wait.
* `wait_lt`: serving another party shortens the wait of one that wants, so that it is passed over
  fewer than `n` times.
-/

namespace TPadFire.RoundRobin

variable {n : ℕ} [NeZero n] {p : Fin n → Bool} {c i j : Fin n} {k : ℕ}

/-- The number of parties whose turn comes before that of `i`, when `c` has had the last one. -/
def wait (c i : Fin n) : ℕ := (i - (c + 1)).val

theorem wait_lt_card (c i : Fin n) : wait c i < n := (i - (c + 1)).isLt

theorem wait_injective : wait c i = wait c j ↔ i = j := by
  unfold wait
  rw [Fin.val_inj, sub_left_inj]

theorem wait_succ_self (c : Fin n) : wait c (c + 1) = 0 := by
  unfold wait
  rw [sub_self, Fin.val_zero]

/-- The wait shortens by one with every turn. -/
theorem wait_of_ne (h : i ≠ c + 1) : wait c i = wait (c + 1) i + 1 := by
  have hne : i - (c + 1) ≠ 0 := sub_ne_zero.2 h
  have hpos : (i - (c + 1)).val ≠ 0 := fun h0 => hne (Fin.ext h0)
  unfold wait
  rw [sub_add_eq_sub_sub i (c + 1) 1, Fin.val_sub_one_of_ne_zero hne]
  omega

/-! ## The scan -/

/-- The party served next, with `k` parties left to look at. -/
def scan (p : Fin n → Bool) : ℕ → Fin n → Option (Fin n)
  | 0, _ => none
  | k + 1, c => if p (c + 1) then some (c + 1) else scan p k (c + 1)

/-- **What the scan finds**: the party that wants, among those within reach, and comes first. -/
theorem scan_eq_some_iff : scan p k c = some i ↔
    wait c i < k ∧ p i = true ∧ ∀ j, wait c j < wait c i → p j = false := by
  induction k generalizing c with
  | zero => simp [scan]
  | succ k ih =>
    unfold scan
    by_cases hp : p (c + 1) = true
    · rw [if_pos hp, Option.some.injEq]
      constructor
      · rintro rfl
        refine ⟨by rw [wait_succ_self]; omega, hp, fun j hj => ?_⟩
        rw [wait_succ_self] at hj
        exact absurd hj (Nat.not_lt_zero _)
      · rintro ⟨-, -, hfirst⟩
        by_contra hne
        have hwait := hfirst (c + 1) (by rw [wait_succ_self, wait_of_ne (Ne.symm hne)]; omega)
        exact Bool.false_ne_true (hwait.symm.trans hp)
    · rw [if_neg hp, ih]
      constructor
      · rintro ⟨hlt, hi, hfirst⟩
        have hne : i ≠ c + 1 := fun h => hp (h ▸ hi)
        rw [wait_of_ne hne]
        refine ⟨by omega, hi, fun j hj => ?_⟩
        by_cases hj' : j = c + 1
        · rw [hj']
          exact eq_false_of_ne_true hp
        · rw [wait_of_ne hj'] at hj
          exact hfirst j (by omega)
      · rintro ⟨hlt, hi, hfirst⟩
        have hne : i ≠ c + 1 := fun h => hp (h ▸ hi)
        rw [wait_of_ne hne] at hlt
        refine ⟨by omega, hi, fun j hj => ?_⟩
        by_cases hj' : j = c + 1
        · rw [hj']
          exact eq_false_of_ne_true hp
        · apply hfirst
          rw [wait_of_ne hj', wait_of_ne hne]
          omega

/-! ## Fairness -/

/-- **Serving another party shortens the wait of one that wants.** -/
theorem wait_lt (hs : scan p n c = some i) (hj : p j = true) (hne : i ≠ j) :
    wait i j < wait c j := by
  obtain ⟨-, -, hfirst⟩ := scan_eq_some_iff.1 hs
  have hle : wait c i < wait c j := by
    rcases lt_trichotomy (wait c i) (wait c j) with h | h | h
    · exact h
    · exact absurd (wait_injective.1 h) hne
    · exact absurd ((hfirst j h).symm.trans hj) Bool.false_ne_true
  have hsub : wait i j = (j - (c + 1) - (i - (c + 1)) - 1).val := by
    unfold wait
    rw [sub_sub_sub_cancel_right, sub_add_eq_sub_sub]
  have hdiff : (j - (c + 1) - (i - (c + 1))).val = wait c j - wait c i :=
    Fin.sub_val_of_le (Fin.le_def.2 hle.le)
  rw [hsub, Fin.val_sub_one_of_ne_zero, hdiff]
  · omega
  · intro h0
    rw [h0, Fin.val_zero] at hdiff
    omega

end TPadFire.RoundRobin
