import Mathlib.Data.Rat.Floor
import Mathlib.Tactic.FieldSimp
import Mathlib.Tactic.Positivity
import Mathlib.Tactic.Ring

/-!
# Narrowing conversions

Conversions between number types as C and Java make them, with floating point read as exact
rationals. `truncate` is the conversion of a floating point value to an integer type, towards zero;
`lowBits k` keeps the low `k` bits of an integer, as a store to an unsigned `k`-bit register does,
and `signed k` reads them in two's complement. `saturate` is Java's conversion to `int`, which stops
at the ends of the range. `remainder` is `%` of floating point values, whose sign is that of the
dividend.
-/

namespace TPadFire

/-- A floating point value converted to an integer: the fraction is dropped. -/
def truncate (q : ℚ) : ℤ := q.num.tdiv q.den

theorem truncate_of_nonneg {q : ℚ} (h : 0 ≤ q) : truncate q = ⌊q⌋ := by
  rw [truncate, Rat.floor_def', Int.tdiv_eq_ediv_of_nonneg (Rat.num_nonneg.2 h)]

theorem truncate_neg (q : ℚ) : truncate (-q) = -truncate q := by
  rw [truncate, truncate, Rat.neg_num, Rat.neg_den, Int.neg_tdiv]

theorem truncate_of_nonpos {q : ℚ} (h : q ≤ 0) : truncate q = ⌈q⌉ := by
  rw [← neg_neg q, truncate_neg, truncate_of_nonneg (neg_nonneg.2 h), Int.floor_neg, neg_neg,
    neg_neg]

/-- From 0 up the integer is below the value it is taken from. -/
theorem truncate_bounds {q : ℚ} (h : 0 ≤ q) :
    0 ≤ truncate q ∧ (truncate q : ℚ) ≤ q ∧ q < truncate q + 1 := by
  rw [truncate_of_nonneg h]
  exact ⟨Int.floor_nonneg.2 h, Int.floor_le q, Int.lt_floor_add_one q⟩

/-- From 0 down it is above. -/
theorem truncate_bounds_neg {q : ℚ} (h : q ≤ 0) :
    truncate q ≤ 0 ∧ q ≤ truncate q ∧ (truncate q : ℚ) < q + 1 := by
  obtain ⟨h0, hle, hlt⟩ := truncate_bounds (neg_nonneg.2 h)
  rw [truncate_neg] at h0 hle hlt
  push_cast at hle hlt
  exact ⟨by omega, by linarith, by linarith⟩

theorem truncate_mono {q q' : ℚ} (h : q ≤ q') : truncate q ≤ truncate q' := by
  rcases le_total 0 q with h0 | h0
  · rw [truncate_of_nonneg h0, truncate_of_nonneg (h0.trans h)]
    exact Int.floor_mono h
  rcases le_total 0 q' with h0' | h0'
  · exact (truncate_bounds_neg h0).1.trans (truncate_bounds h0').1
  · rw [truncate_of_nonpos h0, truncate_of_nonpos h0']
    exact Int.ceil_mono h

theorem le_truncate_iff {q : ℚ} {z : ℤ} (hz : z ≤ 0) : z ≤ truncate q ↔ (z : ℚ) - 1 < q := by
  rcases le_total 0 q with h0 | h0
  · have hz' : (z : ℚ) ≤ 0 := by exact_mod_cast hz
    exact iff_of_true (hz.trans (truncate_bounds h0).1) (by linarith)
  · rw [truncate_of_nonpos h0, Int.le_ceil_iff]

theorem truncate_lt_iff {q : ℚ} {z : ℤ} (hz : 0 < z) : truncate q < z ↔ q < z := by
  rcases le_total 0 q with h0 | h0
  · rw [truncate_of_nonneg h0, Int.floor_lt]
  · have hz' : (0 : ℚ) < z := by exact_mod_cast hz
    exact iff_of_true ((truncate_bounds_neg h0).1.trans_lt hz) (h0.trans_lt hz')

/-- The values whose integer lies between 0 and `n`. -/
theorem truncate_mem_iff {q : ℚ} {n : ℤ} (hn : 0 < n) :
    (0 ≤ truncate q ∧ truncate q < n) ↔ -1 < q ∧ q < n := by
  rw [le_truncate_iff le_rfl, truncate_lt_iff hn, Int.cast_zero, zero_sub]

theorem truncate_intCast (z : ℤ) : truncate z = z := by
  rw [truncate, Rat.num_intCast, Rat.den_intCast, Nat.cast_one, Int.tdiv_one]

/-- A quotient of naturals is truncated to the integer quotient. -/
theorem truncate_natCast_div (a b : ℕ) : truncate ((a : ℚ) / b) = ((a / b : ℕ) : ℤ) := by
  rw [truncate_of_nonneg (by positivity), Rat.floor_natCast_div_natCast]
  exact Int.natCast_div a b

/-- The low `k` bits of an integer. -/
def lowBits (k : ℕ) (z : ℤ) : ℕ := (z % 2 ^ k).toNat

theorem lowBits_lt (k : ℕ) (z : ℤ) : lowBits k z < 2 ^ k := by
  have h := Int.emod_lt_of_pos z (b := 2 ^ k) (by positivity)
  have h' : ((2 ^ k : ℕ) : ℤ) = 2 ^ k := by push_cast; rfl
  rw [lowBits]
  omega

theorem lowBits_of_lt {k : ℕ} {z : ℤ} (h0 : 0 ≤ z) (h : z < 2 ^ k) : (lowBits k z : ℤ) = z := by
  rw [lowBits, Int.emod_eq_of_lt h0 h, Int.toNat_of_nonneg h0]

/-- An integer brought to the range of the `k`-bit signed type. -/
def signed (k : ℕ) (z : ℤ) : ℤ := Int.bmod z (2 ^ k)

theorem signed_of_mem {k : ℕ} {z : ℤ} (h : -2 ^ k ≤ z) (h' : z < 2 ^ k) :
    signed (k + 1) z = z := by
  have hpow : ((2 ^ (k + 1) : ℕ) : ℤ) = 2 * 2 ^ k := by push_cast; ring
  rw [signed, Int.bmod_eq_of_le] <;> omega

theorem signed_mem (k : ℕ) (z : ℤ) : -2 ^ k ≤ signed (k + 1) z ∧ signed (k + 1) z < 2 ^ k := by
  have hpow : ((2 ^ (k + 1) : ℕ) : ℤ) = 2 * 2 ^ k := by push_cast; ring
  have hlow := Int.le_bmod (x := z) (m := 2 ^ (k + 1)) (by positivity)
  have hhigh := Int.bmod_lt (x := z) (m := 2 ^ (k + 1)) (by positivity)
  rw [signed]
  omega

/-- The low bits carry the integer. -/
theorem signed_lowBits (k : ℕ) (z : ℤ) : signed k (lowBits k z) = signed k z := by
  have hpow : ((2 ^ k : ℕ) : ℤ) = 2 ^ k := by push_cast; rfl
  rw [signed, signed, lowBits, Int.toNat_of_nonneg (Int.emod_nonneg z (by positivity)), ← hpow,
    Int.emod_bmod]

/-- Java's conversion of a floating point value to `int`. -/
def saturate (q : ℚ) : ℤ := max (-2 ^ 31) (min (2 ^ 31 - 1) (truncate q))

theorem saturate_of_mem {q : ℚ} (h0 : 0 ≤ q) (h : q < 2 ^ 31) : saturate q = ⌊q⌋ := by
  have hq : ⌊q⌋ < 2 ^ 31 := by
    rw [Int.floor_lt]
    exact_mod_cast h
  have hq' := Int.floor_nonneg.2 h0
  rw [saturate, truncate_of_nonneg h0, min_eq_right (by omega), max_eq_right (by omega)]

theorem saturate_mem_iff {q : ℚ} {n : ℤ} (hn : 0 < n) (hn' : n < 2 ^ 31) :
    (0 ≤ saturate q ∧ saturate q < n) ↔ -1 < q ∧ q < n := by
  rw [← truncate_mem_iff hn, saturate]
  omega

/-- `a % b` of floating point values. -/
def remainder (a b : ℚ) : ℚ := a - b * truncate (a / b)

theorem remainder_bounds {a b : ℚ} (h : 0 ≤ a) (hb : 0 < b) :
    0 ≤ remainder a b ∧ remainder a b < b := by
  obtain ⟨-, hle, hlt⟩ := truncate_bounds (div_nonneg h hb.le)
  rw [le_div_iff₀ hb] at hle
  rw [div_lt_iff₀ hb] at hlt
  rw [remainder]
  constructor <;> linarith

theorem truncate_intCast_div (z : ℤ) (n : ℕ) : truncate ((z : ℚ) / n) = z.tdiv n := by
  rcases Int.eq_nat_or_neg z with ⟨a, rfl | rfl⟩
  · exact truncate_natCast_div a n
  · have h := truncate_natCast_div a n
    rw [Int.cast_neg, Int.cast_natCast, neg_div, truncate_neg, h, Int.neg_tdiv, Int.ofNat_tdiv]

/-- Of integers it is the integer remainder. -/
theorem remainder_intCast (z : ℤ) (n : ℕ) : remainder z n = (z.tmod n : ℤ) := by
  rw [remainder, truncate_intCast_div, Int.tmod_def]
  push_cast
  rfl

theorem remainder_neg (a b : ℚ) : remainder (-a) b = -remainder a b := by
  rw [remainder, remainder, neg_div, truncate_neg]
  push_cast
  ring

theorem remainder_bounds_neg {a b : ℚ} (h : a ≤ 0) (hb : 0 < b) :
    -b < remainder a b ∧ remainder a b ≤ 0 := by
  obtain ⟨h0, hlt⟩ := remainder_bounds (neg_nonneg.2 h) hb
  rw [remainder_neg] at h0 hlt
  constructor <;> linarith

end TPadFire
