import Mathlib.Data.Int.Log
import Mathlib.Data.Rat.Floor
import Mathlib.Tactic.Linarith
import Mathlib.Tactic.Positivity
import PredicateSql.Number.Rounding

/-!
Rounding in terms of rational numbers. The spacing is read off the binary logarithm of a quotient,
and a multiple of the spacing is the nearest one if the quotient is within half a spacing of it,
with an even multiple at the ends.
-/
namespace PredicateSql

theorem cast_twoTo (k : Nat) : (twoTo k : ℚ) = 2 ^ k := by
  simp [twoTo]

theorem cast_tenTo (k : Nat) : (tenTo k : ℚ) = 10 ^ k := by
  simp [tenTo]

theorem twoTo_pos (k : Nat) : 0 < twoTo k :=
  Nat.pow_pos (by decide)

theorem twoTo_le_twoTo {j k : Nat} (le : j ≤ k) : twoTo j ≤ twoTo k :=
  Nat.pow_le_pow_right (by decide) le

theorem tenTo_pos (k : Nat) : 0 < tenTo k :=
  Nat.pow_pos (by decide)

theorem cast_twoTo_ne_zero (k : Nat) : (twoTo k : ℚ) ≠ 0 := by
  exact_mod_cast (twoTo_pos k).ne'

theorem cast_tenTo_ne_zero (k : Nat) : (tenTo k : ℚ) ≠ 0 := by
  exact_mod_cast (tenTo_pos k).ne'

/-- An integer power is a quotient of two natural ones, one of which is trivial. -/
theorem zpow_mul_pow_toNat {b : ℚ} (nonzero : b ≠ 0) (k : ℤ) :
    b ^ k * b ^ (-k).toNat = b ^ k.toNat := by
  rw [← zpow_natCast, ← zpow_natCast, ← zpow_add₀ nonzero]
  congr 1
  omega

theorem two_zpow_mul_twoTo (k : ℤ) : (2 : ℚ) ^ k * twoTo (-k).toNat = twoTo k.toNat := by
  simpa only [cast_twoTo] using zpow_mul_pow_toNat two_ne_zero k

theorem ten_zpow_mul_tenTo (k : ℤ) : (10 : ℚ) ^ k * tenTo (-k).toNat = tenTo k.toNat := by
  simpa only [cast_tenTo] using zpow_mul_pow_toNat (by norm_num) k

/-- A quotient in units of `2 ^ k`, as a quotient of natural numbers. -/
theorem scaled_quotient (n d : Nat) (k : ℤ) :
    ((n * twoTo (-k).toNat : Nat) : ℚ) / (d * twoTo k.toNat : Nat) = n / d / 2 ^ k := by
  push_cast
  rw [← two_zpow_mul_twoTo k, ← mul_assoc, mul_div_mul_right _ _ (cast_twoTo_ne_zero _), div_div]

namespace Precision

/-- The integer `q` is within one half of the number, and at a distance of one half only if it is
even. -/
structure IsNearest (q : Nat) (v : ℚ) : Prop where
  low : q - 1 / 2 ≤ v
  high : v ≤ q + 1 / 2
  even : q % 2 = 0 ∨ q - 1 / 2 < v ∧ v < q + 1 / 2

/-- What it says of a quotient, without fractions. -/
theorem IsNearest.bounds {n d q : Nat} (near : IsNearest q (n / d)) (positive : 0 < d) :
    2 * (d * q) ≤ 2 * n + d ∧ 2 * n ≤ 2 * (d * q) + d ∧
      (q % 2 = 0 ∨ 2 * (d * q) < 2 * n + d ∧ 2 * n < 2 * (d * q) + d) := by
  have unit : (0 : ℚ) < d := by exact_mod_cast positive
  refine ⟨?_, ?_, near.even.imp_right fun ⟨below, above⟩ => ⟨?_, ?_⟩⟩
  · have low := (le_div_iff₀ unit).mp near.low
    have low : (2 * (d * q) : ℚ) ≤ 2 * n + d := by linarith
    exact_mod_cast low
  · have high := (div_le_iff₀ unit).mp near.high
    have high : (2 * n : ℚ) ≤ 2 * (d * q) + d := by linarith
    exact_mod_cast high
  · have low := (lt_div_iff₀ unit).mp below
    have low : (2 * (d * q) : ℚ) < 2 * n + d := by linarith
    exact_mod_cast low
  · have high := (div_lt_iff₀ unit).mp above
    have high : (2 * n : ℚ) < 2 * (d * q) + d := by linarith
    exact_mod_cast high

theorem nearestInteger_eq {n d q : Nat} (positive : 0 < d) (near : IsNearest q (n / d)) :
    nearestInteger n d = q := by
  obtain ⟨low, high, even⟩ := near.bounds positive
  have division := Nat.div_add_mod n d
  have rest := Nat.mod_lt n positive
  unfold nearestInteger
  generalize n / d = floor at *
  generalize n % d = r at *
  dsimp only
  -- the nearest integer is the floor or one more
  obtain rfl | rfl : q = floor ∨ q = floor + 1 := by
    rcases lt_trichotomy q floor with below | same | above
    · have := Nat.mul_le_mul_left d (show q + 1 ≤ floor from below)
      rw [Nat.mul_add] at this
      omega
    · exact .inl same
    · rcases Nat.lt_or_ge (floor + 1) q with far | near
      · have := Nat.mul_le_mul_left d (show floor + 2 ≤ q from far)
        rw [Nat.mul_add] at this
        omega
      · exact .inr (by omega)
  · split
    · rfl
    · split <;> omega
  · rw [Nat.mul_add] at low high even
    split
    · omega
    · split
      · rfl
      · omega

variable {p : Precision} {n d : Nat}

/-- A quotient stays below a power of two just if its logarithm does. -/
theorem lt_two_zpow_iff {v : ℚ} (positive : 0 < v) (k : ℤ) : v < 2 ^ k ↔ Int.log 2 v < k := by
  exact_mod_cast Int.lt_zpow_iff_log_lt (by decide) positive

theorem two_zpow_le_iff {v : ℚ} (positive : 0 < v) (k : ℤ) : 2 ^ k ≤ v ↔ k ≤ Int.log 2 v := by
  exact_mod_cast Int.zpow_le_iff_le_log (by decide) positive

theorem spacing_eq_log (digits : 0 < p.digits) (nPos : 0 < n) (dPos : 0 < d) :
    p.spacing n d = max p.least (Int.log 2 (n / d : ℚ) - p.digits + 1) := by
  have nPos' : (0 : ℚ) < n := by exact_mod_cast nPos
  have dPos' : (0 : ℚ) < d := by exact_mod_cast dPos
  have positive : (0 : ℚ) < n / d := div_pos nPos' dPos'
  have nLow : (2 : ℚ) ^ n.log2 ≤ n := by exact_mod_cast Nat.log2_self_le nPos.ne'
  have nHigh : (n : ℚ) < 2 ^ (n.log2 + 1) := by exact_mod_cast Nat.lt_log2_self
  have dLow : (2 : ℚ) ^ d.log2 ≤ d := by exact_mod_cast Nat.log2_self_le dPos.ne'
  have dHigh : (d : ℚ) < 2 ^ (d.log2 + 1) := by exact_mod_cast Nat.lt_log2_self
  -- the logarithms of both numbers give the one of the quotient up to one
  have upper : Int.log 2 (n / d : ℚ) < n.log2 + 1 - d.log2 := by
    rw [← lt_two_zpow_iff positive, zpow_sub₀ two_ne_zero]
    exact div_lt_div₀ (by exact_mod_cast nHigh) (by exact_mod_cast dLow) (zpow_nonneg zero_le_two _)
      (zpow_pos zero_lt_two _)
  have lower : (n.log2 : ℤ) - (d.log2 + 1) ≤ Int.log 2 (n / d : ℚ) := by
    rw [← two_zpow_le_iff positive, zpow_sub₀ two_ne_zero]
    exact div_le_div₀ nPos'.le (by exact_mod_cast nLow) dPos' (by exact_mod_cast dHigh.le)
  have short (k : ℤ) : (n * twoTo (-k).toNat < twoTo (p.digits - 1) * d * twoTo k.toNat) ↔
      Int.log 2 (n / d : ℚ) < (p.digits - 1 : Nat) + k := by
    have unit : (0 : ℚ) < (d * twoTo k.toNat : Nat) := by
      exact_mod_cast Nat.mul_pos dPos (twoTo_pos _)
    rw [← lt_two_zpow_iff positive, zpow_add₀ two_ne_zero, ← div_lt_iff₀ (zpow_pos zero_lt_two k),
      ← scaled_quotient,
      div_lt_iff₀ unit, zpow_natCast, ← cast_twoTo, mul_assoc]
    exact_mod_cast Iff.rfl
  simp only [spacing, short]
  split <;> congr 1 <;> omega

theorem nearest_eq {q : Nat} {k : ℤ} (dPos : 0 < d) (spacing : p.spacing n d = k)
    (near : IsNearest q (n / d / 2 ^ k)) : p.nearest n d = (q, k) := by
  rw [← scaled_quotient] at near
  rw [nearest, spacing, nearestInteger_eq (Nat.mul_pos dPos (twoTo_pos _)) near]

end Precision
end PredicateSql
