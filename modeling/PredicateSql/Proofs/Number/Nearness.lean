import PredicateSql.Number.Shortest
import PredicateSql.Proofs.Number.Rounding

/-!
The numbers near a floating-point number. A rational number that lies in the interval around a
finite number is rounded to this number, also where a binade begins: below its least number the
spacing is half as wide.
-/
namespace PredicateSql

namespace Double

variable {x : Double}

theorem twoTo_52 : twoTo 52 = 4503599627370496 := by decide

theorem twoTo_53 : twoTo 53 = 9007199254740992 := by decide

theorem twoTo_63 : twoTo 63 = 9223372036854775808 := by decide

theorem fraction_lt (x : Double) : x.fraction < twoTo 52 :=
  Nat.mod_lt _ (twoTo_pos 52)

theorem exponentField_lt (x : Double) : x.exponentField < 2048 :=
  Nat.mod_lt _ (by decide)

/-- A number is given by its sign and its fields. -/
theorem ofFields_fields (x : Double) : ofFields x.negative x.exponentField x.fraction = x := by
  have bound : x.bits.toNat < 2 ^ 64 := x.bits.toNat_lt
  suffices (if x.negative then twoTo 63 else 0) + x.exponentField * twoTo 52 + x.fraction =
      x.bits.toNat by
    rw [ofFields, this, UInt64.ofNat_toNat]
  simp only [negative, exponentField, fraction, twoTo_52, twoTo_63, decide_eq_true_eq]
  split <;> omega

theorem isFinite_iff : x.isFinite = true ↔ x.exponentField < 2047 := by
  have bound := x.exponentField_lt
  simp only [isFinite, decide_eq_true_eq]
  omega

theorem significand_lt (x : Double) : x.significand < twoTo 53 := by
  have bound := x.fraction_lt
  rw [significand]
  simp only [twoTo_52, twoTo_53] at bound ⊢
  split <;> omega

theorem significand_pos (nonzero : x.isZero = false) : 0 < x.significand := by
  have positive := twoTo_pos 52
  simp only [isZero, Bool.and_eq_false_iff, decide_eq_false_iff_not] at nonzero
  rw [significand]
  split <;> omega

theorem le_significand (normal : x.exponentField ≠ 0) : twoTo 52 ≤ x.significand := by
  rw [significand, if_neg normal]
  exact Nat.le_add_right _ _

/-- The exponents of finite numbers. -/
theorem exponent_bounds (finite : x.isFinite = true) : -1074 ≤ x.exponent ∧ x.exponent ≤ 971 := by
  rw [isFinite_iff] at finite
  rw [exponent]
  omega

/-- The number is the least one of its binade, and the binade below has a finer spacing. -/
def IsNarrow (x : Double) : Prop :=
  x.fraction = 0 ∧ 1 < x.exponentField

theorem IsNarrow.significand_eq (h : x.IsNarrow) : x.significand = twoTo 52 := by
  rw [significand, if_neg (by have := h.2; omega), h.1, Nat.add_zero]

/-- The scaled number is the number itself. -/
theorem ofScaled_significand (nonzero : x.isZero = false) :
    ofScaled x.negative x.significand x.exponent = x := by
  have positive := significand_pos nonzero
  have bound := x.significand_lt
  rw [ofScaled, if_neg positive.ne', if_neg bound.ne]
  by_cases subnormal : x.exponentField = 0
  · have same : x.significand = x.fraction := by rw [significand, if_pos subnormal]
    have least : x.exponent = -1074 := by rw [exponent, subnormal]; rfl
    have shift : min (52 - x.significand.log2) (x.exponent + 1074).toNat = 0 := by
      rw [least]; exact Nat.min_zero _
    simp only [shift, twoTo_zero, Nat.mul_one]
    rw [same, if_pos x.fraction_lt]
    conv_rhs => rw [← ofFields_fields x, subnormal]
  · have least := le_significand subnormal
    have log : x.significand.log2 = 52 := (Nat.log2_eq_iff positive.ne').mpr ⟨least, bound⟩
    have field : (x.exponent + 1075).toNat = x.exponentField := by
      rw [exponent]
      omega
    have rest : x.significand - twoTo 52 = x.fraction := by
      rw [significand, if_neg subnormal, Nat.add_sub_cancel_left]
    simp only [log, Nat.sub_self, Nat.zero_min, twoTo_zero, Nat.mul_one, Nat.cast_zero,
      Int.sub_zero]
    rw [if_neg least.not_gt, field, rest, ofFields_fields]

/-- So is the end of the binade below. -/
theorem IsNarrow.ofScaled (h : x.IsNarrow) :
    Double.ofScaled x.negative (twoTo 53) (x.exponent - 1) = x := by
  have field : (x.exponent - 1 + 1076).toNat = x.exponentField := by
    have := h.2
    rw [exponent]
    omega
  rw [Double.ofScaled, if_neg (twoTo_pos 53).ne', if_pos rfl, field]
  conv_rhs => rw [← ofFields_fields x, h.1]

end Double

def Double.Neighbourhood.Contains (around : Double.Neighbourhood) (v : ℚ) : Prop :=
  if around.closed then around.low ≤ v ∧ v ≤ around.high else around.low < v ∧ v < around.high

def Double.IsNear (x : Double) (v : ℚ) : Prop :=
  x.neighbourhood.Contains (v / 2 ^ (x.exponent - 2))

namespace Double

variable {x : Double} {v : ℚ} {n d : Nat}

theorem div_quarter (v : ℚ) (k : ℤ) : v / 2 ^ (k - 2) = 4 * (v / 2 ^ k) := by
  have unit : (2 : ℚ) ^ k ≠ 0 := (zpow_pos zero_lt_two k).ne'
  rw [zpow_sub₀ two_ne_zero]
  field_simp
  norm_num

theorem cast_neighbourhood_high (x : Double) :
    (x.neighbourhood.high : ℚ) = 4 * x.significand + 2 := by
  norm_num [neighbourhood]

theorem le_neighbourhood_low (x : Double) : 4 * x.significand ≤ x.neighbourhood.low + 2 := by
  simp only [neighbourhood]
  split <;> omega

theorem IsNarrow.neighbourhood_low (h : x.IsNarrow) :
    4 * x.significand ≤ x.neighbourhood.low + 1 := by
  simp only [neighbourhood, h.1, h.2, decide_true, Bool.and_self, if_true]
  omega

/-- What the interval says in units of the spacing. -/
theorem IsNear.isNearest (near : x.IsNear v) :
    Precision.IsNearest x.significand (v / 2 ^ x.exponent) := by
  have low : (4 * x.significand : ℚ) ≤ x.neighbourhood.low + 2 := by
    exact_mod_cast x.le_neighbourhood_low
  have high := x.cast_neighbourhood_high
  rw [IsNear, div_quarter, Neighbourhood.Contains] at near
  split at near
  next closed =>
    refine ⟨?_, ?_, .inl (by simpa [neighbourhood] using closed)⟩ <;> linarith
  next =>
    refine ⟨?_, ?_, .inr ⟨?_, ?_⟩⟩ <;> linarith

/-- Below the least number of a binade the interval is half as wide. -/
theorem IsNear.of_isNarrow (near : x.IsNear v) (narrow : x.IsNarrow) :
    (x.significand - 1 / 4 : ℚ) ≤ v / 2 ^ x.exponent := by
  have low : (4 * x.significand : ℚ) ≤ x.neighbourhood.low + 1 := by
    exact_mod_cast narrow.neighbourhood_low
  rw [IsNear, div_quarter, Neighbourhood.Contains] at near
  split at near <;> linarith

theorem IsNear.pos (near : x.IsNear v) (nonzero : x.isZero = false) : 0 < v := by
  have positive : (1 : ℚ) ≤ x.significand := by exact_mod_cast significand_pos nonzero
  have low := near.isNearest.low
  have unit : (0 : ℚ) < 2 ^ x.exponent := zpow_pos zero_lt_two _
  have scaled : 0 < v / 2 ^ x.exponent := by linarith
  exact (div_pos_iff_of_pos_right unit).mp scaled

/-- No near number is beyond the binade. -/
theorem IsNear.lt (near : x.IsNear v) : v / 2 ^ x.exponent < 2 ^ (53 : ℤ) := by
  have bound : (x.significand + 1 : ℚ) ≤ 2 ^ 53 := by exact_mod_cast x.significand_lt
  have high := near.isNearest.high
  have top : (2 : ℚ) ^ (53 : ℤ) = 2 ^ 53 := by norm_num
  linarith

theorem log_div_two_zpow (positive : 0 < v) (k : ℤ) : Int.log 2 (v / 2 ^ k) = Int.log 2 v - k := by
  have unit : (0 : ℚ) < 2 ^ k := zpow_pos zero_lt_two k
  refine eq_of_forall_le_iff fun j => ?_
  rw [← Precision.two_zpow_le_iff (div_pos positive unit), le_div_iff₀ unit,
    ← zpow_add₀ two_ne_zero, Precision.two_zpow_le_iff positive]
  omega

/-- Below a binade only its least number is left to round to. -/
theorem IsNear.isNarrow_of_lt (near : x.IsNear v) (normal : 1 < x.exponentField)
    (below : v / 2 ^ x.exponent < 2 ^ 52) :
    x.IsNarrow := by
  refine ⟨?_, normal⟩
  have low := near.isNearest.low
  have outside : (x.significand : ℚ) < 2 ^ 52 + 1 := by linarith
  have outside : x.significand < twoTo 52 + 1 := by exact_mod_cast outside
  rw [significand, if_neg (by omega)] at outside
  omega

/-- A near number has the spacing of `x`, or it is in the binade below and has half of it. -/
theorem IsNear.log_cases (near : x.IsNear v) (finite : x.isFinite = true)
    (nonzero : x.isZero = false) :
    max (-1074) (Int.log 2 v - 52) = x.exponent ∨
      x.IsNarrow ∧ v / 2 ^ x.exponent < 2 ^ 52 ∧
        max (-1074) (Int.log 2 v - 52) = x.exponent - 1 := by
  have positive := near.pos nonzero
  have scaled := div_pos positive (zpow_pos zero_lt_two x.exponent)
  have top := (Precision.lt_two_zpow_iff scaled 53).mp near.lt
  obtain ⟨least, -⟩ := exponent_bounds finite
  by_cases coarse : x.exponent = -1074
  · left
    rw [log_div_two_zpow positive] at top
    omega
  · have normal : 1 < x.exponentField := by
      rw [exponent] at coarse
      omega
    by_cases inside : (2 : ℚ) ^ (52 : ℤ) ≤ v / 2 ^ x.exponent
    · left
      have bottom := (Precision.two_zpow_le_iff scaled 52).mp inside
      rw [log_div_two_zpow positive] at top bottom
      omega
    · right
      have below : v / 2 ^ x.exponent < 2 ^ 52 := by exact_mod_cast not_le.mp inside
      have narrow := near.isNarrow_of_lt normal below
      have half : (2 : ℚ) ^ (51 : ℤ) ≤ v / 2 ^ x.exponent := by
        have low := near.of_isNarrow narrow
        rw [narrow.significand_eq, cast_twoTo] at low
        have middle : (2 : ℚ) ^ (51 : ℤ) ≤ 2 ^ 52 - 1 / 4 := by norm_num
        linarith
      have bottom := (Precision.two_zpow_le_iff scaled 51).mp half
      have top := (Precision.lt_two_zpow_iff scaled 52).mp (not_le.mp inside)
      rw [log_div_two_zpow positive] at top bottom
      exact ⟨narrow, below, by omega⟩

/-- In the finer spacing of the binade below, what is near the least number of a binade goes to the
end. -/
theorem IsNear.isNearest_below (near : x.IsNear v) (narrow : x.IsNarrow)
    (below : v / 2 ^ x.exponent < 2 ^ 52) :
    Precision.IsNearest (twoTo 53) (v / 2 ^ (x.exponent - 1)) := by
  have doubled : v / 2 ^ (x.exponent - 1) = 2 * (v / 2 ^ x.exponent) := by
    have unit : (2 : ℚ) ^ x.exponent ≠ 0 := (zpow_pos zero_lt_two _).ne'
    rw [zpow_sub₀ two_ne_zero]
    field_simp
  have low := near.of_isNarrow narrow
  rw [narrow.significand_eq, cast_twoTo] at low
  rw [doubled]
  refine ⟨?_, ?_, .inl (by decide)⟩
  · rw [cast_twoTo]
    linarith
  · rw [cast_twoTo]
    linarith

theorem ofQuotient_of_nearest {negative : Bool} {m : Nat} {k : ℤ}
    (nearest : Precision.double.nearest n d = (m, k)) (within : m < twoTo (1024 - k).toNat) :
    ofQuotient .double negative n d = ofScaled negative m k := by
  have top : Precision.double.top = 1024 := rfl
  simp only [ofQuotient, nearest, top, if_neg within.not_ge]

/-- A quotient that is near a finite number is rounded to it. -/
theorem ofQuotient_of_isNear (finite : x.isFinite = true) (nonzero : x.isZero = false)
    (nPos : 0 < n) (dPos : 0 < d) (near : x.IsNear (n / d)) :
    ofQuotient .double x.negative n d = x := by
  have spacing : Precision.double.spacing n d = max (-1074) (Int.log 2 (n / d : ℚ) - 52) := by
    rw [Precision.spacing_eq_log (by decide) nPos dPos]
    simp only [Precision.double]
    congr 1
    omega
  obtain ⟨-, top⟩ := exponent_bounds finite
  rcases near.log_cases finite nonzero with same | ⟨narrow, below, finer⟩
  · have nearest := Precision.nearest_eq dPos (spacing.trans same) near.isNearest
    have within : x.significand < twoTo (1024 - x.exponent).toNat :=
      x.significand_lt.trans_le (twoTo_le_twoTo (by omega))
    rw [ofQuotient_of_nearest nearest within, ofScaled_significand nonzero]
  · have nearest :=
      Precision.nearest_eq dPos (spacing.trans finer) (near.isNearest_below narrow below)
    have within : twoTo 53 < twoTo (1024 - (x.exponent - 1)).toNat :=
      Nat.pow_lt_pow_right (by decide) (by omega)
    rw [ofQuotient_of_nearest nearest within, narrow.ofScaled]

end Double
end PredicateSql
