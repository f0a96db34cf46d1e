import Mathlib.Data.Nat.Cast.Order.Field
import Mathlib.Tactic.Ring
import PredicateSql.Proofs.Number.Nearness

/-!
The shortest decimal of a finite number is near it. A grid is searched in exact arithmetic, and
seventeen digits always suffice: on their grid the number has a neighbour that is less than half a
spacing away.
-/
namespace PredicateSql

def Decimal.magnitude (x : Decimal) : ℚ :=
  x.coefficient * 10 ^ x.exponent

theorem ten_zpow_pos (k : ℤ) : (0 : ℚ) < 10 ^ k :=
  zpow_pos (by norm_num) k

theorem ten_zpow_lt_iff {j k : ℤ} : (10 : ℚ) ^ j < 10 ^ k ↔ j < k :=
  zpow_lt_zpow_iff_right₀ (by norm_num)

/-- How many digits a number has. -/
theorem length_toDigits_bounds {n : Nat} (positive : 0 < n) :
    10 ^ ((Nat.toDigits 10 n).length - 1) ≤ n ∧ n < 10 ^ (Nat.toDigits 10 n).length := by
  have some : 0 < (Nat.toDigits 10 n).length := Nat.length_toDigits_pos
  constructor
  · by_cases one : (Nat.toDigits 10 n).length = 1
    · rw [one]
      exact positive
    · refine Nat.le_of_not_lt fun less => ?_
      have fewer := (Nat.length_toDigits_le_iff (by decide) (by omega)).mpr less
      omega
  · exact (Nat.length_toDigits_le_iff (by decide) some).mp (Nat.le_refl _)

namespace Decimal

variable {d : Decimal}

/-- How large a decimal is, by its first digit. -/
theorem magnitude_bounds (positive : 0 < d.coefficient) :
    10 ^ ((Nat.toDigits 10 d.coefficient).length - 1 + d.exponent) ≤ d.magnitude ∧
      d.magnitude < 10 ^ ((Nat.toDigits 10 d.coefficient).length + d.exponent) := by
  have some : 0 < (Nat.toDigits 10 d.coefficient).length := Nat.length_toDigits_pos
  obtain ⟨fewest, most⟩ := length_toDigits_bounds positive
  have fewest : (10 ^ ((Nat.toDigits 10 d.coefficient).length - 1) : ℚ) ≤ d.coefficient := by
    exact_mod_cast fewest
  have most : (d.coefficient : ℚ) < 10 ^ (Nat.toDigits 10 d.coefficient).length := by
    exact_mod_cast most
  have first : ((Nat.toDigits 10 d.coefficient).length : ℤ) - 1 =
      ((Nat.toDigits 10 d.coefficient).length - 1 : Nat) := by
    omega
  rw [first, zpow_add₀ (by norm_num), zpow_add₀ (by norm_num), zpow_natCast, zpow_natCast]
  exact ⟨mul_le_mul_of_nonneg_right fewest (ten_zpow_pos _).le,
    mul_lt_mul_of_pos_right most (ten_zpow_pos _)⟩

/-- A decimal as the quotient that is rounded. -/
theorem magnitude_quotient (d : Decimal) :
    ((d.coefficient * tenTo d.exponent.toNat : Nat) : ℚ) / (tenTo (-d.exponent).toNat : Nat) =
      d.magnitude := by
  rw [Nat.cast_mul, ← ten_zpow_mul_tenTo, ← mul_assoc,
    mul_div_cancel_right₀ _ (cast_tenTo_ne_zero _), magnitude]

end Decimal

namespace Double

variable {x : Double} {v : ℚ}

def magnitude (x : Double) : ℚ :=
  x.significand * 2 ^ x.exponent

/-- Near numbers are within the range of finite numbers. -/
theorem IsNear.range (near : x.IsNear v) (finite : x.isFinite = true) (nonzero : x.isZero = false) :
    2 ^ (-1075 : ℤ) ≤ v ∧ v < 2 ^ (1024 : ℤ) := by
  have unit : (0 : ℚ) < 2 ^ x.exponent := zpow_pos zero_lt_two _
  obtain ⟨least, greatest⟩ := exponent_bounds finite
  constructor
  · have positive : (1 : ℚ) ≤ x.significand := by exact_mod_cast significand_pos nonzero
    have low : 2 ^ (-1 : ℤ) ≤ v / 2 ^ x.exponent := by
      have half : (2 : ℚ) ^ (-1 : ℤ) = 1 / 2 := by norm_num
      have := near.isNearest.low
      linarith
    rw [le_div_iff₀ unit, ← zpow_add₀ two_ne_zero] at low
    exact (zpow_le_zpow_right₀ one_le_two (by omega)).trans low
  · have high := near.lt
    rw [div_lt_iff₀ unit, ← zpow_add₀ two_ne_zero] at high
    exact high.trans_le (zpow_le_zpow_right₀ one_le_two (by omega))

theorem two_zpow_1024_lt : (2 : ℚ) ^ (1024 : ℤ) < 10 ^ (400 : ℤ) := by
  have powers : 2 ^ 1024 < 10 ^ 400 := by decide +kernel
  exact_mod_cast powers

theorem lt_two_zpow_neg_1075 : (10 : ℚ) ^ (-400 : ℤ) < 2 ^ (-1075 : ℤ) := by
  have powers : 2 ^ 1075 < 10 ^ 400 := by decide +kernel
  rw [zpow_neg, zpow_neg, inv_lt_inv₀ (ten_zpow_pos _) (zpow_pos zero_lt_two _)]
  exact_mod_cast powers

/-- A decimal that is near a finite number is rounded to it. -/
theorem ofDecimal_of_isNear {d : Decimal} (finite : x.isFinite = true) (nonzero : x.isZero = false)
    (near : x.IsNear d.magnitude) (sign : d.negative = x.negative) : ofDecimal .double d = x := by
  have positive : 0 < d.coefficient := by
    refine Nat.pos_of_ne_zero fun zero => ?_
    have := near.pos nonzero
    rw [Decimal.magnitude, zero, Nat.cast_zero, zero_mul] at this
    exact this.false
  obtain ⟨low, high⟩ := near.range finite nonzero
  obtain ⟨first, next⟩ := Decimal.magnitude_bounds positive
  have large := ten_zpow_lt_iff.mp ((first.trans_lt high).trans two_zpow_1024_lt)
  have small := ten_zpow_lt_iff.mp ((lt_two_zpow_neg_1075.trans_le low).trans next)
  have large : ¬ 400 < ((Nat.toDigits 10 d.coefficient).length : ℤ) + d.exponent := by omega
  simp only [ofDecimal, positive.ne', small.not_gt, large, decide_false, Bool.or_self,
    Bool.false_eq_true, if_false, sign]
  exact ofQuotient_of_isNear finite nonzero (Nat.mul_pos positive (tenTo_pos _)) (tenTo_pos _)
    (d.magnitude_quotient ▸ near)

/-- Whether a point of the grid of multiples of `10 ^ t` is near the number. -/
def covers (x : Double) (t : ℤ) (c : Nat) : Bool :=
  let around := x.neighbourhood
  let k := x.exponent - 2
  let up := twoTo k.toNat * tenTo (-t).toNat
  let down := twoTo (-k).toNat * tenTo t.toNat
  let c := c * down
  if around.closed then around.low * up ≤ c && c ≤ around.high * up
  else around.low * up < c && c < around.high * up

/-- The last point of the grid up to the number. -/
def floorOn (x : Double) (t : ℤ) : Nat :=
  let k := x.exponent - 2
  x.neighbourhood.value * (twoTo k.toNat * tenTo (-t).toNat) / (twoTo (-k).toNat * tenTo t.toNat)

/-- A point of the grid in units of the interval, as a quotient of natural numbers. -/
theorem grid_quotient (c : Nat) (k t : ℤ) :
    ((c * (twoTo (-k).toNat * tenTo t.toNat) : Nat) : ℚ) /
      (twoTo k.toNat * tenTo (-t).toNat : Nat) =
      c * 10 ^ t / 2 ^ k := by
  have two := cast_twoTo_ne_zero (-k).toNat
  have ten := cast_tenTo_ne_zero (-t).toNat
  have unit : (2 : ℚ) ^ k ≠ 0 := (zpow_pos zero_lt_two k).ne'
  push_cast
  rw [← two_zpow_mul_twoTo k, ← ten_zpow_mul_tenTo t]
  field_simp

theorem covers_iff {t : ℤ} {c : Nat} : x.covers t c = true ↔ x.IsNear (c * 10 ^ t) := by
  have unit : (0 : ℚ) < (twoTo (x.exponent - 2).toNat * tenTo (-t).toNat : Nat) := by
    exact_mod_cast Nat.mul_pos (twoTo_pos _) (tenTo_pos _)
  rw [IsNear, Neighbourhood.Contains, ← grid_quotient]
  simp only [covers, le_div_iff₀ unit, div_le_iff₀ unit, lt_div_iff₀ unit, div_lt_iff₀ unit]
  split
  · simp only [Bool.and_eq_true, decide_eq_true_eq]
    exact_mod_cast Iff.rfl
  · simp only [Bool.and_eq_true, decide_eq_true_eq]
    exact_mod_cast Iff.rfl

/-- The search on a grid looks at the two points beside the number. -/
theorem onGrid?_eq (tie : Tie) (x : Double) (t : ℤ) :
    ∃ up : Bool, x.onGrid? tie t =
      if x.covers t (x.floorOn t) then
        if x.covers t (x.floorOn t + 1) && up then some (x.floorOn t + 1) else some (x.floorOn t)
      else if x.covers t (x.floorOn t + 1) then some (x.floorOn t + 1)
      else none :=
  ⟨_, rfl⟩

/-- What is found on a grid is near. -/
theorem covers_of_onGrid? {tie : Tie} {t : ℤ} {c : Nat} (found : x.onGrid? tie t = some c) :
    x.covers t c = true := by
  obtain ⟨up, search⟩ := onGrid?_eq tie x t
  rw [search] at found
  cases below : x.covers t (x.floorOn t) <;> cases above : x.covers t (x.floorOn t + 1) <;>
    cases up <;>
    simp only [below, above, Bool.and_self, Bool.and_false, Bool.and_true, Bool.false_eq_true,
      if_true, if_false, reduceCtorEq, Option.some.injEq] at found
  all_goals
    subst found
    assumption

/-- Something is found if a point beside the number is near. -/
theorem exists_onGrid? {t : ℤ} (tie : Tie)
    (near : x.covers t (x.floorOn t) = true ∨ x.covers t (x.floorOn t + 1) = true) :
    ∃ c, x.onGrid? tie t = some c := by
  obtain ⟨up, search⟩ := onGrid?_eq tie x t
  rw [search]
  cases below : x.covers t (x.floorOn t) with
  | true =>
    rw [if_pos rfl]
    split <;> exact ⟨_, rfl⟩
  | false =>
    have above := near.resolve_left (Bool.eq_false_iff.mp below)
    rw [if_neg Bool.false_ne_true, if_pos above]
    exact ⟨_, rfl⟩

/-- The number lies between the two points beside it. -/
theorem floorOn_bounds (x : Double) (t : ℤ) :
    x.floorOn t * 10 ^ t ≤ x.magnitude ∧ x.magnitude < (x.floorOn t + 1 : Nat) * 10 ^ t := by
  let up := twoTo (x.exponent - 2).toNat * tenTo (-t).toNat
  let down := twoTo (-(x.exponent - 2)).toNat * tenTo t.toNat
  have upPos : (0 : ℚ) < up := by exact_mod_cast Nat.mul_pos (twoTo_pos _) (tenTo_pos _)
  have downPos : 0 < down := Nat.mul_pos (twoTo_pos _) (tenTo_pos _)
  have unit : (0 : ℚ) < 2 ^ (x.exponent - 2) := zpow_pos zero_lt_two _
  have value : x.magnitude = x.neighbourhood.value * 2 ^ (x.exponent - 2) := by
    have four : (x.neighbourhood.value : ℚ) = 4 * x.significand := by norm_num [neighbourhood]
    rw [four, magnitude, zpow_sub₀ two_ne_zero]
    ring
  have point (c : Nat) : (c * 10 ^ t : ℚ) = (c * down : Nat) / up * 2 ^ (x.exponent - 2) := by
    rw [grid_quotient, div_mul_cancel₀ _ unit.ne']
  have below : x.floorOn t * down ≤ x.neighbourhood.value * up := Nat.div_mul_le_self _ _
  have above : x.neighbourhood.value * up < (x.floorOn t + 1) * down := by
    rw [Nat.mul_comm (x.floorOn t + 1)]
    exact Nat.lt_mul_div_succ _ downPos
  rw [value, point, point, mul_le_mul_iff_left₀ unit, mul_lt_mul_iff_left₀ unit, div_le_iff₀ upPos,
    lt_div_iff₀ upPos]
  exact ⟨by exact_mod_cast below, by exact_mod_cast above⟩

/-- What is less than half a spacing above the number is near. -/
theorem isNear_of_ge (low : x.magnitude ≤ v) (high : v - x.magnitude < 2 ^ x.exponent / 2)
    (nonzero : x.isZero = false) : x.IsNear v := by
  have unit : (0 : ℚ) < 2 ^ x.exponent := zpow_pos zero_lt_two _
  rw [magnitude, ← le_div_iff₀ unit] at low
  have high : v / 2 ^ x.exponent < x.significand + 1 / 2 := by
    rw [div_lt_iff₀ unit]
    rw [magnitude] at high
    linarith
  have bottom : (x.neighbourhood.low : ℚ) < 4 * x.significand := by
    have positive := significand_pos nonzero
    have : x.neighbourhood.low < 4 * x.significand := by
      simp only [neighbourhood]
      split <;> omega
    exact_mod_cast this
  have top := x.cast_neighbourhood_high
  rw [IsNear, div_quarter, Neighbourhood.Contains]
  split <;> constructor <;> linarith

/-- What is less than half a spacing below the number is near, unless a binade begins. -/
theorem isNear_of_le (high : v ≤ x.magnitude) (low : x.magnitude - v < 2 ^ x.exponent / 2)
    (wide : ¬ x.IsNarrow) (nonzero : x.isZero = false) : x.IsNear v := by
  have unit : (0 : ℚ) < 2 ^ x.exponent := zpow_pos zero_lt_two _
  rw [magnitude, ← div_le_iff₀ unit] at high
  have low : x.significand - 1 / 2 < v / 2 ^ x.exponent := by
    rw [lt_div_iff₀ unit]
    rw [magnitude] at low
    linarith
  have bottom : (x.neighbourhood.low + 2 : ℚ) = 4 * x.significand := by
    have positive := significand_pos nonzero
    have finer : (decide (x.fraction = 0) && decide (1 < x.exponentField)) = false := by
      rw [← Bool.not_eq_true, Bool.and_eq_true, decide_eq_true_eq, decide_eq_true_eq]
      exact wide
    have : x.neighbourhood.low + 2 = 4 * x.significand := by
      simp only [neighbourhood, finer, Bool.false_eq_true, if_false]
      omega
    exact_mod_cast this
  have top := x.cast_neighbourhood_high
  rw [IsNear, div_quarter, Neighbourhood.Contains]
  split <;> constructor <;> linarith

/-- Seventeen digits suffice. -/
theorem exists_onGrid?_of_le {t : ℤ} (tie : Tie) (nonzero : x.isZero = false)
    (fine : 10 ^ (t + 16) ≤ x.magnitude) :
    ∃ c, x.onGrid? tie t = some c := by
  obtain ⟨below, above⟩ := x.floorOn_bounds t
  have unit : (0 : ℚ) < 2 ^ x.exponent := zpow_pos zero_lt_two _
  have step : (10 : ℚ) ^ t * 10 ^ 16 ≤ x.significand * 2 ^ x.exponent := by
    rw [zpow_add₀ (by norm_num)] at fine
    exact_mod_cast fine
  have next : ((x.floorOn t + 1 : Nat) : ℚ) * 10 ^ t = x.floorOn t * 10 ^ t + 10 ^ t := by
    push_cast
    ring
  rw [next] at above
  refine exists_onGrid? tie ?_
  rw [covers_iff, covers_iff, next]
  by_cases narrow : x.IsNarrow
  · -- a step of the grid is less than half a spacing
    have small : (10 : ℚ) ^ t < 2 ^ x.exponent / 2 := by
      rw [narrow.significand_eq, cast_twoTo] at step
      linarith
    exact .inr (isNear_of_ge above.le (by linarith) nonzero)
  · -- a step of the grid is less than a spacing
    have bound : (x.significand : ℚ) ≤ 2 ^ 53 := by exact_mod_cast x.significand_lt.le
    have small : (10 : ℚ) ^ t < 2 ^ x.exponent := by
      have := mul_le_mul_of_nonneg_right bound unit.le
      linarith
    by_cases nearer : x.magnitude - x.floorOn t * 10 ^ t < 2 ^ x.exponent / 2
    · exact .inl (isNear_of_le below nearer narrow nonzero)
    · exact .inr (isNear_of_ge above.le (by linarith) nonzero)

theorem le_of_zerosAfterPoint {n d : Nat} (fuel : Nat) (reached : d ≤ tenTo (fuel + 1) * n) :
    d ≤ tenTo (zerosAfterPoint fuel n d + 1) * n := by
  induction fuel generalizing n with
  | zero => exact reached
  | succ fuel ih =>
    rw [zerosAfterPoint]
    split
    next first => exact first
    next =>
      have later := ih (n := 10 * n) (by rwa [← Nat.mul_assoc, ← tenTo_succ])
      rwa [← Nat.mul_assoc, ← tenTo_succ] at later

/-- The first digit of a quotient is not a zero. -/
theorem leadingPlace_le {n d : Nat} (dPos : 0 < d) (reached : d ≤ tenTo 401 * n) :
    (10 : ℚ) ^ (leadingPlace n d - 1) ≤ n / d := by
  have unit : (0 : ℚ) < d := by exact_mod_cast dPos
  rw [leadingPlace]
  split
  next whole =>
    have some : 0 < (Nat.toDigits 10 (n / d)).length := Nat.length_toDigits_pos
    have digits := (length_toDigits_bounds (Nat.div_pos whole dPos)).1
    have power : (10 ^ ((Nat.toDigits 10 (n / d)).length - 1) : ℚ) ≤ (n / d : Nat) := by
      exact_mod_cast digits
    have exponent : ((Nat.toDigits 10 (n / d)).length : ℤ) - 1 =
        ((Nat.toDigits 10 (n / d)).length - 1 : Nat) := by
      omega
    rw [exponent, zpow_natCast]
    exact power.trans Nat.cast_div_le
  next =>
    have digits : (d : ℚ) ≤ tenTo (zerosAfterPoint 400 n d + 1) * n := by
      exact_mod_cast le_of_zerosAfterPoint 400 reached
    have exponent : -(zerosAfterPoint 400 n d : ℤ) - 1 =
        -((zerosAfterPoint 400 n d + 1 : Nat) : ℤ) := by omega
    rw [cast_tenTo] at digits
    rw [exponent, zpow_neg, zpow_natCast, inv_le_iff_one_le_mul₀ (by positivity),
      div_mul_eq_mul_div, le_div_iff₀ unit]
    linarith

theorem magnitude_quotient (x : Double) :
    ((x.significand * twoTo x.exponent.toNat : Nat) : ℚ) / (twoTo (-x.exponent).toNat : Nat) =
      x.magnitude := by
  rw [Nat.cast_mul, ← two_zpow_mul_twoTo, ← mul_assoc,
    mul_div_cancel_right₀ _ (cast_twoTo_ne_zero _), magnitude]

/-- The shortest digits are those of a decimal that is near the number, without zeros at the end. -/
theorem exists_shortest (tie : Tie) (finite : x.isFinite = true) (nonzero : x.isZero = false) :
    ∃ (c : Nat) (t : ℤ), x.IsNear (c * 10 ^ t) ∧
      x.shortest tie = ⟨dropTrailingZeros (Nat.toDigits 10 c), (Nat.toDigits 10 c).length + t⟩ := by
  let place := leadingPlace (x.significand * twoTo x.exponent.toNat) (twoTo (-x.exponent).toNat)
  let at? (i : Nat) := (x.onGrid? tie (place - (i + 1 : Nat))).map fun c =>
    (c, place - (i + 1 : Nat))
  have reached : twoTo (-x.exponent).toNat ≤
      tenTo 401 * (x.significand * twoTo x.exponent.toNat) := by
    obtain ⟨least, -⟩ := exponent_bounds finite
    have positive := Nat.mul_pos (significand_pos nonzero) (twoTo_pos x.exponent.toNat)
    calc
      twoTo (-x.exponent).toNat ≤ twoTo 1074 := twoTo_le_twoTo (by omega)
      _ ≤ tenTo 401 := by decide +kernel
      _ ≤ tenTo 401 * (x.significand * twoTo x.exponent.toNat) := Nat.le_mul_of_pos_right _ positive
  have leading : (10 : ℚ) ^ (place - 1) ≤ x.magnitude := by
    rw [← magnitude_quotient]
    exact leadingPlace_le (twoTo_pos _) reached
  -- on the finest grid of the search there is always a point
  obtain ⟨c, last⟩ := exists_onGrid?_of_le (t := place - (16 + 1 : Nat)) tie nonzero <| by
    have : place - (16 + 1 : Nat) + 16 = place - 1 := by omega
    rwa [this]
  have present : ((List.range 17).findSome? at?).isSome := by
    rw [List.findSome?_isSome_iff]
    exact ⟨16, by decide, by simp only [at?, last, Option.map_some, Option.isSome_some]⟩
  obtain ⟨⟨c, t⟩, found⟩ := Option.isSome_iff_exists.mp present
  obtain ⟨i, -, point⟩ := List.exists_of_findSome?_eq_some found
  obtain ⟨c', near, same⟩ := Option.map_eq_some_iff.mp point
  obtain ⟨rfl, rfl⟩ := Prod.mk.inj same
  refine ⟨c', _, covers_iff.mp (covers_of_onGrid? near), ?_⟩
  rw [shortest, if_neg (Bool.eq_false_iff.mp nonzero)]
  dsimp only
  split
  next c t search =>
    obtain ⟨rfl, rfl⟩ := Prod.mk.inj (Option.some.inj (found.symm.trans search))
    rfl
  next search => cases found.symm.trans search

end Double
end PredicateSql
