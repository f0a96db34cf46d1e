import PredicateSql.Number.Rounding

/-!
Products and quotients of finite floating-point numbers. Each is exact first and then rounded once;
the sign of the result is negative when the operands have different signs, also for zero.
-/
namespace PredicateSql.Double

/-- The product of finite numbers. -/
def times (x y : Double) : Double :=
  let k := x.exponent + y.exponent
  ofQuotient .double (x.negative != y.negative)
    (x.significand * y.significand * twoTo k.toNat) (twoTo (-k).toNat)

/-- The quotient of finite numbers; the divisor is not zero. -/
def dividedBy (x y : Double) : Double :=
  let k := x.exponent - y.exponent
  ofQuotient .double (x.negative != y.negative)
    (x.significand * twoTo k.toNat) (y.significand * twoTo (-k).toNat)

def powerOfTen (k : Nat) : Double :=
  ofDecimal .double ⟨false, 1, k⟩

def greatestPower : Nat := 308

/-- The number nearest to `n`, moved by `e` decimal places with one rounding more: a multiplication
by a power of ten, or a division by one. Places beyond the greatest power take two divisions.
Nothing stands for a result that is out of range. -/
def scaled? (negative : Bool) (n : Nat) (e : Int) : Option Double :=
  let x := ofQuotient .double negative n 1
  if n = 0 || e < -2 * greatestPower then some (zero negative)
  else if e < -greatestPower then
    some ((x.dividedBy (powerOfTen greatestPower)).dividedBy
      (powerOfTen (-e - greatestPower).toNat))
  else if e < 0 then some (x.dividedBy (powerOfTen (-e).toNat))
  else if e ≤ greatestPower then
    let y := x.times (powerOfTen e.toNat)
    if y.isFinite then some y else none
  else none

end PredicateSql.Double
