import PredicateSql.Number.Decimal
import PredicateSql.Number.Double

/-!
Rounding to a binary precision. A quotient of natural numbers goes to the nearest multiple of the
spacing at its magnitude, and a half goes to the even neighbour.
-/
namespace PredicateSql

/-- A binary precision: how many significant bits there are, the exponent of the least spacing, and
the exponent of the bound that finite numbers stay below. -/
structure Precision where
  digits : Nat
  least : Int
  top : Int

namespace Precision

def double : Precision := ⟨53, -1074, 1024⟩

def single : Precision := ⟨24, -149, 128⟩

/-- The integer nearest to `n / d`; a half goes to the even neighbour. -/
def nearestInteger (n d : Nat) : Nat :=
  let q := n / d
  let r := n % d
  if 2 * r < d then q else if d < 2 * r then q + 1 else q + q % 2

/-- The exponent of the spacing at the magnitude of `n / d`. -/
def spacing (p : Precision) (n d : Nat) : Int :=
  let k : Int := n.log2 - d.log2 - p.digits + 1
  let short := n * twoTo (-k).toNat < twoTo (p.digits - 1) * d * twoTo k.toNat
  max p.least (if short then k - 1 else k)

/-- The number `m * 2 ^ k` nearest to `n / d`, as the pair of `m` and `k`. -/
def nearest (p : Precision) (n d : Nat) : Nat × Int :=
  let k := p.spacing n d
  (nearestInteger (n * twoTo (-k).toNat) (d * twoTo k.toNat), k)

end Precision

namespace Double

/-- The number `± m * 2 ^ k`, which must have at most 53 significant bits and a spacing that is not
too small. -/
def ofScaled (negative : Bool) (m : Nat) (k : Int) : Double :=
  if m = 0 then zero negative
  else if m = twoTo 53 then ofFields negative (k + 1076).toNat 0
  else
    let shift := min (52 - m.log2) (k + 1074).toNat
    let m := m * twoTo shift
    if m < twoTo 52 then ofFields negative 0 m
    else ofFields negative (k - shift + 1075).toNat (m - twoTo 52)

/-- The number nearest to `n / d` in a precision that has at most 53 bits. -/
def ofQuotient (p : Precision) (negative : Bool) (n d : Nat) : Double :=
  let (m, k) := p.nearest n d
  if twoTo (p.top - k).toNat ≤ m then infinity negative else ofScaled negative m k

/-- The number nearest to a decimal. Magnitudes far out of range are not computed. -/
def ofDecimal (p : Precision) (x : Decimal) : Double :=
  let size : Int := (Nat.toDigits 10 x.coefficient).length + x.exponent
  if x.coefficient = 0 || size < -400 then zero x.negative
  else if 400 < size then infinity x.negative
  else ofQuotient p x.negative (x.coefficient * tenTo x.exponent.toNat) (tenTo (-x.exponent).toNat)

def ofInt (n : Int) : Double :=
  if n = 0 then zero false else ofQuotient .double (n < 0) n.natAbs 1

/-- Reads a decimal numeral, or a word for infinity or NaN in any letter case, each with an optional
sign. -/
def ofText? (p : Precision) (s : String) : Option Double :=
  let (negative, cs) := Decimal.splitSign s.toList
  let word := String.ofList (cs.map Char.toLower)
  if word = "inf" || word = "infinity" then some (infinity negative)
  else if word = "nan" then some nan
  else (Decimal.ofUnsigned? negative cs).map (ofDecimal p)

end Double
end PredicateSql
