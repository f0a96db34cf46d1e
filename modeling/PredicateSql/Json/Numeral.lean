import PredicateSql.Json.Basic
import PredicateSql.Number.Arithmetic

/-!
Numerals of JSON and the numbers that they stand for. A numeral counts with as many of its leading
digits as fit into 64 bits, and its place is brought in by one multiplication or division. So a
fraction or an exponent can leave the result a step away from the nearest floating-point number.
-/
namespace PredicateSql.Json

/-- A numeral by its parts, as they are written. -/
structure Numeral where
  negative : Bool
  whole : List Char
  fraction : Option (List Char)
  exponent : Option Int

namespace Numeral

/-- Appends digits to a number while it stays below `2 ^ 64`. The digits that are left begin with
the first one that does not fit. -/
def absorb (n : Nat) : List Char → Nat × List Char
  | [] => (n, [])
  | d :: digits =>
    let longer := n * 10 + Decimal.digitsValue 0 [d]
    if longer < UInt64.size then absorb longer digits else (n, d :: digits)

/-- The magnitude as a number below `2 ^ 64` and the power of ten that it is to be multiplied by.
Whole digits that do not fit move the place; fraction digits that do not fit do not count. -/
def coefficient (x : Numeral) : Nat × Int :=
  let fraction := x.fraction.getD []
  let (n, places) := absorb 0 x.whole
  let (n, dropped) := absorb n fraction
  (n, places.length + dropped.length - fraction.length)

/-- The integer that the numeral stands for: one without fraction and exponent, in the range of
64-bit numbers, signed or unsigned. Minus zero is not among them. -/
def integer? (x : Numeral) : Option Int :=
  let n := Decimal.digitsValue 0 x.whole
  if x.fraction.isSome || x.exponent.isSome then none
  else if x.negative then
    if 0 < n && Int64.minValue.toInt ≤ -(n : Int) then some (-n) else none
  else if n < UInt64.size then some n
  else none

/-- The floating-point number that the numeral stands for, unless it is out of range. -/
def double? (x : Numeral) : Option Double :=
  let (n, places) := x.coefficient
  Double.scaled? x.negative n (places + x.exponent.getD 0)

/-- The value of the numeral: an integer where there is one, else a floating-point number. -/
def toJson? (x : Numeral) : Option Json :=
  match x.integer? with
  | some n => some (int n)
  | none => x.double?.map float

end Numeral
end PredicateSql.Json
