import PredicateSql.Number.Shortest

/-!
Texts of floating-point numbers. The plain text never has an exponent; the JSON text always has a
point or an exponent and writes only middling magnitudes positionally. A tie between two shortest
decimals goes up in plain text and to the even one in JSON.
-/
namespace PredicateSql

namespace Digits

/-- The digits with the point in its place and no exponent; no point after a whole number. -/
def positional (x : Digits) : List Char :=
  if x.digits.isEmpty then ['0']
  else if x.point ≤ 0 then '0' :: '.' :: (List.replicate (-x.point).toNat '0' ++ x.digits)
  else
    let point := x.point.toNat
    if x.digits.length ≤ point then x.digits ++ List.replicate (point - x.digits.length) '0'
    else x.digits.take point ++ '.' :: x.digits.drop point

/-- One digit before the point, and the power of ten. -/
def scientific (x : Digits) : List Char :=
  let exponent := 'e' :: (toString (x.point - 1)).toList
  match x.digits with
  | [] => ['0']
  | [d] => d :: exponent
  | d :: rest => d :: '.' :: (rest ++ exponent)

end Digits

namespace Double

def signText (x : Double) : List Char :=
  if x.negative then ['-'] else []

/-- The number as shown in text and in SQL. -/
def text (x : Double) : String :=
  if x.isNaN then "NaN"
  else if x.isInfinite then (if x.negative then "-inf" else "inf")
  else String.ofList (x.signText ++ (x.shortest .up).positional)

/-- The number as a JSON number. JSON has no text for infinities and NaN, which become `null`. -/
def jsonText (x : Double) : String :=
  if !x.isFinite then "null"
  else
    let digits := x.shortest .toEven
    let body :=
      if digits.digits.isEmpty then ['0', '.', '0']
      else if -5 < digits.point && digits.point ≤ 16 then
        if digits.digits.length ≤ digits.point.toNat then digits.positional ++ ['.', '0']
        else digits.positional
      else digits.scientific
    String.ofList (x.signText ++ body)

end Double
end PredicateSql
