/-!
Decimal numerals: runs of digits, and a number written as a coefficient and a power of ten.
-/
namespace PredicateSql

/-- The number `± coefficient * 10 ^ exponent`. -/
structure Decimal where
  negative : Bool
  coefficient : Nat
  exponent : Int
deriving DecidableEq, Repr

namespace Decimal

def isDigit (c : Char) : Bool :=
  '0' ≤ c && c ≤ '9'

def splitDigits (cs : List Char) : List Char × List Char :=
  cs.span isDigit

/-- The number that digits spell, continuing `high`. -/
def digitsValue (high : Nat) (digits : List Char) : Nat :=
  digits.foldl (fun n c => n * 10 + (c.toNat - 48)) high

def natural? (cs : List Char) : Option Nat :=
  if !cs.isEmpty && cs.all isDigit then some (digitsValue 0 cs) else none

def paddedText (width n : Nat) : String :=
  let digits := Nat.toDigits 10 n
  String.ofList (List.replicate (width - digits.length) '0' ++ digits)

/-- Splits off an optional sign; `true` stands for a minus. -/
def splitSign : List Char → Bool × List Char
  | '-' :: cs => (true, cs)
  | '+' :: cs => (false, cs)
  | cs => (false, cs)

/-- The exponent part `e±digits`, when one stands in front. -/
def splitExponent? (cs : List Char) : Option (Int × List Char) :=
  match cs with
  | e :: cs =>
    if e = 'e' || e = 'E' then
      let (negative, cs) := splitSign cs
      let (digits, rest) := splitDigits cs
      if digits.isEmpty then none
      else
        let n : Int := digitsValue 0 digits
        some (if negative then -n else n, rest)
    else none
  | [] => none

def ofParts (negative : Bool) (whole fraction : List Char) (exponent : Int) : Decimal :=
  ⟨negative, digitsValue (digitsValue 0 whole) fraction, exponent - fraction.length⟩

/-- Reads `digits[.digits][e±digits]`, where either run of digits may be missing but not both. -/
def ofUnsigned? (negative : Bool) (cs : List Char) : Option Decimal :=
  let (whole, rest) := splitDigits cs
  let (fraction, rest) :=
    match rest with
    | '.' :: more => splitDigits more
    | _ => ([], rest)
  if whole.isEmpty && fraction.isEmpty then none
  else if rest.isEmpty then some (ofParts negative whole fraction 0)
  else
    match splitExponent? rest with
    | some (exponent, []) => some (ofParts negative whole fraction exponent)
    | _ => none

end Decimal
end PredicateSql
