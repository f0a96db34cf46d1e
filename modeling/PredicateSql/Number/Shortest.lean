import PredicateSql.Number.Double
import PredicateSql.Number.Decimal

/-!
The shortest decimal that reads back as a given number. Among the decimals with the fewest digits
that round to the number, the nearest is taken; which of two equally near ones, the format decides.
The search runs over decimal grids from coarse to fine in exact arithmetic: if some point of a grid
rounds to the number, so does one of the two grid points beside it.
-/
namespace PredicateSql

/-- What becomes of a number halfway between two decimals: the larger one is taken, or the one whose
last digit is even. -/
inductive Tie where
  | up
  | toEven
deriving DecidableEq, Repr

/-- Whether a number goes to the decimal above it, when it is `rest / unit` beyond the multiple
`below`. -/
def Tie.goesUp (tie : Tie) (below rest unit : Nat) : Bool :=
  unit < 2 * rest ||
    (unit = 2 * rest && match tie with
      | .up => true
      | .toEven => below % 2 = 1)

/-- Digits `d₁ d₂ … dₙ` with a point after the first `point` of them; zeros fill what is missing. -/
structure Digits where
  digits : List Char
  point : Int
deriving DecidableEq, Repr

namespace Double

/-- Half of the reals that round to a positive number lie below it and half above; here the ends of
that interval and the number itself, all times the same power of two. -/
structure Neighbourhood where
  low : Nat
  value : Nat
  high : Nat
  closed : Bool

/-- The interval of reals that round to `m * 2 ^ k`, in units of `2 ^ (k - 2)`. The gap below a
power of two is half as wide, except at the least spacing. -/
def neighbourhood (x : Double) : Neighbourhood :=
  let m := x.significand
  let narrow := x.fraction = 0 && 1 < x.exponentField
  ⟨if narrow then 4 * m - 1 else 4 * m - 2, 4 * m, 4 * m + 2, m % 2 = 0⟩

/-- How many zeros follow the point of `n / d` before the first other digit; looks no further than
`fuel` digits. -/
def zerosAfterPoint : Nat → Nat → Nat → Nat
  | 0, _, _ => 0
  | fuel + 1, n, d => if d ≤ 10 * n then 0 else zerosAfterPoint fuel (10 * n) d + 1

/-- The place of the first digit of `n / d`, counted from the point. -/
def leadingPlace (n d : Nat) : Int :=
  if d ≤ n then (Nat.toDigits 10 (n / d)).length else -(zerosAfterPoint 400 n d : Int)

/-- The best multiple of `10 ^ t` that lies in the interval of `x`. -/
def onGrid? (tie : Tie) (x : Double) (t : Int) : Option Nat :=
  let around := x.neighbourhood
  let k := x.exponent - 2
  let up := twoTo k.toNat * tenTo (-t).toNat
  let down := twoTo (-k).toNat * tenTo t.toNat
  let inside (c : Nat) : Bool :=
    let c := c * down
    if around.closed then around.low * up ≤ c && c ≤ around.high * up
    else around.low * up < c && c < around.high * up
  let below := around.value * up / down
  let rest := around.value * up % down
  if inside below then
    if inside (below + 1) && tie.goesUp below rest down then some (below + 1) else some below
  else if inside (below + 1) then some (below + 1)
  else none

def dropTrailingZeros (digits : List Char) : List Char :=
  (digits.reverse.dropWhile (· = '0')).reverse

/-- The shortest digits of the magnitude of a finite number. -/
def shortest (tie : Tie) (x : Double) : Digits :=
  if x.isZero then ⟨[], 0⟩
  else
    let k := x.exponent
    let place := leadingPlace (x.significand * twoTo k.toNat) (twoTo (-k).toNat)
    let found := (List.range 17).findSome? fun i =>
      let t := place - (i + 1 : Nat)
      (x.onGrid? tie t).map fun c => (c, t)
    match found with
    | some (c, t) =>
      let digits := Nat.toDigits 10 c
      ⟨dropTrailingZeros digits, digits.length + t⟩
    | none => ⟨[], 0⟩

end Double
end PredicateSql
