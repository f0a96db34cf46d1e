import PredicateSql.Number.Power

/-!
Floating-point numbers with 53 significant bits, given by their 64-bit pattern: one sign bit, eleven
exponent bits and 52 fraction bits.
-/
namespace PredicateSql

structure Double where
  bits : UInt64
deriving DecidableEq, Repr

namespace Double

def negative (x : Double) : Bool :=
  x.bits.toNat / twoTo 63 = 1

def exponentField (x : Double) : Nat :=
  x.bits.toNat / twoTo 52 % 2048

def fraction (x : Double) : Nat :=
  x.bits.toNat % twoTo 52

def isNaN (x : Double) : Bool :=
  x.exponentField = 2047 && x.fraction ≠ 0

def isInfinite (x : Double) : Bool :=
  x.exponentField = 2047 && x.fraction = 0

def isFinite (x : Double) : Bool :=
  x.exponentField ≠ 2047

/-- The magnitude of a finite number is `significand * 2 ^ exponent`. -/
def significand (x : Double) : Nat :=
  if x.exponentField = 0 then x.fraction else twoTo 52 + x.fraction

def exponent (x : Double) : Int :=
  (max x.exponentField 1 : Nat) - 1075

def isZero (x : Double) : Bool :=
  x.exponentField = 0 && x.fraction = 0

/-- Equality of numbers: the two zeros are equal, and NaN equals nothing. -/
def equals (x y : Double) : Bool :=
  !x.isNaN && !y.isNaN && (x.bits == y.bits || (x.isZero && y.isZero))

def ofFields (negative : Bool) (exponentField fraction : Nat) : Double :=
  ⟨UInt64.ofNat ((if negative then twoTo 63 else 0) + exponentField * twoTo 52 + fraction)⟩

def zero (negative : Bool) : Double :=
  ofFields negative 0 0

def infinity (negative : Bool) : Double :=
  ofFields negative 2047 0

def nan : Double :=
  ofFields false 2047 (twoTo 51)

end Double
end PredicateSql
