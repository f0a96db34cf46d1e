/-!
Hexadecimal digits: written in lower case, read in either case.
-/
namespace PredicateSql.Text.Hex

def digit (n : Nat) : Char :=
  if n < 10 then Char.ofNat (48 + n) else Char.ofNat (87 + n)

def digitValue? (c : Char) : Option Nat :=
  let n := c.toNat
  if 48 ≤ n && n ≤ 57 then some (n - 48)
  else if 97 ≤ n && n ≤ 102 then some (n - 87)
  else if 65 ≤ n && n ≤ 70 then some (n - 55)
  else none

/-- The number that all of `cs` spell, continuing `high`. -/
def number? (high : Nat) : List Char → Option Nat
  | [] => some high
  | c :: cs => do number? (high * 16 + (← digitValue? c)) cs

def digits : Nat → Nat → List Char
  | 0, _ => []
  | width + 1, n => digits width (n / 16) ++ [digit (n % 16)]

def encode (octets : List UInt8) : String :=
  String.ofList (octets.flatMap fun b => digits 2 b.toNat)

def decodeChars : List Char → Option (List UInt8)
  | [] => some []
  | a :: b :: rest => do
    let n ← number? 0 [a, b]
    let octets ← decodeChars rest
    some (n.toUInt8 :: octets)
  | _ => none

def decode (s : String) : Option (List UInt8) :=
  decodeChars s.toList

end PredicateSql.Text.Hex
