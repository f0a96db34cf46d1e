/-!
Base64 with the standard alphabet. Reading is strict: full groups of four, padding where it belongs
and nowhere else, and no stray bits in the last digit, so that each octet string has one written
form.
-/
namespace PredicateSql.Text.Base64

/-- The digit of a six-bit number. -/
def digit (n : Nat) : Char :=
  if n < 26 then Char.ofNat (65 + n)
  else if n < 52 then Char.ofNat (71 + n)
  else if n < 62 then Char.ofNat (n - 4)
  else if n = 62 then '+'
  else '/'

/-- The six-bit number of a digit. -/
def digitValue? (c : Char) : Option Nat :=
  let n := c.toNat
  if 65 ≤ n && n ≤ 90 then some (n - 65)
  else if 97 ≤ n && n ≤ 122 then some (n - 71)
  else if 48 ≤ n && n ≤ 57 then some (n + 4)
  else if c = '+' then some 62
  else if c = '/' then some 63
  else none

/-- Writes octets in groups of three. -/
def encodeChars : List UInt8 → List Char
  | [] => []
  | [a] => [digit (a.toNat / 4), digit (a.toNat % 4 * 16), '=', '=']
  | [a, b] =>
    [digit (a.toNat / 4), digit (a.toNat % 4 * 16 + b.toNat / 16), digit (b.toNat % 16 * 4), '=']
  | a :: b :: c :: rest =>
    digit (a.toNat / 4) :: digit (a.toNat % 4 * 16 + b.toNat / 16) ::
      digit (b.toNat % 16 * 4 + c.toNat / 64) :: digit (c.toNat % 64) :: encodeChars rest

/-- Reads digits in groups of four; only the last group may be padded. -/
def decodeChars : List Char → Option (List UInt8)
  | [] => some []
  | [p, q, '=', '='] => do
    let p ← digitValue? p
    let q ← digitValue? q
    if q % 16 = 0 then some [(p * 4 + q / 16).toUInt8] else none
  | [p, q, r, '='] => do
    let p ← digitValue? p
    let q ← digitValue? q
    let r ← digitValue? r
    if r % 4 = 0 then some [(p * 4 + q / 16).toUInt8, (q % 16 * 16 + r / 4).toUInt8] else none
  | p :: q :: r :: s :: rest => do
    let p ← digitValue? p
    let q ← digitValue? q
    let r ← digitValue? r
    let s ← digitValue? s
    let octets ← decodeChars rest
    some ((p * 4 + q / 16).toUInt8 :: (q % 16 * 16 + r / 4).toUInt8 :: (r % 4 * 64 + s).toUInt8 ::
      octets)
  | _ => none

def encode (octets : List UInt8) : String :=
  String.ofList (encodeChars octets)

def decode (s : String) : Option (List UInt8) :=
  decodeChars s.toList

end PredicateSql.Text.Base64
