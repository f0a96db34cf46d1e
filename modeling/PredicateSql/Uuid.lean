import PredicateSql.Text.Hex

/-!
Universally unique identifiers: 128 bits, written as 32 hexadecimal digits in groups of
8, 4, 4, 4 and 12.
-/
namespace PredicateSql

structure Uuid where
  bits : BitVec 128
deriving DecidableEq

namespace Uuid

def groups : List Nat → List Char → List (List Char)
  | [], cs => [cs]
  | n :: sizes, cs => cs.take n :: groups sizes (cs.drop n)

def textChars (u : Uuid) : List Char :=
  List.intercalate ['-'] (groups [8, 4, 4, 4] (Text.Hex.digits 32 u.bits.toNat))

def text (u : Uuid) : String :=
  String.ofList u.textChars

def ofDigits? (digits : List Char) : Option Uuid :=
  if digits.length = 32 then (Text.Hex.number? 0 digits).map fun n => ⟨BitVec.ofNat 128 n⟩ else none

/-- Drops the hyphens that stand between the groups, and nowhere else. -/
def ungroup? (cs : List Char) : Option (List Char) :=
  if cs.length = 36 && cs[8]? = some '-' && cs[13]? = some '-' && cs[18]? = some '-' &&
      cs[23]? = some '-' then
    some (cs.take 8 ++ (cs.drop 9).take 4 ++ (cs.drop 14).take 4 ++ (cs.drop 19).take 4 ++
      cs.drop 24)
  else none

/-- Drops the braces or the name space around a hyphenated identifier. -/
def unwrap (cs : List Char) : List Char :=
  if cs.length = 38 && cs.head? = some '\x7b' && cs.getLast? = some '\x7d' then cs.tail.dropLast
  else if cs.length = 45 && (cs.take 9).map Char.toLower = "urn:uuid:".toList then cs.drop 9
  else cs

/-- Reads an identifier in any letter case: bare digits, hyphenated, in braces or as a resource
name. -/
def ofText? (s : String) : Option Uuid :=
  match ungroup? (unwrap s.toList) with
  | some digits => ofDigits? digits
  | none => ofDigits? s.toList

end Uuid
end PredicateSql
