import PredicateSql.Json.Numeral

/-!
JSON as it is written. Text that follows the grammar is a tree whose numerals and strings have not
been evaluated yet, and evaluation can fail: surrogates must come in pairs, numbers must be in
range, and values may be nested only so deep. A reader who passes over a part of the tree does not
evaluate it.
-/
namespace PredicateSql.Json

/-- A piece of a string: a character, or a unit of UTF-16 that an escape gives by number. -/
inductive Piece where
  | char (c : Char)
  | unit (n : Nat)

namespace Piece

def isHigh (n : Nat) : Bool :=
  0xD800 ≤ n && n ≤ 0xDBFF

def isLow (n : Nat) : Bool :=
  0xDC00 ≤ n && n ≤ 0xDFFF

def pair (high low : Nat) : Char :=
  Char.ofNat (0x10000 + (high - 0xD800) * 0x400 + (low - 0xDC00))

/-- The string that pieces make up after `seen` (last first). A high surrogate must be followed by a
low one, and a low one must follow a high one. -/
def text? (seen : List Char) : List Piece → Option String
  | [] => some (String.ofList seen.reverse)
  | char c :: rest => text? (c :: seen) rest
  | unit high :: unit low :: rest =>
    if isHigh high then
      if isLow low then text? (pair high low :: seen) rest else none
    else if isLow high then none
    else text? (Char.ofNat high :: seen) (unit low :: rest)
  | unit n :: rest => if isHigh n || isLow n then none else text? (Char.ofNat n :: seen) rest

end Piece

/-- The tree of a JSON text. -/
inductive Written where
  | null
  | bool (value : Bool)
  | number (numeral : Numeral)
  | string (pieces : List Piece)
  | array (items : List Written)
  | object (members : List (List Piece × Written))

namespace Written

mutual

/-- The value of a tree that is nested at most `depth` deep. -/
def toJson? (depth : Nat) : Written → Option Json
  | null => some .null
  | bool b => some (.bool b)
  | number x => x.toJson?
  | string pieces => (Piece.text? [] pieces).map .string
  | array items => if depth = 0 then none else (toJsonItems? (depth - 1) items).map .array
  | object members => if depth = 0 then none else (toJsonMembers? (depth - 1) members).map .object

def toJsonItems? (depth : Nat) : List Written → Option (List Json)
  | [] => some []
  | item :: rest => do some ((← toJson? depth item) :: (← toJsonItems? depth rest))

def toJsonMembers? (depth : Nat) : List (List Piece × Written) → Option (List (String × Json))
  | [] => some []
  | (name, value) :: rest => do
    some ((← Piece.text? [] name, ← toJson? depth value) :: (← toJsonMembers? depth rest))

end

/-- The members by their names. Only the names are evaluated. -/
def named? (members : List (List Piece × Written)) : Option (List (String × Written)) :=
  members.mapM fun (name, value) => (Piece.text? [] name).map fun name => (name, value)

end Written
end PredicateSql.Json
