import PredicateSql.Json.Written
import PredicateSql.Text.Hex

/-!
Reading JSON text: its tree by the grammar alone, or its value.
-/
namespace PredicateSql.Json

def isSpace (c : Char) : Bool :=
  c = ' ' || c = '\n' || c = '\t' || c = '\r'

def skipSpace (cs : List Char) : List Char :=
  cs.dropWhile isSpace

/-- Drops a given text at the front. -/
def expect? : List Char → List Char → Option (List Char)
  | [], cs => some cs
  | w :: word, c :: cs => if w = c then expect? word cs else none
  | _ :: _, [] => none

/-- The fraction of a numeral, when it has one. -/
def fraction? (cs : List Char) : Option (Option (List Char) × List Char) :=
  match cs with
  | '.' :: rest =>
    let (digits, rest) := Decimal.splitDigits rest
    if digits.isEmpty then none else some (some digits, rest)
  | _ => some (none, cs)

/-- The exponent of a numeral, when it has one. -/
def exponent? (cs : List Char) : Option (Option Int × List Char) :=
  match cs with
  | c :: _ =>
    if c = 'e' || c = 'E' then
      (Decimal.splitExponent? cs).map fun (exponent, rest) => (some exponent, rest)
    else some (none, cs)
  | [] => some (none, cs)

/-- A number in front of the text. -/
def numeral? (cs : List Char) : Option (Numeral × List Char) := do
  let (negative, cs) := match cs with
    | '-' :: rest => (true, rest)
    | _ => (false, cs)
  let (whole, cs) := Decimal.splitDigits cs
  if whole.isEmpty || (whole.head? = some '0' && 1 < whole.length) then none
  else
    let (fraction, cs) ← fraction? cs
    let (exponent, cs) ← exponent? cs
    some (⟨negative, whole, fraction, exponent⟩, cs)

def fourDigits? : List Char → Option (Nat × List Char)
  | a :: b :: c :: d :: rest => (Text.Hex.number? 0 [a, b, c, d]).map fun n => (n, rest)
  | _ => none

/-- The piece that an escape stands for, after its backslash. -/
def escape? : List Char → Option (Piece × List Char)
  | '"' :: cs => some (.char '"', cs)
  | '\\' :: cs => some (.char '\\', cs)
  | '/' :: cs => some (.char '/', cs)
  | 'b' :: cs => some (.char '\x08', cs)
  | 'f' :: cs => some (.char '\x0c', cs)
  | 'n' :: cs => some (.char '\n', cs)
  | 'r' :: cs => some (.char '\r', cs)
  | 't' :: cs => some (.char '\t', cs)
  | 'u' :: cs => (fourDigits? cs).map fun (n, cs) => (.unit n, cs)
  | _ => none

/-- The rest of a string after `seen` (last first); every turn reads at least one character. -/
def stringRest? : Nat → List Piece → List Char → Option (List Piece × List Char)
  | 0, _, _ => none
  | _ + 1, _, [] => none
  | fuel + 1, seen, c :: cs =>
    if c = '"' then some (seen.reverse, cs)
    else if c = '\\' then
      match escape? cs with
      | some (e, cs) => stringRest? fuel (e :: seen) cs
      | none => none
    else if c.toNat < 0x20 then none
    else stringRest? fuel (.char c :: seen) cs

def string? (fuel : Nat) : List Char → Option (List Piece × List Char)
  | '"' :: cs => stringRest? fuel [] cs
  | _ => none

mutual

/-- A value in front of the text. Every step uses up a character or a fuel unit that stands for
one. -/
def value? (fuel : Nat) (cs : List Char) : Option (Written × List Char) :=
  match fuel with
  | 0 => none
  | fuel + 1 =>
    match cs with
    | 'n' :: _ => (expect? "null".toList cs).map fun rest => (.null, rest)
    | 't' :: _ => (expect? "true".toList cs).map fun rest => (.bool true, rest)
    | 'f' :: _ => (expect? "false".toList cs).map fun rest => (.bool false, rest)
    | '"' :: _ => (string? fuel cs).map fun (s, rest) => (.string s, rest)
    | '[' :: rest =>
      match skipSpace rest with
      | ']' :: rest => some (.array [], rest)
      | rest => (items? fuel [] rest).map fun (items, rest) => (.array items, rest)
    | '\x7b' :: rest =>
      match skipSpace rest with
      | '\x7d' :: rest => some (.object [], rest)
      | rest => (members? fuel [] rest).map fun (members, rest) => (.object members, rest)
    | _ => (numeral? cs).map fun (x, rest) => (.number x, rest)

/-- The items of an array up to its end, after `seen` (last first). -/
def items? (fuel : Nat) (seen : List Written) (cs : List Char) :
    Option (List Written × List Char) :=
  match fuel with
  | 0 => none
  | fuel + 1 =>
    match value? fuel cs with
    | none => none
    | some (item, cs) =>
      match skipSpace cs with
      | ']' :: rest => some ((item :: seen).reverse, rest)
      | ',' :: rest => items? fuel (item :: seen) (skipSpace rest)
      | _ => none

/-- The members of an object up to its end, after `seen` (last first). -/
def members? (fuel : Nat) (seen : List (List Piece × Written)) (cs : List Char) :
    Option (List (List Piece × Written) × List Char) :=
  match fuel with
  | 0 => none
  | fuel + 1 =>
    match string? fuel cs with
    | none => none
    | some (name, cs) =>
      match skipSpace cs with
      | ':' :: cs =>
        match value? fuel (skipSpace cs) with
        | none => none
        | some (value, cs) =>
          match skipSpace cs with
          | '\x7d' :: rest => some (((name, value) :: seen).reverse, rest)
          | ',' :: rest => members? fuel ((name, value) :: seen) (skipSpace rest)
          | _ => none
      | _ => none

end

/-- Reads a text that holds one value, by the grammar alone. -/
def Written.ofText? (text : String) : Option Written :=
  let cs := skipSpace text.toList
  match value? (2 * cs.length + 2) cs with
  | some (written, rest) => if (skipSpace rest).isEmpty then some written else none
  | none => none

/-- Reads a text that holds one value, nested at most `depth` deep. -/
def parse? (depth : Nat) (text : String) : Option Json :=
  (Written.ofText? text).bind (·.toJson? depth)

def documentDepth : Nat := 127

end PredicateSql.Json
