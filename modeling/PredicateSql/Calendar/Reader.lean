import PredicateSql.Calendar.Basic
import PredicateSql.Number.Power
import PredicateSql.Text.Blank

/-!
Reading dates and times. Blanks may stand before every number and every mark; a field has at most as
many digits as it is wide, but a year with a sign has no limit.
-/
namespace PredicateSql.Calendar

open Text (dropBlanks)

/-- A number of one to `width` digits after blanks. -/
def number? (width : Nat) (cs : List Char) : Option (Nat × List Char) :=
  let cs := dropBlanks cs
  let digits := (cs.take width).takeWhile Decimal.isDigit
  if digits.isEmpty then none
  else some (Decimal.digitsValue 0 digits, cs.drop digits.length)

/-- A mark after blanks. -/
def mark? (mark : Char) (cs : List Char) : Option (List Char) :=
  match dropBlanks cs with
  | c :: rest => if c = mark then some rest else none
  | [] => none

/-- A year: up to four digits, or a sign and any number of digits. -/
def year? (cs : List Char) : Option (Int × List Char) :=
  match dropBlanks cs with
  | '-' :: rest => signed (-1) rest
  | '+' :: rest => signed 1 rest
  | cs => (number? 4 cs).map fun (n, rest) => ((n : Int), rest)
where
  signed (sign : Int) (cs : List Char) : Option (Int × List Char) :=
    let (digits, rest) := Decimal.splitDigits cs
    if digits.isEmpty then none else some (sign * Decimal.digitsValue 0 digits, rest)

/-- The fraction of a second in nanoseconds; digits after the ninth are dropped. -/
def fraction? (cs : List Char) : Option (Nat × List Char) :=
  match cs with
  | '.' :: rest =>
    let (digits, rest) := Decimal.splitDigits rest
    if digits.isEmpty then none
    else
      let kept := digits.take 9
      some (Decimal.digitsValue 0 kept * tenTo (9 - kept.length), rest)
  | _ => some (0, cs)

/-- A date in front of the text. -/
def datePart? (cs : List Char) : Option (Date × List Char) := do
  let (year, cs) ← year? cs
  let (month, cs) ← number? 2 (← mark? '-' cs)
  let (day, cs) ← number? 2 (← mark? '-' cs)
  some (← Date.of? year month day, cs)

/-- A time of day from its fields; second 60 is a leap second. -/
def timeOf? (hour minute second nanos : Nat) : Option Time :=
  if second = 60 then Time.of? hour minute 59 (nanosPerSecond + nanos)
  else Time.of? hour minute second nanos

/-- A time of day with seconds in front of the text. -/
def timePart? (cs : List Char) : Option (Time × List Char) := do
  let (hour, cs) ← number? 2 cs
  let (minute, cs) ← number? 2 (← mark? ':' cs)
  let (second, cs) ← number? 2 (← mark? ':' cs)
  let (nanos, cs) ← fraction? cs
  some (← timeOf? hour minute second nanos, cs)

/-- What is read must be all there is, blanks at the end apart. -/
def complete? {α : Type} (parsed : Option (α × List Char)) : Option α :=
  match parsed with
  | some (x, rest) => if rest.all Text.isBlank then some x else none
  | none => none

/-- Signs of an offset from universal time, the typographic minus included. -/
def offsetSign? : List Char → Option (Int × List Char)
  | '+' :: rest => some (1, rest)
  | '-' :: rest => some (-1, rest)
  | '−' :: rest => some (-1, rest)
  | _ => none

/-- Two digits with nothing before them. -/
def twoDigits? : List Char → Option (Nat × List Char)
  | a :: b :: rest =>
    if Decimal.isDigit a && Decimal.isDigit b then some (Decimal.digitsValue 0 [a, b], rest)
    else none
  | _ => none

/-- An offset from universal time in minutes: a letter `Z`, the word `UTC`, or hours and minutes
with a sign, with colons and blanks between them if any. -/
def offset? (cs : List Char) : Option (Int × List Char) :=
  match cs with
  | 'Z' :: rest => some (0, rest)
  | 'z' :: rest => some (0, rest)
  | _ =>
    if (cs.take 3).map Char.toLower = ['u', 't', 'c'] then some (0, cs.drop 3)
    else do
      let (sign, cs) ← offsetSign? cs
      let (hours, cs) ← twoDigits? cs
      let (minutes, cs) ← twoDigits? (cs.dropWhile fun c => c = ':' || Text.isBlank c)
      if hours < 24 && minutes < 60 then some (sign * (hours * 60 + minutes : Nat), cs) else none

end Calendar

open Calendar

def Date.ofText? (s : String) : Option Date :=
  complete? (datePart? s.toList)

/-- Reads a time of day; the seconds may be missing. -/
def Time.ofText? (s : String) : Option Time :=
  let cs := s.toList
  match complete? (timePart? cs) with
  | some time => some time
  | none => complete? do
    let (hour, cs) ← number? 2 cs
    let (minute, cs) ← number? 2 (← mark? ':' cs)
    some (← Time.of? hour minute 0 0, cs)

/-- Reads a date and a time with a capital `T` between them. -/
def Moment.ofText? (s : String) : Option Moment :=
  complete? do
    let (date, cs) ← datePart? s.toList
    let (time, cs) ← timePart? (← mark? 'T' cs)
    some (⟨date, time⟩, cs)

/-- Reads a date and a time with an offset, as a moment of universal time. The separator is one
letter `T` or one space. -/
def Moment.ofOffsetText? (s : String) : Option Moment :=
  complete? do
    let (date, cs) ← datePart? s.toList
    match cs with
    | c :: cs =>
      if c = 'T' || c = 't' || c = ' ' then
        let (time, cs) ← timePart? cs
        let (minutes, cs) ← offset? (Text.dropBlanks cs)
        some (← (Moment.mk date time).earlier? minutes, cs)
      else none
    | [] => none

end PredicateSql
