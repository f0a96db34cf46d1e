import PredicateSql.Number.Decimal

/-!
Dates, times of day and moments of the proleptic Gregorian calendar. A date and a time of day carry
the proof that they exist. A leap second is a fraction from a whole second on, in the last second of
a minute.
-/
namespace PredicateSql

namespace Calendar

def isLeapYear (year : Int) : Bool :=
  year % 4 = 0 && (year % 100 ≠ 0 || year % 400 = 0)

def daysInMonth (year : Int) (month : Nat) : Nat :=
  if month = 2 then (if isLeapYear year then 29 else 28)
  else if month = 4 || month = 6 || month = 9 || month = 11 then 30
  else 31

def IsDate (year : Int) (month day : Nat) : Prop :=
  (-262143 ≤ year ∧ year ≤ 262142) ∧ (1 ≤ month ∧ month ≤ 12) ∧
    (1 ≤ day ∧ day ≤ daysInMonth year month)

instance (year : Int) (month day : Nat) : Decidable (IsDate year month day) :=
  inferInstanceAs (Decidable (_ ∧ _))

def nanosPerSecond : Nat := 1000000000

def IsTime (hour minute second nanos : Nat) : Prop :=
  hour < 24 ∧ minute < 60 ∧ second < 60 ∧ nanos < 2 * nanosPerSecond ∧
    (nanosPerSecond ≤ nanos → second = 59)

instance (hour minute second nanos : Nat) : Decidable (IsTime hour minute second nanos) :=
  inferInstanceAs (Decidable (_ ∧ _))

end Calendar

open Calendar

structure Date where
  year : Int
  month : Nat
  day : Nat
  valid : IsDate year month day
deriving DecidableEq

/-- A time of day. -/
structure Time where
  hour : Nat
  minute : Nat
  second : Nat
  nanos : Nat
  valid : IsTime hour minute second nanos
deriving DecidableEq

structure Moment where
  date : Date
  time : Time
deriving DecidableEq

namespace Date

def of? (year : Int) (month day : Nat) : Option Date :=
  if h : IsDate year month day then some ⟨year, month, day, h⟩ else none

/-- The day before, unless it is out of range. -/
def pred? (d : Date) : Option Date :=
  if 1 < d.day then of? d.year d.month (d.day - 1)
  else if 1 < d.month then of? d.year (d.month - 1) (daysInMonth d.year (d.month - 1))
  else of? (d.year - 1) 12 31

/-- The day after, unless it is out of range. -/
def succ? (d : Date) : Option Date :=
  if d.day < daysInMonth d.year d.month then of? d.year d.month (d.day + 1)
  else if d.month < 12 then of? d.year (d.month + 1) 1
  else of? (d.year + 1) 1 1

/-- Years have four digits, and a sign as well before year 0 and after year 9999. -/
def yearText (year : Int) : String :=
  let digits := Decimal.paddedText 4 year.natAbs
  if year < 0 then "-" ++ digits
  else if 9999 < year then "+" ++ digits
  else digits

def text (d : Date) : String :=
  yearText d.year ++ "-" ++ Decimal.paddedText 2 d.month ++ "-" ++ Decimal.paddedText 2 d.day

end Date

namespace Time

def of? (hour minute second nanos : Nat) : Option Time :=
  if h : IsTime hour minute second nanos then some ⟨hour, minute, second, nanos, h⟩ else none

/-- A fraction has three, six or nine digits, whichever is the first to be exact. -/
def fractionText (nanos : Nat) : String :=
  if nanos = 0 then ""
  else if nanos % 1000000 = 0 then "." ++ Decimal.paddedText 3 (nanos / 1000000)
  else if nanos % 1000 = 0 then "." ++ Decimal.paddedText 6 (nanos / 1000)
  else "." ++ Decimal.paddedText 9 nanos

/-- A leap second is shown as second 60. -/
def text (t : Time) : String :=
  Decimal.paddedText 2 t.hour ++ ":" ++ Decimal.paddedText 2 t.minute ++ ":" ++
    Decimal.paddedText 2 (t.second + t.nanos / nanosPerSecond) ++
    fractionText (t.nanos % nanosPerSecond)

end Time

namespace Moment

def text (separator : String) (m : Moment) : String :=
  m.date.text ++ separator ++ m.time.text

/-- The moment that many minutes earlier, less than a day; later when negative. -/
def earlier? (m : Moment) (minutes : Int) : Option Moment :=
  let total : Int := m.time.hour * 60 + m.time.minute - minutes
  let clock := (total % 1440).toNat
  let day? := if total < 0 then m.date.pred? else if total < 1440 then some m.date else m.date.succ?
  match day?, Time.of? (clock / 60) (clock % 60) m.time.second m.time.nanos with
  | some date, some time => some ⟨date, time⟩
  | _, _ => none

end Moment
end PredicateSql
