import PredicateSql.Calendar.Reader
import PredicateSql.Proofs.Number.Numerals

/-!
Dates, times of day and moments are read from their texts. Each field is as wide as its reader
expects, so it ends where the next mark or field begins; only a year with a sign and a fraction need
something behind them that is no digit.
-/
namespace PredicateSql

namespace Decimal

theorem isBlank_of_isDigit {c : Char} (digit : isDigit c = true) : Text.isBlank c = false := by
  simp only [isDigit, Bool.and_eq_true, decide_eq_true_eq, Char.le_def,
    UInt32.le_iff_toNat_le] at digit
  have least : 48 ≤ c.toNat := digit.1
  have most : c.toNat ≤ 57 := digit.2
  simp only [Text.isBlank, Bool.or_eq_false_iff, Bool.and_eq_false_imp, decide_eq_true_eq,
    decide_eq_false_iff_not]
  omega

/-- A number with zeros in front of it. -/
structure Pads (n : Nat) (digits : List Char) : Prop where
  all : ∀ c ∈ digits, isDigit c = true
  nonempty : digits ≠ []
  value : digitsValue 0 digits = n

theorem pads_paddedText (width n : Nat) : Pads n (paddedText width n).toList := by
  rw [paddedText, String.toList_ofList]
  refine ⟨fun c held => ?_, List.append_ne_nil_of_right_ne_nil _ Nat.toDigits_ne_nil, ?_⟩
  · rcases List.mem_append.mp held with held | held
    · exact Digits.isDigit_of_mem_replicate held
    · exact isDigit_of_mem_toDigits held
  · rw [digitsValue_append, digitsValue_zeros, Nat.zero_mul, digitsValue_toDigits]

/-- A number that is no wider than its field fills it. -/
theorem length_paddedText {width n : Nat} (wide : 0 < width) (narrow : n < 10 ^ width) :
    (paddedText width n).toList.length = width := by
  have fits := (Nat.length_toDigits_le_iff (b := 10) (by decide) wide).mpr narrow
  rw [paddedText, String.toList_ofList, List.length_append, List.length_replicate]
  omega

end Decimal

namespace Calendar

open Decimal (paddedText)

variable {rest : List Char}

theorem dropBlanks_digits {digits : List Char} (all : ∀ c ∈ digits, Decimal.isDigit c = true)
    (nonempty : digits ≠ []) :
    Text.dropBlanks (digits ++ rest) = digits ++ rest := by
  obtain ⟨c, cs, begins⟩ := List.exists_cons_of_ne_nil nonempty
  refine Text.dropBlanks_eq_self fun c' head => Decimal.isBlank_of_isDigit (all c' ?_)
  rw [begins, List.cons_append, List.head?_cons, Option.some.injEq] at head
  rw [begins, head]
  exact List.mem_cons_self

/-- A field of its width is read whatever stands behind it. -/
theorem number?_paddedText {width n : Nat} (wide : 0 < width) (narrow : n < 10 ^ width) :
    number? width ((paddedText width n).toList ++ rest) = some (n, rest) := by
  have pads := Decimal.pads_paddedText width n
  have length := Decimal.length_paddedText wide narrow
  have front : ((paddedText width n).toList ++ rest).take width = (paddedText width n).toList :=
    List.take_left' length
  have digits : (paddedText width n).toList.takeWhile Decimal.isDigit =
      (paddedText width n).toList :=
    List.takeWhile_eq_self_iff.mpr pads.all
  have given : (paddedText width n).toList.isEmpty = false := by simpa using pads.nonempty
  rw [number?, dropBlanks_digits pads.all pads.nonempty]
  simp only [front, digits, given, Bool.false_eq_true, if_false, pads.value, List.drop_left']

theorem mark?_cons {c : Char} (mark : Text.isBlank c = false) :
    mark? c (c :: rest) = some rest := by
  rw [mark?, Text.dropBlanks_eq_self (by rintro _ ⟨⟩; exact mark)]
  simp

/-- A signed year ends where its digits end. -/
theorem signed_paddedText (sign : Int) (n : Nat)
    (ends : ∀ c ∈ rest.head?, Decimal.isDigit c = false) :
    year?.signed sign ((paddedText 4 n).toList ++ rest) = some (sign * n, rest) := by
  have pads := Decimal.pads_paddedText 4 n
  have given : (paddedText 4 n).toList.isEmpty = false := by simpa using pads.nonempty
  simp only [year?.signed, Decimal.splitDigits_append pads.all ends, given, Bool.false_eq_true,
    if_false, pads.value]

theorem year?_yearText (year : Int) (ends : ∀ c ∈ rest.head?, Decimal.isDigit c = false) :
    year? ((Date.yearText year).toList ++ rest) = some (year, rest) := by
  unfold Date.yearText
  split
  next negative =>
    have same : -1 * (year.natAbs : Int) = year := by omega
    have read := signed_paddedText (-1) year.natAbs ends
    rw [same] at read
    rw [String.toList_append]
    exact read
  next positive =>
    split
    next large =>
      have same : 1 * (year.natAbs : Int) = year := by omega
      have read := signed_paddedText 1 year.natAbs ends
      rw [same] at read
      rw [String.toList_append]
      exact read
    next small =>
      have same : (year.natAbs : Int) = year := by omega
      have narrow : year.natAbs < 10 ^ 4 := by omega
      have pads := Decimal.pads_paddedText 4 year.natAbs
      obtain ⟨c, cs, begins⟩ := List.exists_cons_of_ne_nil pads.nonempty
      have digit : Decimal.isDigit c = true := pads.all c (begins ▸ List.mem_cons_self)
      have minus : c ≠ '-' := Decimal.ne_of_isDigit digit (by decide)
      have plus : c ≠ '+' := Decimal.ne_of_isDigit digit (by decide)
      have read : number? 4 ((paddedText 4 year.natAbs).toList ++ rest) =
          some (year.natAbs, rest) :=
        number?_paddedText (by decide) narrow
      rw [year?, dropBlanks_digits pads.all pads.nonempty]
      rw [begins, List.cons_append] at read ⊢
      simp [minus, plus, read, same]

/-! ### Dates -/

/-- A date is read up to its end. -/
theorem datePart?_text (d : Date) : datePart? (d.text.toList ++ rest) = some (d, rest) := by
  obtain ⟨-, ⟨-, lastMonth⟩, -, lastDay⟩ := d.valid
  have month : d.month < 10 ^ 2 := by omega
  have day : d.day < 10 ^ 2 := by
    have longest : daysInMonth d.year d.month ≤ 31 := by
      unfold daysInMonth
      repeat' split
      all_goals omega
    omega
  have shape : d.text.toList ++ rest =
      (Date.yearText d.year).toList ++ '-' :: ((paddedText 2 d.month).toList ++
      '-' :: ((paddedText 2 d.day).toList ++ rest)) := by
    simp [Date.text]
  have ends : ∀ c ∈ ('-' :: ((paddedText 2 d.month).toList ++
      '-' :: ((paddedText 2 d.day).toList ++ rest))).head?, Decimal.isDigit c = false := by
    rintro _ ⟨⟩
    decide
  have hyphen : Text.isBlank '-' = false := by decide
  have same : Date.of? d.year d.month d.day = some d := dif_pos d.valid
  rw [shape, datePart?, year?_yearText d.year ends]
  simp only [mark?_cons hyphen, number?_paddedText (by decide) month,
    number?_paddedText (by decide) day, same, Option.bind_eq_bind, Option.bind_some]

/-! ### Times of day -/

def EndsTime (rest : List Char) : Prop :=
  ∀ c ∈ rest.head?, Decimal.isDigit c = false ∧ c ≠ '.'

/-- Digits behind a point count as nanoseconds by their places. -/
theorem fraction?_paddedText {width n nanos : Nat} (wide : 0 < width) (most : width ≤ 9)
    (narrow : n < 10 ^ width) (value : n * 10 ^ (9 - width) = nanos) (ends : EndsTime rest) :
    fraction? (("." ++ paddedText width n).toList ++ rest) = some (nanos, rest) := by
  have pads := Decimal.pads_paddedText width n
  have length := Decimal.length_paddedText wide narrow
  have given : (paddedText width n).toList.isEmpty = false := by simpa using pads.nonempty
  have kept : (paddedText width n).toList.take 9 = (paddedText width n).toList :=
    List.take_of_length_le (by omega)
  have shape : ("." ++ paddedText width n).toList ++ rest =
      '.' :: ((paddedText width n).toList ++ rest) := by simp
  rw [shape, fraction?]
  simp only [Decimal.splitDigits_append pads.all fun c head => (ends c head).1, given,
    Bool.false_eq_true, if_false, kept, pads.value, length, ← value]
  rfl

theorem fraction?_fractionText {nanos : Nat} (part : nanos < nanosPerSecond)
    (ends : EndsTime rest) :
    fraction? ((Time.fractionText nanos).toList ++ rest) = some (nanos, rest) := by
  rw [nanosPerSecond] at part
  unfold Time.fractionText
  split
  next none =>
    cases rest with
    | nil => simp [fraction?, none]
    | cons c rest => simp [fraction?, none, (ends c rfl).2]
  next =>
    split
    next milli => exact fraction?_paddedText (by decide) (by decide) (by omega) (by omega) ends
    next =>
      split
      next micro => exact fraction?_paddedText (by decide) (by decide) (by omega) (by omega) ends
      next => exact fraction?_paddedText (by decide) (by decide) (by omega) (by omega) ends

/-- A leap second is read from second 60. -/
theorem timeOf?_shown (t : Time) :
    timeOf? t.hour t.minute (t.second + t.nanos / nanosPerSecond) (t.nanos % nanosPerSecond) =
      some t := by
  have same : Time.of? t.hour t.minute t.second t.nanos = some t := dif_pos t.valid
  obtain ⟨-, -, second, least, leap⟩ := t.valid
  rw [timeOf?]
  rcases Nat.lt_or_ge t.nanos nanosPerSecond with part | whole
  · have none : t.nanos / nanosPerSecond = 0 := Nat.div_eq_of_lt part
    rw [none, Nat.mod_eq_of_lt part, if_neg (by omega)]
    exact same
  · have last : t.second = 59 := leap whole
    have one : t.nanos / nanosPerSecond = 1 := by
      rw [nanosPerSecond] at whole least ⊢
      omega
    have nanos : nanosPerSecond + t.nanos % nanosPerSecond = t.nanos := by
      rw [Nat.mod_eq_sub_mod whole, Nat.mod_eq_of_lt (by omega)]
      omega
    rw [one, nanos, if_pos (by omega), ← last]
    exact same

/-- A time of day is read up to its end. -/
theorem timePart?_text (t : Time) (ends : EndsTime rest) :
    timePart? (t.text.toList ++ rest) = some (t, rest) := by
  obtain ⟨lastHour, lastMinute, lastSecond, lastNano, -⟩ := t.valid
  have hour : t.hour < 10 ^ 2 := by omega
  have minute : t.minute < 10 ^ 2 := by omega
  have second : t.second + t.nanos / nanosPerSecond < 10 ^ 2 := by
    rw [nanosPerSecond] at lastNano ⊢
    omega
  have part : t.nanos % nanosPerSecond < nanosPerSecond := Nat.mod_lt _ (by decide)
  have shape : t.text.toList ++ rest =
      (paddedText 2 t.hour).toList ++ ':' :: ((paddedText 2 t.minute).toList ++
      ':' :: ((paddedText 2 (t.second + t.nanos / nanosPerSecond)).toList ++
        ((Time.fractionText (t.nanos % nanosPerSecond)).toList ++ rest))) := by
    simp [Time.text]
  have colon : Text.isBlank ':' = false := by decide
  rw [shape, timePart?, number?_paddedText (by decide) hour]
  simp only [mark?_cons colon, number?_paddedText (by decide) minute,
    number?_paddedText (by decide) second, fraction?_fractionText part ends, timeOf?_shown,
    Option.bind_eq_bind, Option.bind_some]

theorem endsTime_nil : EndsTime [] := by
  rintro _ ⟨⟩

end Calendar

open Calendar

/-- The text of a date is read as that date. -/
theorem Date.ofText?_text (d : Date) : Date.ofText? d.text = some d := by
  have read : datePart? (d.text.toList ++ []) = some (d, []) := datePart?_text d
  rw [List.append_nil] at read
  rw [ofText?, read]
  rfl

/-- The text of a time of day is read as that time. -/
theorem Time.ofText?_text (t : Time) : Time.ofText? t.text = some t := by
  have read := timePart?_text t endsTime_nil
  rw [List.append_nil] at read
  rw [ofText?]
  simp [read, complete?]

namespace Moment

/-- A moment is read with a capital letter between the date and the time. -/
theorem ofText?_text (m : Moment) : Moment.ofText? (m.text "T") = some m := by
  have shape : (m.text "T").toList = m.date.text.toList ++ 'T' :: (m.time.text.toList ++ []) := by
    simp [text]
  have letter : Text.isBlank 'T' = false := by decide
  rw [ofText?, shape, datePart?_text]
  simp only [mark?_cons letter, timePart?_text m.time endsTime_nil, Option.bind_eq_bind,
    Option.bind_some]
  rfl

theorem earlier?_zero (m : Moment) : m.earlier? 0 = some m := by
  obtain ⟨hour, minute, -⟩ := m.time.valid
  have clock : ((m.time.hour * 60 + m.time.minute - 0 : Int) % 1440).toNat =
      m.time.hour * 60 + m.time.minute := by omega
  have hours : (m.time.hour * 60 + m.time.minute) / 60 = m.time.hour := by omega
  have minutes : (m.time.hour * 60 + m.time.minute) % 60 = m.time.minute := by omega
  have same : Time.of? m.time.hour m.time.minute m.time.second m.time.nanos = some m.time :=
    dif_pos m.time.valid
  rw [earlier?, if_neg (by omega), if_pos (by omega)]
  simp only [clock, hours, minutes, same]

/-- A moment of universal time is read with its letter behind the time. -/
theorem ofOffsetText?_text (m : Moment) : Moment.ofOffsetText? (m.text "T" ++ "Z") = some m := by
  have shape : (m.text "T" ++ "Z").toList =
      m.date.text.toList ++ 'T' :: (m.time.text.toList ++ ['Z']) := by simp [text]
  have ends : EndsTime ['Z'] := by
    rintro _ ⟨⟩
    decide
  rw [ofOffsetText?, shape, datePart?_text]
  have blanks : Text.dropBlanks ['Z'] = ['Z'] := by decide
  simp only [timePart?_text m.time ends, blanks, offset?, earlier?_zero, decide_true,
    Bool.true_or, if_true, Option.bind_eq_bind, Option.bind_some]
  rfl

end Moment
end PredicateSql
