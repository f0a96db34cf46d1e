import Mathlib.Data.List.TakeWhile
import PredicateSql.Number.Layout
import PredicateSql.Proofs.Number.Shortest

/-!
Decimal numerals: a sign, digits, and a fraction if there is one. A whole number is written as a
numeral for itself, and a finite floating-point number as a numeral that is rounded to it.
-/
namespace PredicateSql

namespace Decimal

def value (x : Decimal) : ℚ :=
  if x.negative then -x.magnitude else x.magnitude

theorem isDigit_of_mem_toDigits {n : Nat} {c : Char} (held : c ∈ Nat.toDigits 10 n) :
    isDigit c = true :=
  Nat.isDigit_of_mem_toDigits (by decide) (by decide) held

theorem digitsValue_append (high : Nat) (a b : List Char) :
    digitsValue high (a ++ b) = digitsValue (digitsValue high a) b :=
  List.foldl_append

theorem digitsValue_eq_ofDigitChars (high : Nat) (digits : List Char) :
    digitsValue high digits = Nat.ofDigitChars 10 digits high := by
  rw [Nat.ofDigitChars_eq_foldl, digitsValue]
  simp only [Nat.mul_comm]
  rfl

theorem digitsValue_toDigits (n : Nat) : digitsValue 0 (Nat.toDigits 10 n) = n := by
  rw [digitsValue_eq_ofDigitChars, Nat.ofDigitChars_ten_toDigits]

theorem digitsValue_zeros (high k : Nat) :
    digitsValue high (List.replicate k '0') = high * 10 ^ k := by
  rw [digitsValue_eq_ofDigitChars, Nat.ofDigitChars_replicate_zero, Nat.mul_comm]

theorem ne_of_isDigit {c mark : Char} (digit : isDigit c = true) (other : isDigit mark = false) :
    c ≠ mark := by
  rintro rfl
  cases other.symm.trans digit

/-- Digits are split off up to what is no digit. -/
theorem splitDigits_append {digits rest : List Char} (all : ∀ c ∈ digits, isDigit c = true)
    (ends : ∀ c ∈ rest.head?, isDigit c = false) :
    splitDigits (digits ++ rest) = (digits, rest) := by
  rw [splitDigits, List.span_eq_takeWhile_dropWhile, List.takeWhile_append_of_pos all,
    List.dropWhile_append_of_pos all]
  cases rest with
  | nil => simp
  | cons c rest =>
    have outside := ends c rfl
    simp [outside]

end Decimal

/-- An optional minus sign, digits, and an optional fraction. -/
structure Numeral where
  negative : Bool
  whole : List Char
  fraction : List Char
  nonempty : whole ≠ []
  digits : ∀ c ∈ whole ++ fraction, Decimal.isDigit c = true

namespace Numeral

def pointed : List Char → List Char
  | [] => []
  | digits => '.' :: digits

theorem pointed_of_ne_nil {digits : List Char} (some : digits ≠ []) :
    pointed digits = '.' :: digits := by
  cases digits with
  | nil => exact absurd rfl some
  | cons => rfl

def text (x : Numeral) : String :=
  String.ofList ((if x.negative then ['-'] else []) ++ (x.whole ++ pointed x.fraction))

def decimal (x : Numeral) : Decimal :=
  .ofParts x.negative x.whole x.fraction 0

theorem magnitude_decimal (x : Numeral) :
    x.decimal.magnitude = Decimal.digitsValue 0 (x.whole ++ x.fraction) * 10 ^
      (-(x.fraction.length : ℤ)) := by
  rw [Decimal.magnitude, decimal, Decimal.ofParts, Decimal.digitsValue_append, Int.zero_sub]

/-- A numeral begins with a digit behind its sign. -/
theorem exists_cons (x : Numeral) :
    ∃ c cs, Decimal.isDigit c = true ∧ x.whole ++ pointed x.fraction = c :: cs := by
  obtain ⟨c, cs, given⟩ := List.exists_cons_of_ne_nil x.nonempty
  refine ⟨c, cs ++ pointed x.fraction, x.digits c ?_, by rw [given, List.cons_append]⟩
  rw [given]
  exact List.mem_cons_self

theorem splitSign_text (x : Numeral) :
    Decimal.splitSign x.text.toList = (x.negative, x.whole ++ pointed x.fraction) := by
  obtain ⟨c, cs, digit, begins⟩ := x.exists_cons
  rw [text, String.toList_ofList, begins]
  cases x.negative with
  | true => rfl
  | false =>
    have minus : c ≠ '-' := Decimal.ne_of_isDigit digit (by decide)
    have plus : c ≠ '+' := Decimal.ne_of_isDigit digit (by decide)
    simp [Decimal.splitSign, minus, plus]

/-- The digits of the numeral are the given ones, and it stands for the number. -/
structure Spells (x : Numeral) (negative : Bool) (body : List Char) (v : ℚ) : Prop where
  sign : x.negative = negative
  body : x.whole ++ pointed x.fraction = body
  magnitude : x.decimal.magnitude = v

theorem Spells.text {x : Numeral} {negative : Bool} {body : List Char} {v : ℚ}
    (h : x.Spells negative body v) :
    x.text = String.ofList ((if negative then ['-'] else []) ++ body) := by
  rw [Numeral.text, h.sign, h.body]

theorem Spells.value {x : Numeral} {negative : Bool} {body : List Char} {v : ℚ}
    (h : x.Spells negative body v) :
    x.decimal.value = if negative then -v else v := by
  rw [← h.sign, ← h.magnitude]
  rfl

/-- Digits and digits behind a point are a numeral. -/
theorem exists_spells (negative : Bool) {whole : List Char} (fraction : List Char)
    (nonempty : whole ≠ []) (digits : ∀ c ∈ whole ++ fraction, Decimal.isDigit c = true) :
    ∃ x : Numeral, x.Spells negative (whole ++ pointed fraction)
      (Decimal.digitsValue 0 (whole ++ fraction) * 10 ^ (-(fraction.length : ℤ))) :=
  ⟨⟨negative, whole, fraction, nonempty, digits⟩, rfl, rfl, magnitude_decimal _⟩

/-- The digits of a whole number are a numeral for it. -/
theorem exists_spells_toDigits (negative : Bool) (n : Nat) :
    ∃ x : Numeral, x.Spells negative (Nat.toDigits 10 n) n := by
  have digits : ∀ c ∈ Nat.toDigits 10 n ++ [], Decimal.isDigit c = true := by
    rw [List.append_nil]
    exact fun _ => Decimal.isDigit_of_mem_toDigits
  obtain ⟨x, spells⟩ := exists_spells negative [] Nat.toDigits_ne_nil digits
  refine ⟨x, ?_⟩
  simpa [pointed, Decimal.digitsValue_toDigits] using spells

/-- A whole number is written as a numeral for it. -/
theorem exists_toString_int (i : Int) :
    ∃ x : Numeral, toString i = x.text ∧ x.decimal.value = i := by
  cases i with
  | ofNat n =>
    obtain ⟨x, spells⟩ := exists_spells_toDigits false n
    have digits : toString (Int.ofNat n) = toString n := rfl
    refine ⟨x, ?_, spells.value⟩
    rw [digits, Nat.toString_eq_ofList_toDigits, spells.text]
    rfl
  | negSucc n =>
    obtain ⟨x, spells⟩ := exists_spells_toDigits true (n + 1)
    have digits : toString (Int.negSucc n) = "-" ++ toString (n + 1) := rfl
    refine ⟨x, ?_, spells.value.trans ?_⟩
    · rw [digits, Nat.toString_eq_ofList_toDigits, spells.text, String.ofList_append]
      rfl
    · rw [if_pos rfl, Int.cast_negSucc]

end Numeral

namespace Digits

/-- The number that digits with a point in their place stand for. -/
def magnitude (x : Digits) : ℚ :=
  Decimal.digitsValue 0 x.digits * 10 ^ (x.point - x.digits.length)

variable {x : Digits}

theorem isDigit_of_mem_replicate {k : Nat} {c : Char} (held : c ∈ List.replicate k '0') :
    Decimal.isDigit c = true := by
  rw [List.eq_of_mem_replicate held]
  decide

/-- No digit before the point. -/
theorem exists_spells_fraction (negative : Bool) (digits : ∀ c ∈ x.digits, Decimal.isDigit c = true)
    (given : x.digits ≠ []) (small : x.point ≤ 0) :
    ∃ y : Numeral, y.Spells negative
      ('0' :: '.' :: (List.replicate (-x.point).toNat '0' ++ x.digits)) x.magnitude := by
  have fraction : List.replicate (-x.point).toNat '0' ++ x.digits ≠ [] :=
    List.append_ne_nil_of_right_ne_nil _ given
  obtain ⟨y, spells⟩ :=
    Numeral.exists_spells negative (List.replicate (-x.point).toNat '0' ++ x.digits)
      (List.cons_ne_nil '0' []) <| by
    intro c held
    simp only [List.singleton_append, List.mem_cons, List.mem_append] at held
    rcases held with rfl | held | held
    · decide
    · exact isDigit_of_mem_replicate held
    · exact digits c held
  refine ⟨y, spells.sign, spells.body.trans ?_, spells.magnitude.trans ?_⟩
  · rw [Numeral.pointed_of_ne_nil fraction, List.singleton_append]
  · have zeros : Decimal.digitsValue 0 ['0'] = 0 := rfl
    have places : (-((List.replicate (-x.point).toNat '0' ++ x.digits).length : ℤ)) =
        x.point - x.digits.length := by
      rw [List.length_append, List.length_replicate]
      omega
    rw [Decimal.digitsValue_append, Decimal.digitsValue_append, zeros, Decimal.digitsValue_zeros,
      Nat.zero_mul, places, magnitude]

/-- No digit behind the point. -/
theorem exists_spells_whole (negative : Bool) (digits : ∀ c ∈ x.digits, Decimal.isDigit c = true)
    (given : x.digits ≠ []) (whole : x.digits.length ≤ x.point.toNat) :
    ∃ y : Numeral,
      y.Spells negative (x.digits ++ List.replicate (x.point.toNat - x.digits.length) '0')
        x.magnitude := by
  have some : 0 < x.digits.length := List.length_pos_iff.mpr given
  obtain ⟨y, spells⟩ := Numeral.exists_spells negative []
      (List.append_ne_nil_of_left_ne_nil given
        (List.replicate (x.point.toNat - x.digits.length) '0')) <| by
    intro c held
    simp only [List.append_nil, List.mem_append] at held
    rcases held with held | held
    · exact digits c held
    · exact isDigit_of_mem_replicate held
  refine ⟨y, spells.sign, spells.body.trans (List.append_nil _), spells.magnitude.trans ?_⟩
  have places : x.point - x.digits.length = (x.point.toNat - x.digits.length : Nat) := by omega
  rw [List.append_nil, Decimal.digitsValue_append, Decimal.digitsValue_zeros, magnitude, places,
    zpow_natCast]
  simp

/-- Digits on both sides of the point. -/
theorem exists_spells_split (negative : Bool) (digits : ∀ c ∈ x.digits, Decimal.isDigit c = true)
    (given : x.digits ≠ []) (large : 0 < x.point) (split : x.point.toNat < x.digits.length) :
    ∃ y : Numeral,
      y.Spells negative (x.digits.take x.point.toNat ++ '.' :: x.digits.drop x.point.toNat)
        x.magnitude := by
  have front : x.digits.take x.point.toNat ≠ [] := by
    rw [Ne, List.take_eq_nil_iff]
    rintro (none | none)
    · omega
    · exact given none
  have back : x.digits.drop x.point.toNat ≠ [] := by
    rw [Ne, List.drop_eq_nil_iff]
    omega
  obtain ⟨y, spells⟩ := Numeral.exists_spells negative (x.digits.drop x.point.toNat) front <| by
    rw [List.take_append_drop]
    exact digits
  refine ⟨y, spells.sign, spells.body.trans ?_, spells.magnitude.trans ?_⟩
  · rw [Numeral.pointed_of_ne_nil back]
  · have places : (-((x.digits.drop x.point.toNat).length : ℤ)) = x.point - x.digits.length := by
      rw [List.length_drop]
      omega
    rw [List.take_append_drop, places, magnitude]

/-- Digits in their places are a numeral. -/
theorem exists_spells_positional (negative : Bool)
    (digits : ∀ c ∈ x.digits, Decimal.isDigit c = true) :
    ∃ y : Numeral, y.Spells negative x.positional x.magnitude := by
  unfold positional
  split
  next empty =>
    have none : x.digits = [] := by simpa using empty
    obtain ⟨y, spells⟩ := Numeral.exists_spells_toDigits negative 0
    refine ⟨y, spells.sign, spells.body, spells.magnitude.trans ?_⟩
    simp [magnitude, none, Decimal.digitsValue]
  next some =>
    have given : x.digits ≠ [] := by simpa using some
    split
    next small => exact exists_spells_fraction negative digits given small
    next large =>
      dsimp only
      split
      next whole => exact exists_spells_whole negative digits given whole
      next split => exact exists_spells_split negative digits given (by omega) (by omega)

end Digits

namespace Double

/-- Zeros at the end are dropped, and nothing else. -/
theorem exists_dropTrailingZeros (digits : List Char) :
    ∃ k, digits = dropTrailingZeros digits ++ List.replicate k '0' := by
  refine ⟨(digits.reverse.takeWhile (· = '0')).length, ?_⟩
  have zeros : digits.reverse.takeWhile (· = '0') =
      List.replicate (digits.reverse.takeWhile (· = '0')).length '0' := by
    refine List.eq_replicate_of_mem fun c held => ?_
    simpa using List.mem_takeWhile_imp held
  have whole :=
    congrArg List.reverse (List.takeWhile_append_dropWhile (p := (· = '0')) (l := digits.reverse))
  rw [List.reverse_append, List.reverse_reverse, zeros, List.reverse_replicate] at whole
  exact whole.symm

variable {x : Double}

theorem magnitude_dropTrailingZeros (c : Nat) (t : ℤ) :
    Digits.magnitude ⟨dropTrailingZeros (Nat.toDigits 10 c), (Nat.toDigits 10 c).length + t⟩ =
      c * 10 ^ t := by
  obtain ⟨k, whole⟩ := exists_dropTrailingZeros (Nat.toDigits 10 c)
  have value := Decimal.digitsValue_toDigits c
  have length := congrArg List.length whole
  rw [whole, Decimal.digitsValue_append, Decimal.digitsValue_zeros] at value
  rw [List.length_append, List.length_replicate] at length
  have places : ((Nat.toDigits 10 c).length : ℤ) +
      t - (dropTrailingZeros (Nat.toDigits 10 c)).length = k + t := by
    omega
  rw [Digits.magnitude, places, zpow_add₀ (by norm_num), zpow_natCast, ← mul_assoc]
  congr 1
  exact_mod_cast value

theorem isDigit_of_mem_dropTrailingZeros {n : Nat} {c : Char}
    (held : c ∈ dropTrailingZeros (Nat.toDigits 10 n)) :
    Decimal.isDigit c = true := by
  obtain ⟨k, whole⟩ := exists_dropTrailingZeros (Nat.toDigits 10 n)
  have among : c ∈ Nat.toDigits 10 n := by
    rw [whole]
    exact List.mem_append_left _ held
  exact Decimal.isDigit_of_mem_toDigits among

/-- A decimal for nothing is rounded to the zero with its sign. -/
theorem ofDecimal_of_magnitude_eq_zero {d : Decimal} (nothing : d.magnitude = 0) :
    ofDecimal .double d = zero d.negative := by
  have none : d.coefficient = 0 := by
    have := (mul_eq_zero.mp nothing).resolve_right (ten_zpow_pos _).ne'
    exact_mod_cast this
  rw [ofDecimal, none]
  rfl

theorem zero_of_isZero (nothing : x.isZero = true) : zero x.negative = x := by
  simp only [isZero, Bool.and_eq_true, decide_eq_true_eq] at nothing
  conv_rhs => rw [← ofFields_fields x, nothing.1, nothing.2]
  rfl

/-- The text of digits behind the sign of a number, as a numeral. -/
theorem text_eq_of_spells {y : Numeral} {v : ℚ} (finite : x.isFinite = true)
    (spells : y.Spells x.negative (x.shortest .up).positional v) : x.text = y.text := by
  have number : x.isNaN = false ∧ x.isInfinite = false := by
    simp only [isFinite, decide_eq_true_eq] at finite
    simp [isNaN, isInfinite, finite]
  rw [text, number.1, number.2, spells.text]
  rfl

/-- A finite number is written as a numeral that is rounded to it. -/
theorem exists_text (finite : x.isFinite = true) :
    ∃ y : Numeral, x.text = y.text ∧ ofDecimal .double y.decimal = x := by
  cases nonzero : x.isZero with
  | true =>
    have digits : x.shortest .up = ⟨[], 0⟩ := if_pos nonzero
    obtain ⟨y, spells⟩ := (x.shortest .up).exists_spells_positional x.negative (by simp [digits])
    have nothing : y.decimal.magnitude = 0 := by
      rw [spells.magnitude, digits, Digits.magnitude]
      simp [Decimal.digitsValue]
    have sign : y.decimal.negative = x.negative := spells.sign
    refine ⟨y, text_eq_of_spells finite spells, ?_⟩
    rw [ofDecimal_of_magnitude_eq_zero nothing, sign, zero_of_isZero nonzero]
  | false =>
    obtain ⟨c, t, near, digits⟩ := exists_shortest .up finite nonzero
    obtain ⟨y, spells⟩ := (x.shortest .up).exists_spells_positional x.negative <| by
      rw [digits]
      exact fun _ => isDigit_of_mem_dropTrailingZeros
    have magnitude := spells.magnitude
    rw [digits, magnitude_dropTrailingZeros] at magnitude
    exact ⟨y, text_eq_of_spells finite spells,
      ofDecimal_of_isNear finite nonzero (magnitude ▸ near) spells.sign⟩

end Double
end PredicateSql
