import PredicateSql.Json.Printer
import PredicateSql.Json.Reader
import PredicateSql.Proofs.Number.Numerals

/-!
Numerals in JSON text. What is printed for an integer or for a finite floating-point number is a
numeral of the grammar, and a numeral is read up to its end whatever may follow a value.
-/
namespace PredicateSql

namespace Json

/-- What stands behind a value: nothing, or a mark that goes on or closes. -/
def Follows (rest : List Char) : Prop :=
  ∀ c ∈ rest.head?, c = ',' ∨ c = ']' ∨ c = '\x7d'

theorem Follows.nil : Follows [] := by
  rintro c ⟨⟩

theorem Follows.cons {c : Char} {rest : List Char} (mark : c = ',' ∨ c = ']' ∨ c = '\x7d') :
    Follows (c :: rest) := by
  rintro c ⟨⟩
  exact mark

namespace Numeral

def fractionChars : Option (List Char) → List Char
  | none => []
  | some digits => '.' :: digits

def exponentChars : Option Int → List Char
  | none => []
  | some e => 'e' :: (toString e).toList

def bodyChars (x : Numeral) : List Char :=
  x.whole ++ (fractionChars x.fraction ++ exponentChars x.exponent)

/-- The text of a numeral, with a small `e` and no plus sign. -/
def chars (x : Numeral) : List Char :=
  (if x.negative then ['-'] else []) ++ x.bodyChars

/-- Digits where the grammar wants digits, and no zero in front of other whole digits. -/
structure IsRegular (x : Numeral) : Prop where
  nonempty : x.whole ≠ []
  whole : ∀ c ∈ x.whole, Decimal.isDigit c = true
  leading : x.whole.head? = some '0' → x.whole.length = 1
  fraction : ∀ digits ∈ x.fraction, digits ≠ [] ∧ ∀ c ∈ digits, Decimal.isDigit c = true

end Numeral

/-- An integer is written as its sign and its digits. -/
theorem toList_toString (i : Int) :
    (toString i).toList = (if i < 0 then ['-'] else []) ++ Nat.toDigits 10 i.natAbs := by
  cases i with
  | ofNat n =>
    have digits : toString (Int.ofNat n) = toString n := rfl
    have sign : ¬ Int.ofNat n < 0 := by simp
    rw [digits, Nat.toString_eq_ofList_toDigits, String.toList_ofList, if_neg sign]
    rfl
  | negSucc n =>
    have digits : toString (Int.negSucc n) = "-" ++ toString (n + 1) := rfl
    rw [digits, String.toList_append, Nat.toString_eq_ofList_toDigits,
      if_pos (Int.negSucc_lt_zero n)]
    exact congrArg ('-' :: ·) String.toList_ofList

/-- Only the digits of zero begin with a zero. -/
theorem eq_zero_of_head?_toDigits {n : Nat} (zero : (Nat.toDigits 10 n).head? = some '0') :
    n = 0 := by
  induction n using Nat.strongRecOn with
  | ind n before =>
    rcases Nat.lt_or_ge n 10 with one | more
    · rw [Nat.toDigits_of_lt_base one] at zero
      have digit : ∀ k < 10, k.digitChar = '0' → k = 0 := by decide
      exact digit n one (Option.some.inj zero)
    · have tens : 0 < n / 10 := Nat.div_pos more (by decide)
      have whole := Nat.toDigits_append_toDigits (b := 10)
        (by decide) tens (Nat.mod_lt n (by decide))
      rw [Nat.div_add_mod] at whole
      obtain ⟨c, cs, begins⟩ :=
        List.exists_cons_of_ne_nil (Nat.toDigits_ne_nil (b := 10) (n := n / 10))
      have front : (Nat.toDigits 10 (n / 10)).head? = some '0' := by
        rw [← whole, begins] at zero
        rw [begins]
        exact zero
      exact absurd (before (n / 10) (Nat.div_lt_self (by omega) (by decide)) front) tens.ne'

def EndsNumeral (rest : List Char) : Prop :=
  ∀ c ∈ rest.head?, Decimal.isDigit c = false ∧ c ≠ '.' ∧ c ≠ 'e' ∧ c ≠ 'E'

theorem Follows.endsNumeral {rest : List Char} (follows : Follows rest) : EndsNumeral rest := by
  intro c head
  rcases follows c head with rfl | rfl | rfl <;> decide

namespace Numeral

variable {x : Numeral} {rest : List Char}

theorem splitExponent?_append (e : Int) (ends : EndsNumeral rest) :
    Decimal.splitExponent? ('e' :: ((toString e).toList ++ rest)) = some (e, rest) := by
  have split : Decimal.splitDigits (Nat.toDigits 10 e.natAbs ++ rest) =
      (Nat.toDigits 10 e.natAbs, rest) :=
    Decimal.splitDigits_append (fun c => Decimal.isDigit_of_mem_toDigits) fun c head =>
      (ends c head).1
  have some : (Nat.toDigits 10 e.natAbs).isEmpty = false := by simp
  have sign : Decimal.splitSign ((toString e).toList ++ rest) =
      (decide (e < 0), Nat.toDigits 10 e.natAbs ++ rest) := by
    rw [toList_toString, List.append_assoc]
    split
    next negative => simp [Decimal.splitSign, negative]
    next positive =>
      obtain ⟨c, cs, begins⟩ :=
        List.exists_cons_of_ne_nil (Nat.toDigits_ne_nil (b := 10) (n := e.natAbs))
      have digit : Decimal.isDigit c = true :=
        Decimal.isDigit_of_mem_toDigits (begins ▸ List.mem_cons_self)
      have minus : c ≠ '-' := Decimal.ne_of_isDigit digit (by decide)
      have plus : c ≠ '+' := Decimal.ne_of_isDigit digit (by decide)
      simp [begins, Decimal.splitSign, positive, minus, plus]
  simp only [Decimal.splitExponent?, decide_true, Bool.true_or, if_true, sign, split, some,
    Bool.false_eq_true, if_false, Decimal.digitsValue_toDigits, Option.some.injEq, Prod.mk.injEq,
    and_true, decide_eq_true_eq]
  split <;> omega

theorem exponent?_append (e : Option Int) (ends : EndsNumeral rest) :
    exponent? (exponentChars e ++ rest) = some (e, rest) := by
  cases e with
  | some e =>
    rw [exponentChars, List.cons_append, exponent?, splitExponent?_append e ends]
    rfl
  | none =>
    cases rest with
    | nil => rfl
    | cons c rest =>
      obtain ⟨-, -, small, capital⟩ := ends c rfl
      simp [exponentChars, exponent?, small, capital]

/-- Behind the digits of a numeral there is a mark of the numeral, or it ends. -/
theorem head?_exponentChars (e : Option Int) (ends : EndsNumeral rest) :
    ∀ c ∈ (exponentChars e ++ rest).head?, Decimal.isDigit c = false ∧ c ≠ '.' := by
  cases e with
  | some e => rintro c ⟨⟩; decide
  | none => exact fun c head => ⟨(ends c head).1, (ends c head).2.1⟩

theorem fraction?_append (regular : x.IsRegular) (ends : EndsNumeral rest) :
    fraction? (fractionChars x.fraction ++ (exponentChars x.exponent ++ rest)) =
      some (x.fraction, exponentChars x.exponent ++ rest) := by
  have behind := head?_exponentChars x.exponent ends
  cases given : x.fraction with
  | some digits =>
    obtain ⟨nonempty, all⟩ := regular.fraction digits given
    have some : digits.isEmpty = false := by simpa using nonempty
    simp [fractionChars, fraction?, Decimal.splitDigits_append all fun c head =>
      (behind c head).1, some]
  | none =>
    rw [fractionChars, List.nil_append]
    cases start : exponentChars x.exponent ++ rest with
    | nil => rfl
    | cons c cs =>
      obtain ⟨-, point⟩ := behind c (start ▸ rfl)
      simp [fraction?, point]

/-- A numeral begins with a digit behind its sign. -/
theorem exists_bodyChars (regular : x.IsRegular) :
    ∃ c cs, Decimal.isDigit c = true ∧ x.bodyChars = c :: cs := by
  obtain ⟨c, cs, given⟩ := List.exists_cons_of_ne_nil regular.nonempty
  exact ⟨c, _, regular.whole c (given ▸ List.mem_cons_self), by
    rw [bodyChars, given, List.cons_append]⟩

/-- A numeral of the grammar is read up to its end. -/
theorem numeral?_chars (regular : x.IsRegular) (ends : EndsNumeral rest) :
    numeral? (x.chars ++ rest) = some (x, rest) := by
  have behind : ∀ c ∈ (fractionChars x.fraction ++ (exponentChars x.exponent ++ rest)).head?,
      Decimal.isDigit c = false := by
    cases x.fraction with
    | some digits => rintro c ⟨⟩; decide
    | none => exact fun c head => (head?_exponentChars x.exponent ends c head).1
  have whole : Decimal.splitDigits (x.bodyChars ++ rest) =
      (x.whole, fractionChars x.fraction ++ (exponentChars x.exponent ++ rest)) := by
    rw [bodyChars, List.append_assoc, List.append_assoc,
      Decimal.splitDigits_append regular.whole behind]
  have some : (x.whole.isEmpty || (x.whole.head? = some '0' && 1 < x.whole.length)) = false := by
    simp only [Bool.or_eq_false_iff, List.isEmpty_eq_false_iff, Bool.and_eq_false_imp,
      decide_eq_true_eq, decide_eq_false_iff_not]
    exact ⟨regular.nonempty, fun zero => by simp [regular.leading zero]⟩
  cases sign : x.negative with
  | true =>
    have begins : x.chars ++ rest = '-' :: (x.bodyChars ++ rest) := by rw [chars, sign]; rfl
    rw [begins]
    simp only [numeral?, whole, some, Bool.false_eq_true, if_false, fraction?_append regular ends,
      exponent?_append x.exponent ends, Option.bind_eq_bind, Option.bind_some]
    rw [← sign]
  | false =>
    obtain ⟨c, cs, digit, body⟩ := exists_bodyChars regular
    have minus : c ≠ '-' := Decimal.ne_of_isDigit digit (by decide)
    have begins : x.chars ++ rest = c :: (cs ++ rest) := by rw [chars, sign, body]; rfl
    rw [body, List.cons_append] at whole
    rw [begins]
    simp only [numeral?, List.cons.injEq, minus, false_and, false_imp_iff, implies_true,
      whole, some, Bool.false_eq_true, if_false, fraction?_append regular ends,
      exponent?_append x.exponent ends,
      Option.bind_eq_bind, Option.bind_some]
    rw [← sign]

def ofInt (i : Int) : Numeral :=
  ⟨i < 0, Nat.toDigits 10 i.natAbs, none, none⟩

theorem chars_ofInt (i : Int) : (ofInt i).chars = (toString i).toList := by
  rw [toList_toString, chars, bodyChars]
  simp [ofInt, fractionChars, exponentChars]

theorem isRegular_ofInt (i : Int) : (ofInt i).IsRegular where
  nonempty := Nat.toDigits_ne_nil
  whole := fun _ => Decimal.isDigit_of_mem_toDigits
  leading zero := by
    have none : i.natAbs = 0 := eq_zero_of_head?_toDigits zero
    rw [ofInt, none]
    rfl
  fraction := nofun

/-- An integer of 64 bits, with or without a sign, is what its numeral stands for. -/
theorem toJson?_ofInt {i : Int} (least : Int64.minValue.toInt ≤ i) (most : i < UInt64.size) :
    (ofInt i).toJson? = some (.int i) := by
  have value : Decimal.digitsValue 0 (ofInt i).whole = i.natAbs := Decimal.digitsValue_toDigits _
  have integer : (ofInt i).integer? = some i := by
    rw [integer?, value]
    rcases Int.lt_or_le i 0 with negative | positive
    · have sign : (ofInt i).negative = true := decide_eq_true negative
      have range : (0 < i.natAbs && Int64.minValue.toInt ≤ i) = true := by
        simp only [Bool.and_eq_true, decide_eq_true_eq]
        omega
      have same : -(i.natAbs : Int) = i := by omega
      simp only [sign, same, range, if_true]
      rfl
    · have sign : (ofInt i).negative = false := decide_eq_false (by omega)
      have range : i.natAbs < UInt64.size := by omega
      have same : (i.natAbs : Int) = i := by omega
      simp only [sign, range, if_true, same]
      rfl
  rw [toJson?, integer]

end Numeral

end Json

namespace Digits

/-- The JSON numeral of digits with a point in their place. -/
def numeral (negative : Bool) (x : Digits) : Json.Numeral :=
  if x.digits.isEmpty then ⟨negative, ['0'], some ['0'], none⟩
  else if -5 < x.point && x.point ≤ 16 then
    if x.point ≤ 0 then ⟨negative, ['0'],
      some (List.replicate (-x.point).toNat '0' ++ x.digits), none⟩
    else if x.digits.length ≤ x.point.toNat then
      ⟨negative, x.digits ++ List.replicate (x.point.toNat - x.digits.length) '0', some ['0'], none⟩
    else ⟨negative, x.digits.take x.point.toNat, some (x.digits.drop x.point.toNat), none⟩
  else ⟨negative, x.digits.take 1, if x.digits.length = 1 then none else some x.digits.tail,
    some (x.point - 1)⟩

variable {x : Digits}

theorem isDigit_zero : Decimal.isDigit '0' = true := by decide

section Regular

variable (negative : Bool) (digits : ∀ c ∈ x.digits, Decimal.isDigit c = true)
  (leading : x.digits.head? ≠ some '0')
include digits

/-- No digit before the point. -/
theorem isRegular_below (k : Nat) (given : x.digits ≠ []) :
    Json.Numeral.IsRegular ⟨negative, ['0'], some (List.replicate k '0' ++ x.digits), none⟩ where
  nonempty := List.cons_ne_nil _ _
  whole := by simp [isDigit_zero]
  leading _ := rfl
  fraction := by
    intro fraction same
    obtain rfl := Option.some.inj same
    refine ⟨List.append_ne_nil_of_right_ne_nil _ given, fun c held => ?_⟩
    rcases List.mem_append.mp held with held | held
    · exact isDigit_of_mem_replicate held
    · exact digits c held

include leading

/-- No digit but a zero behind the point. -/
theorem isRegular_whole (k : Nat) (given : x.digits ≠ []) :
    Json.Numeral.IsRegular ⟨negative, x.digits ++ List.replicate k '0', some ['0'], none⟩ where
  nonempty := List.append_ne_nil_of_left_ne_nil given _
  whole := by
    intro c held
    rcases List.mem_append.mp held with held | held
    · exact digits c held
    · exact isDigit_of_mem_replicate held
  leading zero := by
    rw [List.head?_append_of_ne_nil _ given] at zero
    exact absurd zero leading
  fraction := by simp [isDigit_zero]

/-- The first digits, and others behind the point if there are any. -/
theorem isRegular_split {k : Nat} (some : 0 < k) (given : x.digits ≠ [])
    {fraction : Option (List Char)}
    (others : ∀ back ∈ fraction, back ≠ [] ∧ ∀ c ∈ back, c ∈ x.digits) (exponent : Option Int) :
    Json.Numeral.IsRegular ⟨negative, x.digits.take k, fraction, exponent⟩ where
  nonempty := by
    simp only [ne_eq, List.take_eq_nil_iff, given, or_false]
    omega
  whole c held := digits c (List.mem_of_mem_take held)
  leading zero := by
    rw [List.head?_take, if_neg (by omega)] at zero
    exact absurd zero leading
  fraction back same := ⟨(others back same).1, fun c held => digits c ((others back same).2 c held)⟩

/-- Digits are printed as the grammar wants them. -/
theorem isRegular_numeral : (x.numeral negative).IsRegular := by
  unfold numeral
  split
  next => exact ⟨by simp, by simp [isDigit_zero], by simp, by simp [isDigit_zero]⟩
  next nonempty =>
    have given : x.digits ≠ [] := by simpa using nonempty
    split
    next =>
      split
      next => exact isRegular_below negative digits _ given
      next large =>
        split
        next => exact isRegular_whole negative digits leading _ given
        next split =>
          refine isRegular_split negative digits leading (by omega) given ?_ none
          intro back same
          obtain rfl := Option.some.inj same
          refine ⟨?_, fun c => List.mem_of_mem_drop⟩
          simp only [ne_eq, List.drop_eq_nil_iff]
          omega
    next =>
      refine isRegular_split negative digits leading (by decide) given ?_ _
      split
      next => simp
      next several =>
        intro back same
        obtain rfl := Option.some.inj same
        refine ⟨?_, fun c => List.mem_of_mem_tail⟩
        have : 0 < x.digits.length := List.length_pos_iff.mpr given
        rw [← List.length_pos_iff, List.length_tail]
        omega

end Regular

theorem negative_numeral (negative : Bool) (x : Digits) :
    (x.numeral negative).negative = negative := by
  unfold numeral
  repeat' split
  all_goals rfl

/-- The text of digits as a JSON number: with a point, or with an exponent where there are too many
zeros. -/
theorem bodyChars_numeral (negative : Bool) (x : Digits) :
    (x.numeral negative).bodyChars =
      if x.digits.isEmpty then ['0', '.', '0']
      else if -5 < x.point && x.point ≤ 16 then
        if x.digits.length ≤ x.point.toNat then x.positional ++ ['.', '0'] else x.positional
      else x.scientific := by
  unfold numeral
  split
  next => rfl
  next some =>
    have given : x.digits ≠ [] := by simpa using some
    have length : 0 < x.digits.length := List.length_pos_iff.mpr given
    split
    next =>
      rw [positional, if_neg some]
      split
      next small =>
        rw [if_neg (by omega)]
        simp [Json.Numeral.bodyChars, Json.Numeral.fractionChars, Json.Numeral.exponentChars]
      next large =>
        dsimp only
        split
        next => simp [Json.Numeral.bodyChars, Json.Numeral.fractionChars,
                  Json.Numeral.exponentChars]
        next => simp [Json.Numeral.bodyChars, Json.Numeral.fractionChars,
                  Json.Numeral.exponentChars]
    next =>
      rw [scientific]
      match digits : x.digits with
      | [] => exact absurd digits given
      | [d] => simp [Json.Numeral.bodyChars, Json.Numeral.fractionChars, Json.Numeral.exponentChars]
      | d :: d' :: more =>
        simp [Json.Numeral.bodyChars, Json.Numeral.fractionChars, Json.Numeral.exponentChars]

end Digits

namespace Double

def numeral (x : Double) : Json.Numeral :=
  (x.shortest .toEven).numeral x.negative

theorem exists_shortest_digits (tie : Tie) (x : Double) :
    ∃ n, (x.shortest tie).digits = dropTrailingZeros (Nat.toDigits 10 n) := by
  unfold shortest
  split
  next => exact ⟨0, rfl⟩
  next =>
    dsimp only
    split
    next c t found => exact ⟨c, rfl⟩
    next => exact ⟨0, rfl⟩

/-- The first digit left is no zero. -/
theorem head?_dropTrailingZeros (n : Nat) :
    (dropTrailingZeros (Nat.toDigits 10 n)).head? ≠ some '0' := by
  intro zero
  obtain ⟨k, whole⟩ := exists_dropTrailingZeros (Nat.toDigits 10 n)
  obtain ⟨digits, begins⟩ := List.head?_eq_some_iff.mp zero
  have none : n = 0 := Json.eq_zero_of_head?_toDigits (by rw [whole, begins]; rfl)
  rw [none] at begins
  cases begins

theorem isRegular_numeral (x : Double) : x.numeral.IsRegular := by
  obtain ⟨n, digits⟩ := exists_shortest_digits .toEven x
  refine Digits.isRegular_numeral x.negative ?_ ?_
  · rw [digits]
    exact fun _ => isDigit_of_mem_dropTrailingZeros
  · rw [digits]
    exact head?_dropTrailingZeros n

theorem toList_jsonText {x : Double} (finite : x.isFinite = true) :
    x.jsonText.toList = x.numeral.chars := by
  have sign : x.numeral.negative = x.negative := Digits.negative_numeral x.negative _
  rw [jsonText, finite, Json.Numeral.chars, sign, numeral, Digits.bodyChars_numeral]
  simp only [Bool.not_true, Bool.false_eq_true, if_false, String.toList_ofList]
  rfl

theorem jsonText_of_not_finite {x : Double} (infinite : x.isFinite = false) :
    x.jsonText = "null" := by
  simp [jsonText, infinite]

end Double
end PredicateSql
