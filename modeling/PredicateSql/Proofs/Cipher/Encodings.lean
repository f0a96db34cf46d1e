import PredicateSql.Text.Base64
import PredicateSql.Text.Utf8

/-!
Stored texts lose nothing: the octets of a text are read as this text, and the digits of octets as
these octets.
-/
namespace PredicateSql.Text

namespace Base64

theorem digitValue?_digit : ∀ n < 64, digitValue? (digit n) = some n := by
  decide

/-- Padding is no digit. -/
theorem digit_ne_padding {n : Nat} (low : n < 64) : digit n ≠ '=' := by
  intro same
  have read := digitValue?_digit n low
  rw [same] at read
  have none_read : digitValue? '=' = none := by decide
  simp [none_read] at read

theorem toUInt8_toNat {n : Nat} {b : UInt8} (same : n = b.toNat) : n.toUInt8 = b := by
  rw [same]
  exact UInt8.ofNat_toNat

/-- Four digits give three octets, wherever they stand. -/
theorem decodeChars_digits {p q r s : Nat} (sixes : p < 64 ∧ q < 64 ∧ r < 64 ∧ s < 64)
    (rest : List Char) :
    decodeChars (digit p :: digit q :: digit r :: digit s :: rest) =
      (decodeChars rest).map fun octets => (p * 4 + q / 16).toUInt8 ::
        (q % 16 * 16 + r / 4).toUInt8 :: (r % 4 * 64 + s).toUInt8 :: octets := by
  obtain ⟨hp, hq, hr, hs⟩ := sixes
  rw [decodeChars.eq_4 _ _ _ _ _ (fun _ padded _ => digit_ne_padding hs padded)
    (fun padded _ => digit_ne_padding hs padded)]
  simp only [digitValue?_digit, hp, hq, hr, hs]
  cases decodeChars rest <;> rfl

/-- Two digits give one octet where the group is padded twice. -/
theorem decodeChars_padded_twice {p q : Nat} (sixes : p < 64 ∧ q < 64) (whole : q % 16 = 0) :
    decodeChars [digit p, digit q, '=', '='] = some [(p * 4 + q / 16).toUInt8] := by
  rw [decodeChars.eq_2]
  simp [digitValue?_digit, sixes, whole]

/-- Three digits give two octets where the group is padded once. -/
theorem decodeChars_padded_once {p q r : Nat} (sixes : p < 64 ∧ q < 64 ∧ r < 64)
    (whole : r % 4 = 0) :
    decodeChars [digit p, digit q, digit r, '='] =
      some [(p * 4 + q / 16).toUInt8, (q % 16 * 16 + r / 4).toUInt8] := by
  rw [decodeChars.eq_3 _ _ _ (fun padded => digit_ne_padding sixes.2.2 padded)]
  simp [digitValue?_digit, sixes, whole]

theorem decodeChars_encodeChars (octets : List UInt8) :
    decodeChars (encodeChars octets) = some octets := by
  fun_induction encodeChars octets with
  | case1 => rfl
  | case2 a =>
    have := a.toNat_lt
    rw [decodeChars_padded_twice (by omega) (by omega), toUInt8_toNat (b := a) (by omega)]
  | case3 a b =>
    have := a.toNat_lt
    have := b.toNat_lt
    rw [decodeChars_padded_once (by omega) (by omega), toUInt8_toNat (b := a) (by omega),
      toUInt8_toNat (b := b) (by omega)]
  | case4 a b c rest ih =>
    have := a.toNat_lt
    have := b.toNat_lt
    have := c.toNat_lt
    rw [decodeChars_digits (by omega), ih, Option.map_some, toUInt8_toNat (b := a) (by omega),
      toUInt8_toNat (b := b) (by omega), toUInt8_toNat (b := c) (by omega)]

theorem decode_encode (octets : List UInt8) : decode (encode octets) = some octets := by
  rw [decode, encode, String.toList_ofList, decodeChars_encodeChars]

end Base64

namespace Utf8

theorem toNat_toUInt8 {n : Nat} (low : n < 256) : n.toUInt8.toNat = n := by
  rw [Nat.toUInt8_eq, UInt8.toNat_ofNat', Nat.mod_eq_of_lt low]

section Characters

variable (index : Nat) {a b c d : Nat} (rest : List UInt8)

theorem decodeFrom_one (lead : a < 0x80) :
    decodeFrom index (a.toUInt8 :: rest) =
      (decodeFrom (index + 1) rest).map (Char.ofNat a :: ·) := by
  have first : a.toUInt8.toNat = a := toNat_toUInt8 (by omega)
  have low : a.toUInt8 < 0x80 := by
    rw [UInt8.lt_iff_toNat_lt, first]
    exact lead
  rw [decodeFrom.eq_def]
  simp only [if_pos low, first]

theorem decodeFrom_two (lead : 0xC2 ≤ a ∧ a ≤ 0xDF) (second : 0x80 ≤ b ∧ b ≤ 0xBF) :
    decodeFrom index (a.toUInt8 :: b.toUInt8 :: rest) =
      (decodeFrom (index + 2) rest).map (Char.ofNat (a % 32 * 64 + b % 64) :: ·) := by
  have first : a.toUInt8.toNat = a := toNat_toUInt8 (by omega)
  have last : b.toUInt8.toNat = b := toNat_toUInt8 (by omega)
  rw [decodeFrom.eq_def]
  simp [UInt8.lt_iff_toNat_lt, UInt8.le_iff_toNat_le, continues, lowSix, first, last, lead, second,
    show ¬ a < 128 by omega]

theorem decodeFrom_three (lead : 0xE0 ≤ a ∧ a ≤ 0xEF) (second : 0x80 ≤ b ∧ b ≤ 0xBF)
    (shortest : a = 0xE0 → 0xA0 ≤ b) (scalar : a = 0xED → b ≤ 0x9F)
    (third : 0x80 ≤ c ∧ c ≤ 0xBF) :
    decodeFrom index (a.toUInt8 :: b.toUInt8 :: c.toUInt8 :: rest) =
      (decodeFrom (index + 3) rest).map
        (Char.ofNat (a % 16 * 4096 + b % 64 * 64 + c % 64) :: ·) := by
  have first : a.toUInt8.toNat = a := toNat_toUInt8 (by omega)
  have middle : b.toUInt8.toNat = b := toNat_toUInt8 (by omega)
  have last : c.toUInt8.toNat = c := toNat_toUInt8 (by omega)
  have allowed : secondOfThree a.toUInt8 b.toUInt8 = true := by
    simp only [secondOfThree, continues, ← UInt8.toNat_inj, UInt8.le_iff_toNat_le, first, middle]
    split
    · simpa using ⟨shortest ‹_›, second.2⟩
    · split
      · simpa using ⟨second.1, scalar ‹_›⟩
      · simpa using second
  rw [decodeFrom.eq_def]
  simp [UInt8.lt_iff_toNat_lt, UInt8.le_iff_toNat_le, continues, lowSix, first, middle, last,
    lead, allowed, third, show ¬ a < 128 by omega, show ¬ a ≤ 223 by omega]

theorem decodeFrom_four (lead : 0xF0 ≤ a ∧ a ≤ 0xF4) (second : 0x80 ≤ b ∧ b ≤ 0xBF)
    (shortest : a = 0xF0 → 0x90 ≤ b) (scalar : a = 0xF4 → b ≤ 0x8F)
    (third : 0x80 ≤ c ∧ c ≤ 0xBF) (fourth : 0x80 ≤ d ∧ d ≤ 0xBF) :
    decodeFrom index (a.toUInt8 :: b.toUInt8 :: c.toUInt8 :: d.toUInt8 :: rest) =
      (decodeFrom (index + 4) rest).map
        (Char.ofNat (a % 8 * 262144 + b % 64 * 4096 + c % 64 * 64 + d % 64) :: ·) := by
  have first : a.toUInt8.toNat = a := toNat_toUInt8 (by omega)
  have next : b.toUInt8.toNat = b := toNat_toUInt8 (by omega)
  have after : c.toUInt8.toNat = c := toNat_toUInt8 (by omega)
  have last : d.toUInt8.toNat = d := toNat_toUInt8 (by omega)
  have allowed : secondOfFour a.toUInt8 b.toUInt8 = true := by
    simp only [secondOfFour, continues, ← UInt8.toNat_inj, UInt8.le_iff_toNat_le, first, next]
    split
    · simpa using ⟨shortest ‹_›, second.2⟩
    · split
      · simpa using ⟨second.1, scalar ‹_›⟩
      · simpa using second
  rw [decodeFrom.eq_def]
  simp [UInt8.lt_iff_toNat_lt, UInt8.le_iff_toNat_le, continues, lowSix, first, next, after, last,
    lead, allowed, third, fourth, show ¬ a < 128 by omega, show ¬ a ≤ 223 by omega,
    show ¬ a ≤ 239 by omega]

end Characters

/-- The octets of a character are read as this character, wherever they stand. -/
theorem decodeFrom_encodeChar (index : Nat) (c : Char) (rest : List UInt8) :
    decodeFrom index (encodeChar c ++ rest) =
      (decodeFrom (index + (encodeChar c).length) rest).map (c :: ·) := by
  have valid : c.toNat < 0xD800 ∨ 0xDFFF < c.toNat ∧ c.toNat < 0x110000 := c.valid
  have same (n : Nat) (code : n = c.toNat) : Char.ofNat n = c := by
    rw [code, Char.ofNat_toNat]
  unfold encodeChar
  simp only
  split
  · rw [List.singleton_append, decodeFrom_one _ _ (by omega), same _ rfl]
    rfl
  · split
    · simp only [List.cons_append, List.nil_append]
      rw [decodeFrom_two _ _ (by omega) (by omega), same _ (by omega)]
      rfl
    · split
      · simp only [List.cons_append, List.nil_append]
        rw [decodeFrom_three _ _ (by omega) (by omega) (by omega) (by omega) (by omega),
          same _ (by omega)]
        rfl
      · simp only [List.cons_append, List.nil_append]
        rw [decodeFrom_four _ _ (by omega) (by omega) (by omega) (by omega) (by omega) (by omega),
          same _ (by omega)]
        rfl

theorem decodeFrom_flatMap (index : Nat) (chars : List Char) :
    decodeFrom index (chars.flatMap encodeChar) = .ok chars := by
  induction chars generalizing index with
  | nil => rw [List.flatMap_nil, decodeFrom_nil]
  | cons c rest ih =>
    rw [List.flatMap_cons, decodeFrom_encodeChar, ih]
    rfl

theorem decode_encode (text : String) : decode (encode text) = .ok text := by
  rw [decode, encode, decodeFrom_flatMap]
  exact congrArg Except.ok (String.ofList_toList)

end Utf8

end PredicateSql.Text
