import PredicateSql.Proofs.Cipher.Encodings

/-!
Each octet string has one Base64 spelling, and each text one octet string. Both readers are strict:
what they accept is exactly what is written for the result.
-/
namespace PredicateSql.Text

namespace Base64

/-- A digit is read as the number that it is written for. -/
theorem digit_of_digitValue? {c : Char} {n : Nat} (read : digitValue? c = some n) :
    n < 64 ∧ digit n = c := by
  simp only [digitValue?, Bool.and_eq_true, decide_eq_true_eq] at read
  split at read
  next upper =>
    obtain rfl := Option.some.inj read
    refine ⟨by omega, ?_⟩
    rw [digit, if_pos (by omega), Nat.add_sub_cancel' upper.1, Char.ofNat_toNat]
  split at read
  next lower =>
    obtain rfl := Option.some.inj read
    refine ⟨by omega, ?_⟩
    rw [digit, if_neg (by omega), if_pos (by omega), Nat.add_sub_cancel' (by omega),
      Char.ofNat_toNat]
  split at read
  next number =>
    obtain rfl := Option.some.inj read
    refine ⟨by omega, ?_⟩
    rw [digit, if_neg (by omega), if_neg (by omega), if_pos (by omega), Nat.add_sub_cancel,
      Char.ofNat_toNat]
  split at read
  next plus =>
    obtain rfl := Option.some.inj read
    exact ⟨by omega, plus.symm⟩
  split at read
  next slash =>
    obtain rfl := Option.some.inj read
    exact ⟨by omega, slash.symm⟩
  next => exact nomatch read

section Groups

variable {p q r s : Nat}

theorem encodeChars_padded_twice (sixes : p < 64 ∧ q < 64) (whole : q % 16 = 0) :
    encodeChars [(p * 4 + q / 16).toUInt8] = [digit p, digit q, '=', '='] := by
  have first : (p * 4 + q / 16).toUInt8.toNat = p * 4 + q / 16 := Utf8.toNat_toUInt8 (by omega)
  have high : (p * 4 + q / 16) / 4 = p := by omega
  have low : (p * 4 + q / 16) % 4 * 16 = q := by omega
  rw [encodeChars, first, high, low]

theorem encodeChars_padded_once (sixes : p < 64 ∧ q < 64 ∧ r < 64) (whole : r % 4 = 0) :
    encodeChars [(p * 4 + q / 16).toUInt8, (q % 16 * 16 + r / 4).toUInt8] =
      [digit p, digit q, digit r, '='] := by
  have first : (p * 4 + q / 16).toUInt8.toNat = p * 4 + q / 16 := Utf8.toNat_toUInt8 (by omega)
  have second : (q % 16 * 16 + r / 4).toUInt8.toNat = q % 16 * 16 + r / 4 :=
    Utf8.toNat_toUInt8 (by omega)
  have high : (p * 4 + q / 16) / 4 = p := by omega
  have middle : (p * 4 + q / 16) % 4 * 16 + (q % 16 * 16 + r / 4) / 16 = q := by omega
  have low : (q % 16 * 16 + r / 4) % 16 * 4 = r := by omega
  rw [encodeChars, first, second, high, middle, low]

theorem encodeChars_digits (sixes : p < 64 ∧ q < 64 ∧ r < 64 ∧ s < 64) (rest : List UInt8) :
    encodeChars ((p * 4 + q / 16).toUInt8 :: (q % 16 * 16 + r / 4).toUInt8 ::
      (r % 4 * 64 + s).toUInt8 :: rest) =
        digit p :: digit q :: digit r :: digit s :: encodeChars rest := by
  have first : (p * 4 + q / 16).toUInt8.toNat = p * 4 + q / 16 := Utf8.toNat_toUInt8 (by omega)
  have second : (q % 16 * 16 + r / 4).toUInt8.toNat = q % 16 * 16 + r / 4 :=
    Utf8.toNat_toUInt8 (by omega)
  have third : (r % 4 * 64 + s).toUInt8.toNat = r % 4 * 64 + s := Utf8.toNat_toUInt8 (by omega)
  have p_eq : (p * 4 + q / 16) / 4 = p := by omega
  have q_eq : (p * 4 + q / 16) % 4 * 16 + (q % 16 * 16 + r / 4) / 16 = q := by omega
  have r_eq : (q % 16 * 16 + r / 4) % 16 * 4 + (r % 4 * 64 + s) / 64 = r := by omega
  have s_eq : (r % 4 * 64 + s) % 64 = s := by omega
  rw [encodeChars, first, second, third, p_eq, q_eq, r_eq, s_eq]

end Groups

/-- What is read as octets is what is written for them. -/
theorem encodeChars_of_decodeChars {cs : List Char} {octets : List UInt8}
    (read : decodeChars cs = some octets) : encodeChars octets = cs := by
  fun_induction decodeChars cs generalizing octets with
  | case1 =>
    obtain rfl := Option.some.inj read
    rfl
  | case2 p q =>
    simp only [Option.bind_eq_bind, Option.bind_eq_some_iff, Option.ite_none_right_eq_some,
      Option.some.injEq] at read
    obtain ⟨p', pRead, q', qRead, whole, rfl⟩ := read
    obtain ⟨pLow, rfl⟩ := digit_of_digitValue? pRead
    obtain ⟨qLow, rfl⟩ := digit_of_digitValue? qRead
    exact encodeChars_padded_twice ⟨pLow, qLow⟩ whole
  | case3 p q r =>
    simp only [Option.bind_eq_bind, Option.bind_eq_some_iff, Option.ite_none_right_eq_some,
      Option.some.injEq] at read
    obtain ⟨p', pRead, q', qRead, r', rRead, whole, rfl⟩ := read
    obtain ⟨pLow, rfl⟩ := digit_of_digitValue? pRead
    obtain ⟨qLow, rfl⟩ := digit_of_digitValue? qRead
    obtain ⟨rLow, rfl⟩ := digit_of_digitValue? rRead
    exact encodeChars_padded_once ⟨pLow, qLow, rLow⟩ whole
  | case4 p q r s rest _ _ ih =>
    simp only [Option.bind_eq_bind, Option.bind_eq_some_iff, Option.some.injEq] at read
    obtain ⟨p', pRead, q', qRead, r', rRead, s', sRead, others, othersRead, rfl⟩ := read
    obtain ⟨pLow, rfl⟩ := digit_of_digitValue? pRead
    obtain ⟨qLow, rfl⟩ := digit_of_digitValue? qRead
    obtain ⟨rLow, rfl⟩ := digit_of_digitValue? rRead
    obtain ⟨sLow, rfl⟩ := digit_of_digitValue? sRead
    rw [encodeChars_digits ⟨pLow, qLow, rLow, sLow⟩, ih othersRead]
  | case5 => exact nomatch read

theorem decode_eq_some_iff {text : String} {octets : List UInt8} :
    decode text = some octets ↔ text = encode octets := by
  constructor
  · intro read
    rw [encode, encodeChars_of_decodeChars read, String.ofList_toList]
  · rintro rfl
    exact decode_encode octets

end Base64

namespace Utf8

theorem toNat_ofNat {n : Nat} (valid : n < 0xD800 ∨ 0xDFFF < n ∧ n < 0x110000) :
    (Char.ofNat n).toNat = n := by
  have isValid : n.isValidChar := valid
  rw [Char.ofNat, dif_pos isValid]
  rfl

theorem continues_bounds {b : UInt8} (continuing : continues b = true) :
    0x80 ≤ b.toNat ∧ b.toNat ≤ 0xBF := by
  simpa [continues, UInt8.le_iff_toNat_le] using continuing

section Characters

variable {a b c d : UInt8}

/-- No longer spelling than needed, and no surrogate. -/
theorem secondOfThree_bounds (second : secondOfThree a b = true) :
    (0x80 ≤ b.toNat ∧ b.toNat ≤ 0xBF) ∧ (a.toNat = 0xE0 → 0xA0 ≤ b.toNat) ∧
      (a.toNat = 0xED → b.toNat ≤ 0x9F) := by
  simp only [secondOfThree, ← UInt8.toNat_inj, UInt8.le_iff_toNat_le, UInt8.reduceToNat] at second
  split at second
  next lead => simp at second; omega
  split at second
  next lead => simp at second; omega
  next =>
    have := continues_bounds second
    omega

/-- No longer spelling than needed, and nothing beyond the last code point. -/
theorem secondOfFour_bounds (second : secondOfFour a b = true) :
    (0x80 ≤ b.toNat ∧ b.toNat ≤ 0xBF) ∧ (a.toNat = 0xF0 → 0x90 ≤ b.toNat) ∧
      (a.toNat = 0xF4 → b.toNat ≤ 0x8F) := by
  simp only [secondOfFour, ← UInt8.toNat_inj, UInt8.le_iff_toNat_le, UInt8.reduceToNat] at second
  split at second
  next lead => simp at second; omega
  split at second
  next lead => simp at second; omega
  next =>
    have := continues_bounds second
    omega

theorem encodeChar_one (lead : a.toNat < 0x80) : encodeChar (Char.ofNat a.toNat) = [a] := by
  have code : (Char.ofNat a.toNat).toNat = a.toNat := toNat_ofNat (by omega)
  simp only [encodeChar, code]
  rw [if_pos lead, Base64.toUInt8_toNat (b := a) rfl]

theorem encodeChar_two (lead : 0xC2 ≤ a.toNat ∧ a.toNat ≤ 0xDF) (second : continues b = true) :
    encodeChar (Char.ofNat (a.toNat % 32 * 64 + lowSix b)) = [a, b] := by
  have bounds := continues_bounds second
  simp only [lowSix]
  have code : (Char.ofNat (a.toNat % 32 * 64 + b.toNat % 64)).toNat =
      a.toNat % 32 * 64 + b.toNat % 64 := toNat_ofNat (by omega)
  simp only [encodeChar, code]
  rw [if_neg (by omega), if_pos (by omega), Base64.toUInt8_toNat (b := a) (by omega),
    Base64.toUInt8_toNat (b := b) (by omega)]

theorem encodeChar_three (lead : 0xE0 ≤ a.toNat ∧ a.toNat ≤ 0xEF)
    (second : secondOfThree a b = true) (third : continues c = true) :
    encodeChar (Char.ofNat (a.toNat % 16 * 4096 + lowSix b * 64 + lowSix c)) = [a, b, c] := by
  obtain ⟨bounds, shortest, scalar⟩ := secondOfThree_bounds second
  have last := continues_bounds third
  simp only [lowSix]
  have code : (Char.ofNat (a.toNat % 16 * 4096 + b.toNat % 64 * 64 + c.toNat % 64)).toNat =
      a.toNat % 16 * 4096 + b.toNat % 64 * 64 + c.toNat % 64 := toNat_ofNat (by omega)
  simp only [encodeChar, code]
  rw [if_neg (by omega), if_neg (by omega), if_pos (by omega),
    Base64.toUInt8_toNat (b := a) (by omega), Base64.toUInt8_toNat (b := b) (by omega),
    Base64.toUInt8_toNat (b := c) (by omega)]

theorem encodeChar_four (lead : 0xF0 ≤ a.toNat ∧ a.toNat ≤ 0xF4)
    (second : secondOfFour a b = true) (third : continues c = true) (fourth : continues d = true) :
    encodeChar (Char.ofNat
      (a.toNat % 8 * 262144 + lowSix b * 4096 + lowSix c * 64 + lowSix d)) = [a, b, c, d] := by
  obtain ⟨bounds, shortest, scalar⟩ := secondOfFour_bounds second
  have middle := continues_bounds third
  have last := continues_bounds fourth
  simp only [lowSix]
  have code : (Char.ofNat (a.toNat % 8 * 262144 + b.toNat % 64 * 4096 + c.toNat % 64 * 64 +
      d.toNat % 64)).toNat = a.toNat % 8 * 262144 + b.toNat % 64 * 4096 + c.toNat % 64 * 64 +
      d.toNat % 64 := toNat_ofNat (by omega)
  simp only [encodeChar, code]
  rw [if_neg (by omega), if_neg (by omega), if_neg (by omega),
    Base64.toUInt8_toNat (b := a) (by omega), Base64.toUInt8_toNat (b := b) (by omega),
    Base64.toUInt8_toNat (b := c) (by omega), Base64.toUInt8_toNat (b := d) (by omega)]

end Characters

theorem map_cons_eq_ok {c : Char} {outcome : Except Fault (List Char)} {chars : List Char} :
    outcome.map (c :: ·) = .ok chars ↔ ∃ rest, outcome = .ok rest ∧ c :: rest = chars := by
  cases outcome <;> simp [Except.map]

/-- What is read as characters is what is written for them. -/
theorem flatMap_of_decodeFrom {index : Nat} {octets : List UInt8} {chars : List Char}
    (read : decodeFrom index octets = .ok chars) : chars.flatMap encodeChar = octets := by
  -- Of the cases of the reader, those that fail are left to the last line.
  fun_induction decodeFrom index octets generalizing chars with
  | case1 =>
    obtain rfl := Except.ok.inj read
    rfl
  | case2 index a rest lead ih =>
    obtain ⟨others, othersRead, rfl⟩ := map_cons_eq_ok.mp read
    rw [List.flatMap_cons, ih othersRead, encodeChar_one (UInt8.lt_iff_toNat_lt.mp lead)]
    rfl
  | case5 index a _ lead b rest second ih =>
    obtain ⟨others, othersRead, rfl⟩ := map_cons_eq_ok.mp read
    simp only [Bool.and_eq_true, decide_eq_true_eq, UInt8.le_iff_toNat_le] at lead
    rw [List.flatMap_cons, ih othersRead, encodeChar_two lead (by simpa using second)]
    rfl
  | case11 index a _ _ lead b c rest second third ih =>
    obtain ⟨others, othersRead, rfl⟩ := map_cons_eq_ok.mp read
    simp only [Bool.and_eq_true, decide_eq_true_eq, UInt8.le_iff_toNat_le] at lead
    rw [List.flatMap_cons, ih othersRead,
      encodeChar_three lead (by simpa using second) (by simpa using third)]
    rfl
  | case21 index a _ _ _ lead b c d rest second third fourth ih =>
    obtain ⟨others, othersRead, rfl⟩ := map_cons_eq_ok.mp read
    simp only [Bool.and_eq_true, decide_eq_true_eq, UInt8.le_iff_toNat_le] at lead
    rw [List.flatMap_cons, ih othersRead, encodeChar_four lead (by simpa using second)
      (by simpa using third) (by simpa using fourth)]
    rfl
  | _ => exact nomatch read

theorem decode_eq_ok_iff {octets : List UInt8} {text : String} :
    decode octets = .ok text ↔ octets = encode text := by
  constructor
  · intro read
    rw [decode] at read
    cases outcome : decodeFrom 0 octets with
    | error fault => simp [outcome, Except.map] at read
    | ok chars =>
      rw [outcome] at read
      obtain rfl := Except.ok.inj read
      rw [encode, String.toList_ofList, flatMap_of_decodeFrom outcome]
  · rintro rfl
    exact decode_encode text

end Utf8
end PredicateSql.Text
