import Mathlib.Data.Nat.ModEq
import Mathlib.Tactic.Ring
import PredicateSql.Uuid

/-!
Hexadecimal digits are read as the number that they were written for, and so are the groups of them
that make up an identifier.
-/
namespace PredicateSql

namespace Text.Hex

theorem digitValue?_digit : ∀ n < 16, digitValue? (digit n) = some n := by
  decide

theorem number?_append (high : Nat) (a b : List Char) :
    number? high (a ++ b) = (number? high a).bind fun n => number? n b := by
  induction a generalizing high with
  | nil => rfl
  | cons c a read =>
    rw [List.cons_append, number?, number?]
    cases digitValue? c with
    | none => rfl
    | some n => exact read _

/-- The last digits of a number are read as what is left of it. -/
theorem number?_digits (width high n : Nat) :
    number? high (digits width n) = some (high * 16 ^ width + n % 16 ^ width) := by
  induction width generalizing n with
  | zero => simp [digits, number?, Nat.mod_one]
  | succ width read =>
    have last : digitValue? (digit (n % 16)) = some (n % 16) :=
      digitValue?_digit _ (Nat.mod_lt n (by decide))
    have split : n % 16 ^ (width + 1) = n % 16 + 16 * (n / 16 % 16 ^ width) := by
      rw [Nat.pow_succ, Nat.mul_comm, Nat.mod_mul]
    rw [digits, number?_append, read, Option.bind_some, number?, last, split]
    simp only [Option.bind_eq_bind, Option.bind_some, number?, Option.some.injEq]
    ring

theorem length_digits (width n : Nat) : (digits width n).length = width := by
  induction width generalizing n with
  | zero => rfl
  | succ width length => rw [digits, List.length_append, length, List.length_singleton]

end Text.Hex

namespace Uuid

theorem flatten_groups (sizes : List Nat) (cs : List Char) : (groups sizes cs).flatten = cs := by
  induction sizes generalizing cs with
  | nil => simp [groups]
  | cons n sizes whole => rw [groups, List.flatten_cons, whole, List.take_append_drop]

variable {a b c d e : List Char}

/-- The hyphens between the groups of an identifier are dropped. -/
theorem ungroup?_intercalate (first : a.length = 8) (second : b.length = 4) (third : c.length = 4)
    (fourth : d.length = 4) (last : e.length = 12) :
    ungroup? (List.intercalate ['-'] [a, b, c, d, e]) = some [a, b, c, d, e].flatten := by
  have whole : List.intercalate ['-'] [a, b, c, d, e] =
      a ++ '-' :: (b ++ '-' :: (c ++ '-' :: (d ++ '-' :: e))) := by
    simp [List.intercalate]
  rw [ungroup?, whole, if_pos]
  · simp (disch := omega) [List.drop_append, List.drop_eq_nil_of_le, first, second, third, fourth]
  · simp [first, second, third, fourth, last]

/-- An identifier that is neither in braces nor a resource name stands for itself. -/
theorem unwrap_of_length {cs : List Char} (length : cs.length = 36) : unwrap cs = cs := by
  simp [unwrap, length]

/-- The text of an identifier is read as that identifier. -/
theorem ofText?_text (u : Uuid) : ofText? u.text = some u := by
  let digits := Text.Hex.digits 32 u.bits.toNat
  have length : digits.length = 32 := Text.Hex.length_digits 32 u.bits.toNat
  have value : Text.Hex.number? 0 digits = some u.bits.toNat := by
    have small : u.bits.toNat < 16 ^ 32 := u.bits.isLt
    rw [Text.Hex.number?_digits, Nat.zero_mul, Nat.zero_add, Nat.mod_eq_of_lt small]
  obtain ⟨a, b, c, d, e, first, second, third, fourth, last, split⟩ : ∃ a b c d e : List Char,
      a.length = 8 ∧ b.length = 4 ∧ c.length = 4 ∧ d.length = 4 ∧ e.length = 12 ∧
        groups [8, 4, 4, 4] digits = [a, b, c, d, e] :=
    ⟨_, _, _, _, _, by
      simp [length], by simp [length], by simp [length], by simp [length], by simp [length], rfl⟩
  have chars : u.textChars = List.intercalate ['-'] [a, b, c, d, e] := by rw [textChars, split]
  have ungrouped : ungroup? u.textChars = some digits := by
    rw [chars, ungroup?_intercalate first second third fourth last, ← split, flatten_groups]
  have whole : u.textChars.length = 36 := by
    rw [chars]
    simp [List.intercalate, first, second, third, fourth, last]
  unfold ofText?
  rw [text, String.toList_ofList, unwrap_of_length whole, ungrouped]
  simp only [ofDigits?, length, if_true, value, Option.map_some, BitVec.ofNat_toNat,
    BitVec.setWidth_eq]

end Uuid
end PredicateSql
