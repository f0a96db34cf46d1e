import Mathlib.Data.Finite.Prod
import Mathlib.Data.Fintype.EquivFin
import PredicateSql.Cipher.Aes

/-!
Decryption of single blocks. Every step of a round has an inverse, so the rounds are undone one by
one, from the last back to the first, whatever the round keys are. Since there are finitely many
blocks, each of them is the ciphertext of what it is decrypted to.
-/
namespace PredicateSql.Aes

section Octets

/-- The inverse table, read at the entries of the table, counts up. -/
theorem inverse_at_substitution :
    substitution.toList.map (fun b => inverseSubstitution.toList.getD b.toNat 0) =
      (List.range 256).map UInt8.ofNat := by
  decide +kernel

theorem size_substitution : substitution.size = 256 := by
  decide +kernel

theorem unsubstitute_substitute (b : UInt8) : unsubstitute (substitute b) = b := by
  have low : b.toNat < substitution.size := by
    rw [size_substitution]
    exact b.toNat_lt
  have at_b := congrArg (·[b.toNat]?) inverse_at_substitution
  simp only [List.getElem?_map, Array.getElem?_toList, Array.getElem?_eq_getElem low,
    List.getElem?_range b.toNat_lt, Option.map_some, Option.some.injEq, UInt8.ofNat_toNat] at at_b
  rw [substitute, unsubstitute, Array.getD_eq_getD_getElem?, Array.getD_eq_getD_getElem?,
    Array.getElem?_eq_getElem low, Option.getD_some, ← Array.getElem?_toList,
    ← List.getD_eq_getElem?_getD, at_b]

theorem xor_left_comm (a b c : UInt8) : a ^^^ (b ^^^ c) = b ^^^ (a ^^^ c) := by
  rw [← UInt8.xor_assoc, UInt8.xor_comm a b, UInt8.xor_assoc]

theorem xor_cancel_left (a b : UInt8) : a ^^^ (a ^^^ b) = b := by
  rw [← UInt8.xor_assoc, UInt8.xor_self, UInt8.zero_xor]

theorem xor_cancel_right (a b : UInt8) : a ^^^ b ^^^ b = a := by
  rw [UInt8.xor_assoc, UInt8.xor_self, UInt8.xor_zero]

theorem lt_iff_msb (b : UInt8) : b < 0x80 ↔ b.toBitVec.msb = false := by
  rw [BitVec.msb_eq_false_iff_two_mul_lt, UInt8.lt_iff_toNat_lt]
  change b.toNat < 128 ↔ 2 * b.toNat < 256
  omega

/-- Doubling is additive. -/
theorem double_xor (a b : UInt8) : double (a ^^^ b) = double a ^^^ double b := by
  simp only [double, lt_iff_msb, UInt8.toBitVec_xor, BitVec.msb_xor, UInt8.shiftLeft_xor]
  -- The reduction of both sides is the same or cancels out.
  cases a.toBitVec.msb <;> cases b.toBitVec.msb <;>
    simp [UInt8.xor_assoc, UInt8.xor_comm, xor_left_comm]

end Octets

/-- An octet of a mixed column, from the column read from the place of this octet on. -/
def mixed (p q r s : UInt8) : UInt8 :=
  double p ^^^ (double q ^^^ q) ^^^ r ^^^ s

def unmixed (p q r s : UInt8) : UInt8 :=
  double (double (double (p ^^^ q ^^^ r ^^^ s) ^^^ p ^^^ r)) ^^^ double (p ^^^ q) ^^^ q ^^^ r ^^^ s

theorem unmixed_mixed (p q r s : UInt8) :
    unmixed (mixed p q r s) (mixed q r s p) (mixed r s p q) (mixed s p q r) = p := by
  have all : mixed p q r s ^^^ mixed q r s p ^^^ mixed r s p q ^^^ mixed s p q r =
      p ^^^ q ^^^ r ^^^ s := by
    simp only [mixed, UInt8.xor_assoc, UInt8.xor_comm, xor_left_comm, xor_cancel_left,
      UInt8.xor_self, UInt8.xor_zero]
  have opposite : double (p ^^^ q ^^^ r ^^^ s) ^^^ mixed p q r s ^^^ mixed r s p q = p ^^^ r := by
    simp only [mixed, double_xor, UInt8.xor_assoc, UInt8.xor_comm, xor_left_comm, xor_cancel_left,
      UInt8.xor_self, UInt8.xor_zero]
  have adjacent : mixed p q r s ^^^ mixed q r s p = double (p ^^^ r) ^^^ (p ^^^ q) := by
    simp only [mixed, double_xor, UInt8.xor_assoc, UInt8.xor_comm, xor_left_comm, xor_cancel_left]
  have others : mixed q r s p ^^^ mixed r s p q ^^^ mixed s p q r = double (p ^^^ q) ^^^ p := by
    simp only [mixed, double_xor, UInt8.xor_assoc, UInt8.xor_comm, xor_left_comm, xor_cancel_left,
      UInt8.xor_self, UInt8.zero_xor]
  calc unmixed (mixed p q r s) (mixed q r s p) (mixed r s p q) (mixed s p q r)
      = double (double (p ^^^ r)) ^^^ double (double (p ^^^ r) ^^^ (p ^^^ q)) ^^^
          (mixed q r s p ^^^ mixed r s p q ^^^ mixed s p q r) := by
        rw [unmixed, all, opposite, adjacent]
        simp only [UInt8.xor_assoc]
    _ = double (double (p ^^^ r)) ^^^ (double (double (p ^^^ r)) ^^^ double (p ^^^ q)) ^^^
          (double (p ^^^ q) ^^^ p) := by rw [others, double_xor (double (p ^^^ r))]
    _ = p := by rw [xor_cancel_left, xor_cancel_left]

namespace Column

theorem add_cancel (x y : Column) : (x.add y).add y = x := by
  simp only [add, xor_cancel_right]

theorem unsubstitute_substitute (c : Column) : (c.map substitute).map unsubstitute = c := by
  simp only [map, Aes.unsubstitute_substitute]

theorem unmix_mix (c : Column) : c.mix.unmix = c := by
  have mix : c.mix = ⟨mixed c.b0 c.b1 c.b2 c.b3, mixed c.b1 c.b2 c.b3 c.b0,
    mixed c.b2 c.b3 c.b0 c.b1, mixed c.b3 c.b0 c.b1 c.b2⟩ := rfl
  have unmix : ∀ p q r s, (⟨p, q, r, s⟩ : Column).unmix =
    ⟨unmixed p q r s, unmixed q r s p, unmixed r s p q, unmixed s p q r⟩ := fun _ _ _ _ => rfl
  rw [mix, unmix]
  simp only [unmixed_mixed]

end Column

namespace Block

theorem add_cancel (x y : Block) : (x.add y).add y = x := by
  simp only [add, Column.add_cancel]

theorem unsubstitute_substitute (b : Block) :
    (b.map (·.map substitute)).map (·.map unsubstitute) = b := by
  simp only [map, Column.unsubstitute_substitute]

theorem unmix_mix (b : Block) : (b.map Column.mix).map Column.unmix = b := by
  simp only [map, Column.unmix_mix]

theorem unshiftRows_shiftRows (b : Block) : b.shiftRows.unshiftRows = b := rfl

end Block

/-- A round without its key and its mixing is undone by its inverse. -/
theorem Block.unround_round (b : Block) :
    ((b.map (·.map substitute)).shiftRows.unshiftRows).map (·.map unsubstitute) = b := by
  rw [unshiftRows_shiftRows, unsubstitute_substitute]

/-- Rounds are undone from the last key back to the first. -/
theorem unrounds_rounds (keys : List Block) (b : Block) : unrounds keys (rounds keys b) = b := by
  fun_induction rounds keys b with
  | case1 b => rw [unrounds.eq_def]
  | case2 k b => rw [unrounds_singleton, Block.add_cancel, Block.unround_round]
  | case3 k keys b several ih =>
    rw [unrounds_cons k several, ih, Block.add_cancel, Block.unmix_mix, Block.unround_round]

theorem decryptBlock_encryptBlock (keys : List Block) (b : Block) :
    decryptBlock keys (encryptBlock keys b) = b := by
  cases keys with
  | nil => rfl
  | cons k keys => rw [encryptBlock, decryptBlock, unrounds_rounds, Block.add_cancel]

instance Column.finite : Finite Column := by
  refine Finite.of_injective
    (fun c : Column => (c.b0.toFin, c.b1.toFin, c.b2.toFin, c.b3.toFin)) ?_
  rintro ⟨a, b, c, d⟩ ⟨a', b', c', d'⟩ same
  simpa [UInt8.toFin_inj] using same

instance Block.finite : Finite Block := by
  refine Finite.of_injective (fun b : Block => (b.c0, b.c1, b.c2, b.c3)) ?_
  rintro ⟨a, b, c, d⟩ ⟨a', b', c', d'⟩ same
  simpa using same

/-- Encryption takes no two blocks to one, so it leaves out none of them. -/
theorem encryptBlock_decryptBlock (keys : List Block) (b : Block) :
    encryptBlock keys (decryptBlock keys b) = b := by
  have injective : Function.Injective (encryptBlock keys) :=
    Function.LeftInverse.injective (decryptBlock_encryptBlock keys)
  obtain ⟨p, rfl⟩ := Finite.surjective_of_injective injective b
  rw [decryptBlock_encryptBlock]

end PredicateSql.Aes
