import PredicateSql.Cipher.Cbc
import PredicateSql.Proofs.Cipher.Blocks

/-!
Decryption of chained blocks. Padded octets fill whole blocks, the blocks come back one by one, and
the padding says how much of the last one to take off. Whole blocks are decrypted to octets exactly
when they are the ciphertext of these octets.
-/
namespace PredicateSql

namespace Aes

theorem Column.ofOctets_append (c : Column) (rest : List UInt8) :
    ofOctets (c.octets ++ rest) = c :: ofOctets rest := rfl

theorem Block.ofOctets_append (b : Block) (rest : List UInt8) :
    ofOctets (b.octets ++ rest) = b :: ofOctets rest := by
  simp only [ofOctets, octets, List.append_assoc, Column.ofOctets_append, ofColumns]

/-- The octets of blocks are read as these blocks. -/
theorem Block.ofOctets_flatMap (blocks : List Block) :
    ofOctets (blocks.flatMap octets) = blocks := by
  induction blocks with
  | nil => rfl
  | cons b rest ih => rw [List.flatMap_cons, ofOctets_append, ih]

theorem Column.flatMap_ofOctets (octets : List UInt8) (whole : octets.length % 4 = 0) :
    (ofOctets octets).flatMap Column.octets = octets ∧
      (ofOctets octets).length = octets.length / 4 := by
  fun_induction ofOctets octets with
  | case1 a b c d rest ih =>
    simp only [List.length_cons] at whole
    obtain ⟨same, count⟩ := ih (by omega)
    refine ⟨?_, ?_⟩
    · rw [List.flatMap_cons, same]
      rfl
    · simp only [List.length_cons, count]
      omega
  | case2 octets short =>
    -- Fewer than four octets fill no column.
    rcases octets with _ | ⟨a, _ | ⟨b, _ | ⟨c, _ | ⟨d, rest⟩⟩⟩⟩
    · exact ⟨rfl, rfl⟩
    · simp at whole
    · simp at whole
    · simp at whole
    · exact (short a b c d rest rfl).elim

theorem Block.flatMap_ofColumns {columns : List Column} (whole : columns.length % 4 = 0) :
    (ofColumns columns).flatMap octets = columns.flatMap Column.octets := by
  fun_induction ofColumns columns with
  | case1 a b c d rest ih =>
    simp only [List.length_cons] at whole
    simp only [List.flatMap_cons, ih (by omega), octets, List.append_assoc]
  | case2 columns short =>
    rcases columns with _ | ⟨a, _ | ⟨b, _ | ⟨c, _ | ⟨d, rest⟩⟩⟩⟩
    · rfl
    · simp at whole
    · simp at whole
    · simp at whole
    · exact (short a b c d rest rfl).elim

/-- Octets that fill whole blocks are those of the blocks. -/
theorem Block.flatMap_ofOctets (octets : List UInt8) (whole : octets.length % 16 = 0) :
    (ofOctets octets).flatMap Block.octets = octets := by
  obtain ⟨same, count⟩ := Column.flatMap_ofOctets octets (by omega)
  rw [ofOctets, flatMap_ofColumns (by omega), same]

theorem Block.length_octets (b : Block) : b.octets.length = 16 := rfl

/-- The octets of the first blocks are the first octets. -/
theorem Block.take_flatMap_octets (blocks : List Block) (count : Nat) :
    (blocks.flatMap octets).take (16 * count) = (blocks.take count).flatMap octets := by
  induction count generalizing blocks with
  | zero => rfl
  | succ count ih =>
    cases blocks with
    | nil => simp
    | cons b rest =>
      have past : 16 * (count + 1) = b.octets.length + 16 * count := by
        rw [length_octets]
        omega
      rw [List.flatMap_cons, List.take_succ_cons, List.flatMap_cons, past,
        List.take_length_add_append, ih]

theorem Block.length_flatMap_octets (blocks : List Block) :
    (blocks.flatMap octets).length = 16 * blocks.length := by
  induction blocks with
  | nil => rfl
  | cons b rest ih =>
    rw [List.flatMap_cons, List.length_append, ih, length_octets, List.length_cons]
    omega

end Aes

namespace Cbc

open Aes

/-- Blocks come back for the same keys and the same start. -/
theorem decryptBlocks_encryptBlocks (keys : List Block) (before : Block) (blocks : List Block) :
    decryptBlocks keys before (encryptBlocks keys before blocks) = blocks := by
  induction blocks generalizing before with
  | nil => rfl
  | cons b rest ih =>
    rw [encryptBlocks, decryptBlocks, ih, decryptBlock_encryptBlock, Block.add_cancel]

/-- Any blocks are the ciphertext of what they are decrypted to. -/
theorem encryptBlocks_decryptBlocks (keys : List Block) (before : Block) (blocks : List Block) :
    encryptBlocks keys before (decryptBlocks keys before blocks) = blocks := by
  induction blocks generalizing before with
  | nil => rfl
  | cons c rest ih =>
    simp only [decryptBlocks, encryptBlocks, Block.add_cancel, encryptBlock_decryptBlock, ih]

/-- A block is decrypted without a look at those after it. -/
theorem decryptBlocks_take (keys : List Block) (before : Block) (blocks : List Block)
    (count : Nat) :
    decryptBlocks keys before (blocks.take count) =
      (decryptBlocks keys before blocks).take count := by
  induction count generalizing before blocks with
  | zero => rfl
  | succ count ih =>
    cases blocks with
    | nil => rfl
    | cons c rest => rw [List.take_succ_cons, decryptBlocks, decryptBlocks, ih, List.take_succ_cons]

theorem length_encryptBlocks (keys : List Block) (before : Block) (blocks : List Block) :
    (encryptBlocks keys before blocks).length = blocks.length := by
  induction blocks generalizing before with
  | nil => rfl
  | cons b rest ih => rw [encryptBlocks, List.length_cons, ih, List.length_cons]

theorem length_decryptBlocks (keys : List Block) (before : Block) (blocks : List Block) :
    (decryptBlocks keys before blocks).length = blocks.length := by
  induction blocks generalizing before with
  | nil => rfl
  | cons c rest ih => rw [decryptBlocks, List.length_cons, ih, List.length_cons]

variable (octets : List UInt8)

theorem padLength_bounds : 1 ≤ padLength octets ∧ padLength octets ≤ 16 := by
  unfold padLength blockLength
  omega

theorem length_pad : (pad octets).length = octets.length + padLength octets := by
  rw [pad, List.length_append, List.length_replicate]

/-- Padded octets fill at least one block, and no block is left unfilled. -/
theorem length_pad_blocks : 16 ≤ (pad octets).length ∧ (pad octets).length % 16 = 0 := by
  rw [length_pad]
  unfold padLength blockLength
  omega

/-- What is in front of the last block of padded octets has no padding in it. -/
theorem take_pad {count : Nat} (short : 16 * count < (pad octets).length) :
    (pad octets).take (16 * count) = octets.take (16 * count) := by
  have before : 16 * count ≤ octets.length := by
    rw [length_pad] at short
    unfold padLength blockLength at short
    omega
  rw [pad, List.take_append_of_le_length before]

/-- Octets that end as padded ones do, and what is before the padding: at most a block of octets,
all of the value that says how many they are. -/
def IsPadded (octets kept : List UInt8) : Prop :=
  ∃ count : Nat, 1 ≤ count ∧ count ≤ 16 ∧ octets = kept ++ List.replicate count count.toUInt8

theorem toNat_toUInt8 {count : Nat} (most : count ≤ 16) : count.toUInt8.toNat = count := by
  simp only [Nat.toUInt8_eq, UInt8.toNat_ofNat']
  omega

variable {octets} in
theorem isPadded_of_unpad? {kept : List UInt8} (taken : unpad? octets = some kept) :
    IsPadded octets kept := by
  unfold unpad? at taken
  split at taken
  · exact nomatch taken
  · rename_i n last
    simp only [Option.ite_none_right_eq_some, Bool.and_eq_true, decide_eq_true_eq,
      List.all_eq_true, Option.some.injEq] at taken
    obtain ⟨⟨⟨⟨least, most⟩, fits⟩, same⟩, rfl⟩ := taken
    have padding : octets.drop (octets.length - n.toNat) = List.replicate n.toNat n := by
      refine List.eq_replicate_iff.2 ⟨?_, same⟩
      rw [List.length_drop]
      omega
    refine ⟨n.toNat, least, most, ?_⟩
    rw [Nat.toUInt8_eq, UInt8.ofNat_toNat, ← padding, List.take_append_drop]

theorem unpad?_append {count : Nat} (least : 1 ≤ count) (most : count ≤ 16) :
    unpad? (octets ++ List.replicate count count.toUInt8) = some octets := by
  have last : (octets ++ List.replicate count count.toUInt8).getLast? = some count.toUInt8 := by
    rw [List.getLast?_append, List.getLast?_replicate, if_neg (by omega)]
    rfl
  have kept : (octets ++ List.replicate count count.toUInt8).length - count = octets.length := by
    rw [List.length_append, List.length_replicate]
    omega
  simp only [unpad?, last, toNat_toUInt8 most, kept, List.take_left, List.drop_left, blockLength]
  simp [least, most]

variable {octets} in
/-- A padding is taken off exactly where there is one. -/
theorem unpad?_eq_some_iff {kept : List UInt8} :
    unpad? octets = some kept ↔ IsPadded octets kept := by
  constructor
  · exact isPadded_of_unpad?
  · rintro ⟨count, least, most, rfl⟩
    exact unpad?_append kept least most

variable {octets} in
/-- Whole blocks that end in a padding are what is padded so. -/
theorem IsPadded.eq_pad {kept : List UInt8} (padded : IsPadded octets kept)
    (whole : octets.length % 16 = 0) : octets = pad kept := by
  obtain ⟨count, least, most, rfl⟩ := padded
  rw [List.length_append, List.length_replicate] at whole
  have missing : count = padLength kept := by
    unfold padLength blockLength
    omega
  rw [pad, ← missing]

theorem unpad?_pad : unpad? (pad octets) = some octets :=
  unpad?_append octets (padLength_bounds octets).1 (padLength_bounds octets).2

theorem length_encrypt (keys : List Block) (start : Block) :
    (encrypt keys start octets).length = (pad octets).length := by
  have filled := congrArg List.length
    (Block.flatMap_ofOctets (pad octets) (length_pad_blocks octets).2)
  rw [Block.length_flatMap_octets] at filled
  rw [encrypt, Block.length_flatMap_octets, length_encryptBlocks, filled]

/-- Whatever was encrypted is decrypted again under the same keys from the same start. -/
theorem decrypt?_encrypt (keys : List Block) (start : Block) :
    decrypt? keys start (encrypt keys start octets) = some octets := by
  rw [decrypt?, encrypt, Block.ofOctets_flatMap, decryptBlocks_encryptBlocks,
    Block.flatMap_ofOctets _ (length_pad_blocks octets).2, unpad?_pad]

variable {octets} in
/-- Whole blocks are decrypted exactly where they were encrypted. -/
theorem decrypt?_eq_some_iff {keys : List Block} {start : Block} {plain : List UInt8}
    (whole : octets.length % 16 = 0) :
    decrypt? keys start octets = some plain ↔ octets = encrypt keys start plain := by
  constructor
  · intro read
    have filled := congrArg List.length (Block.flatMap_ofOctets octets whole)
    rw [Block.length_flatMap_octets] at filled
    have decrypted : ((decryptBlocks keys start (Block.ofOctets octets)).flatMap
        Block.octets).length % 16 = 0 := by
      rw [Block.length_flatMap_octets, length_decryptBlocks]
      omega
    have padded := (unpad?_eq_some_iff.1 read).eq_pad decrypted
    rw [encrypt, ← padded, Block.ofOctets_flatMap, encryptBlocks_decryptBlocks,
      Block.flatMap_ofOctets octets whole]
  · rintro rfl
    exact decrypt?_encrypt plain keys start

/-- Of a ciphertext that is cut off after a whole block, the octets of the blocks before the cut
come back. -/
theorem decrypt?_take_encrypt (keys : List Block) (start : Block) (count : Nat) :
    decrypt? keys start ((encrypt keys start octets).take (16 * count)) =
      unpad? ((pad octets).take (16 * count)) := by
  have front : ((Block.ofOctets (pad octets)).take count).flatMap Block.octets =
      (pad octets).take (16 * count) := by
    rw [← Block.take_flatMap_octets, Block.flatMap_ofOctets _ (length_pad_blocks octets).2]
  rw [decrypt?, encrypt, Block.take_flatMap_octets, Block.ofOctets_flatMap, decryptBlocks_take,
    decryptBlocks_encryptBlocks, front]

variable {octets} in
/-- What is decrypted of whole blocks falls short of them by a padding. -/
theorem length_of_decrypt? {keys : List Block} {start : Block} {kept : List UInt8}
    (whole : octets.length % 16 = 0) (read : decrypt? keys start octets = some kept) :
    kept.length < octets.length := by
  obtain ⟨count, least, -, padded⟩ := unpad?_eq_some_iff.1 read
  have decrypted := congrArg List.length padded
  have filled := congrArg List.length (Block.flatMap_ofOctets octets whole)
  rw [Block.length_flatMap_octets, length_decryptBlocks, List.length_append,
    List.length_replicate] at decrypted
  rw [Block.length_flatMap_octets] at filled
  omega

end Cbc
end PredicateSql
