import PredicateSql.Proofs.Cipher.RoundTrip

/-!
Stored values that lost their end. The length of a ciphertext is not stored, so a cut is found out
by what is left: too little for a block, a part of a block, or blocks that do not end in a padding.
A cut between blocks that keeps octets with a padding of their own is not found out.
-/
namespace PredicateSql.FieldCipher

section Cut

variable (cipher : FieldCipher) {plain : List UInt8} {length : Nat}

theorem length_take_encrypt (cut : length < (cipher.encrypt plain).length) :
    ((cipher.encrypt plain).take length).length = length := by
  rw [List.length_take]
  omega

/-- A cut behind the salt leaves the salt. -/
theorem hasSalt_take_encrypt (something : plain ≠ []) (salted : cipher.keySize.bytes ≤ length) :
    cipher.hasSalt ((cipher.encrypt plain).take length) = true := by
  have front : (cipher.encrypt plain).take length = cipher.keySize.salt ++
      (cipher.keySize.header ++ cipher.body plain).take (length - cipher.keySize.bytes) := by
    rw [encrypt_of_ne_nil cipher something, List.append_assoc, List.take_append,
      List.take_of_length_le (by rw [KeySize.length_salt]; exact salted), KeySize.length_salt]
  rw [front, hasSalt_salt_append]

/-- Whole blocks of a ciphertext are read as the octets encrypted in them, less a padding at their
end. -/
theorem decrypt?_take_body {count : Nat} (cut : 16 * count < (cipher.body plain).length) :
    Cbc.decrypt? (Aes.roundKeys cipher.key) cipher.startBlock
        ((cipher.body plain).take (16 * count)) = Cbc.unpad? (plain.take (16 * count)) := by
  rw [body, Cbc.length_encrypt] at cut
  rw [body, Cbc.decrypt?_take_encrypt, Cbc.take_pad plain cut]

/-- What becomes of a stored value that was cut off behind its salt. -/
theorem decrypt_take_encrypt (something : plain ≠ []) (salted : cipher.keySize.bytes ≤ length)
    (cut : length < (cipher.encrypt plain).length) :
    cipher.decrypt ((cipher.encrypt plain).take length) =
      if length < cipher.prefaceLength + 16 then
        .error (.cipher (.truncated length (cipher.prefaceLength + 16)))
      else if (length - cipher.prefaceLength) % 16 ≠ 0 then
        .error (.cipher (.unaligned (length - cipher.prefaceLength)))
      else
        match Cbc.unpad? (plain.take (length - cipher.prefaceLength)) with
        | some kept => .ok kept
        | none => .error (.cipher .padding) := by
  have rest : ((cipher.encrypt plain).take length).drop cipher.prefaceLength =
      (cipher.body plain).take (length - cipher.prefaceLength) := by
    rw [List.drop_take, drop_encrypt cipher something]
  have short : length - cipher.prefaceLength < (cipher.body plain).length := by
    have := (cipher.length_body plain).1
    rw [length_encrypt cipher something] at cut
    omega
  have left : ((cipher.body plain).take (length - cipher.prefaceLength)).length =
      length - cipher.prefaceLength := by
    rw [List.length_take]
    omega
  have read := decrypt_of_hasSalt cipher (hasSalt_take_encrypt cipher something salted)
  rw [length_take_encrypt cipher cut, rest, left] at read
  by_cases whole : (length - cipher.prefaceLength) % 16 = 0
  · obtain ⟨count, blocks⟩ := Nat.dvd_of_mod_eq_zero whole
    rw [blocks] at short read ⊢
    rw [decrypt?_take_body cipher short] at read
    exact read
  · rw [if_pos whole] at read ⊢
    exact read

/-- The cuts that are not found out, and what is read after them. -/
theorem decrypt_take_encrypt_ok (something : plain ≠ []) (salted : cipher.keySize.bytes ≤ length)
    (cut : length < (cipher.encrypt plain).length) (kept : List UInt8) :
    cipher.decrypt ((cipher.encrypt plain).take length) = .ok kept ↔
      ∃ blocks, 1 ≤ blocks ∧ length = cipher.prefaceLength + 16 * blocks ∧
        Cbc.IsPadded (plain.take (16 * blocks)) kept := by
  rw [decrypt_take_encrypt cipher something salted cut]
  constructor
  · intro read
    split at read
    · exact nomatch read
    split at read
    · exact nomatch read
    rename_i long whole
    obtain ⟨blocks, count⟩ := Nat.dvd_of_mod_eq_zero (Decidable.of_not_not whole)
    split at read
    · rename_i octets taken
      obtain rfl := Except.ok.inj read
      rw [count] at taken
      exact ⟨blocks, by omega, by omega, Cbc.unpad?_eq_some_iff.1 taken⟩
    · exact nomatch read
  · rintro ⟨blocks, several, rfl, padded⟩
    rw [if_neg (by omega), if_neg (by omega), Nat.add_sub_cancel_left,
      Cbc.unpad?_eq_some_iff.2 padded]

/-- Every other cut is an error of the cipher. -/
theorem decrypt_take_encrypt_error (something : plain ≠ [])
    (salted : cipher.keySize.bytes ≤ length) (cut : length < (cipher.encrypt plain).length)
    {fault : Error} (refused : cipher.decrypt ((cipher.encrypt plain).take length) = .error fault) :
    ∃ cause, fault = .cipher cause := by
  rw [decrypt_take_encrypt cipher something salted cut] at refused
  split at refused
  · exact ⟨_, (Except.error.inj refused).symm⟩
  split at refused
  · exact ⟨_, (Except.error.inj refused).symm⟩
  split at refused
  · exact nomatch refused
  · exact ⟨_, (Except.error.inj refused).symm⟩

end Cut

end FieldCipher

/-- What is left of a stored value behind its salt is read as a value exactly when it ends with a
block of the ciphertext and the octets encrypted up to there end as padded octets do; the value read
is what is before this padding. Every other cut is an error of the cipher. -/
theorem cuts_are_read_as_padded (passphrase : String) (size : KeySize)
    (given : Text.allBlank passphrase = false) :
    ∃ cipher, FieldCipher.ofPassphrase passphrase size = .ok cipher ∧
      ∀ (plain : List UInt8) (length : Nat), plain ≠ [] → size.bytes ≤ length →
        length < (cipher.encrypt plain).length →
        (∀ kept, cipher.decrypt ((cipher.encrypt plain).take length) = .ok kept ↔
          ∃ blocks, 1 ≤ blocks ∧ length = 2 * size.bytes + 16 * blocks ∧
            Cbc.IsPadded (plain.take (16 * blocks)) kept) ∧
        ∀ fault, cipher.decrypt ((cipher.encrypt plain).take length) = .error fault →
          ∃ cause, fault = .cipher cause := by
  obtain ⟨cipher, derived, rfl⟩ := FieldCipher.exists_ofPassphrase given size
  refine ⟨cipher, derived, ?_⟩
  intro plain length something salted cut
  exact ⟨cipher.decrypt_take_encrypt_ok something salted cut,
    fun _ => cipher.decrypt_take_encrypt_error something salted cut⟩

def filledBlock : List UInt8 :=
  Text.Utf8.encode "the first block" ++ [1]

theorem filledBlock_ne_nil : filledBlock ≠ [] := by
  decide

theorem isPadded_filledBlock : Cbc.IsPadded filledBlock (Text.Utf8.encode "the first block") :=
  ⟨1, by decide, by decide, rfl⟩

/-- Two blocks are stored for it, the second one of padding only. -/
theorem length_encrypt_filledBlock {cipher : FieldCipher} (narrow : cipher.keySize = .key128) :
    (cipher.encrypt filledBlock).length = 64 := by
  rw [FieldCipher.length_encrypt cipher filledBlock_ne_nil, FieldCipher.prefaceLength, narrow,
    FieldCipher.body, Cbc.length_encrypt, Cbc.length_pad]
  decide

/-- A block that is filled like that is read after a cut behind it, without its last octet; a cut in
it or in the block of padding is found out. -/
theorem filled_block_is_read_as_padded :
    Text.allBlank "trunc" = false ∧
      ∃ cipher, FieldCipher.ofPassphrase "trunc" .key128 = .ok cipher ∧
        48 < (cipher.encrypt filledBlock).length ∧
        cipher.decrypt ((cipher.encrypt filledBlock).take 48) =
          .ok (Text.Utf8.encode "the first block") ∧
        ∀ length ∈ [16, 32, 47, 49, 63], ∀ kept,
          cipher.decrypt ((cipher.encrypt filledBlock).take length) ≠ .ok kept := by
  refine ⟨by decide, ?_⟩
  obtain ⟨cipher, derived, cuts⟩ := cuts_are_read_as_padded "trunc" .key128 (by decide)
  have narrow : cipher.keySize = .key128 := by
    rw [FieldCipher.ofPassphrase, if_neg (by decide)] at derived
    rw [← Except.ok.inj derived]
  have stored := length_encrypt_filledBlock narrow
  refine ⟨cipher, derived, by omega, ?_, ?_⟩
  · refine ((cuts filledBlock 48 filledBlock_ne_nil (by decide) (by omega)).1 _).2 ?_
    exact ⟨1, by decide, by decide, isPadded_filledBlock⟩
  · intro length among kept read
    have bounds : 16 ≤ length ∧ length < 64 ∧ length ≠ 48 := by
      simp only [List.mem_cons, List.not_mem_nil, or_false] at among
      omega
    obtain ⟨blocks, several, whole, -⟩ :=
      ((cuts filledBlock length filledBlock_ne_nil bounds.1 (by omega)).1 kept).1 read
    simp only [KeySize.bytes] at whole
    omega

/-- Not every cut is found out: behind the first block of this value there is one that is not. -/
theorem cut_of_filled_block_is_not_found :
    ∃ cipher, FieldCipher.ofPassphrase "trunc" .key128 = .ok cipher ∧ filledBlock ≠ [] ∧
      KeySize.key128.bytes ≤ 48 ∧ 48 < (cipher.encrypt filledBlock).length ∧
      ¬ ∃ cause, cipher.decrypt ((cipher.encrypt filledBlock).take 48) =
        .error (.cipher cause) := by
  have given : Text.allBlank "trunc" = false := by decide
  obtain ⟨cipher, derived, narrow⟩ := FieldCipher.exists_ofPassphrase given .key128
  have salted : cipher.keySize.bytes ≤ 48 := by
    rw [narrow]
    decide
  have cut : 48 < (cipher.encrypt filledBlock).length := by
    rw [length_encrypt_filledBlock narrow]
    decide
  have behind : 48 = cipher.prefaceLength + 16 * 1 := by
    rw [FieldCipher.prefaceLength, narrow]
    decide
  have read := (cipher.decrypt_take_encrypt_ok filledBlock_ne_nil salted cut _).2
    ⟨1, by decide, behind, isPadded_filledBlock⟩
  refine ⟨cipher, derived, filledBlock_ne_nil, by decide, cut, ?_⟩
  rintro ⟨cause, refused⟩
  rw [refused] at read
  cases read

end PredicateSql
