import PredicateSql.Proofs.Cipher.RoundTrip

/-!
Values that were stored under the other key size. The salt of the wide key begins with that of the
narrow one, so a wide key sees that a value is not its own, and a narrow key does not: it decrypts
what follows, from the header of the wide key on.
-/
namespace PredicateSql

namespace KeySize

/-- The salt of the wide key begins with the salt of the narrow key. -/
theorem salt_key256 : key256.salt = key128.salt ++ key256.salt.drop key128.bytes := by
  decide

/-- No salt is what a narrow key puts in front of its values. -/
theorem salt_ne_preface_key128 (size : KeySize) : size.salt ≠ key128.salt ++ key128.header := by
  cases size <;> decide

end KeySize

namespace FieldCipher

section Readers

variable (reader writer : FieldCipher) {plain : List UInt8}

/-- A value with a salt in front is never read as it stands: what is read is shorter. -/
theorem length_of_decrypt {stored : List UInt8} (salted : reader.hasSalt stored = true)
    (read : reader.decrypt stored = .ok plain) : plain.length < stored.length := by
  rw [decrypt_of_hasSalt reader salted] at read
  split at read
  · exact nomatch read
  split at read
  · exact nomatch read
  rename_i whole
  split at read
  · rename_i kept decrypted
    obtain rfl := Except.ok.inj read
    have short := Cbc.length_of_decrypt? (Decidable.of_not_not whole) decrypted
    rw [List.length_drop] at short
    omega
  · exact nomatch read

/-- A wide key finds no salt in front of what a narrow key stored. -/
theorem hasSalt_of_narrow (wide : reader.keySize = .key256) (narrow : writer.keySize = .key128)
    (something : plain ≠ []) : reader.hasSalt (writer.encrypt plain) = false := by
  have front : (writer.encrypt plain).take reader.keySize.bytes =
      KeySize.key128.salt ++ KeySize.key128.header := by
    have length : reader.keySize.bytes = (KeySize.key128.salt ++ KeySize.key128.header).length := by
      rw [wide]
      decide
    rw [encrypt_of_ne_nil writer something, narrow, length, List.take_left]
  have unknown : (KeySize.all.any fun size => size.salt =
      (writer.encrypt plain).take reader.keySize.bytes) = false := by
    rw [List.any_eq_false]
    intro size _
    rw [front]
    simpa using KeySize.salt_ne_preface_key128 size
  rw [hasSalt, unknown, Bool.and_false]

/-- A narrow key finds its salt in front of what a wide key stored. -/
theorem hasSalt_of_wide (narrow : reader.keySize = .key128) (wide : writer.keySize = .key256)
    (something : plain ≠ []) : reader.hasSalt (writer.encrypt plain) = true := by
  rw [encrypt_of_ne_nil writer something, wide, KeySize.salt_key256, ← narrow, List.append_assoc,
    List.append_assoc, hasSalt_salt_append]

/-- What a narrow key makes of what a wide key stored: the header of the wide key is decrypted
too. -/
theorem decrypt_of_wide (narrow : reader.keySize = .key128) (wide : writer.keySize = .key256)
    (something : plain ≠ []) :
    reader.decrypt (writer.encrypt plain) =
      match Cbc.decrypt? (Aes.roundKeys reader.key) reader.startBlock
          (KeySize.key256.header ++ writer.body plain) with
      | some kept => .ok kept
      | none => .error (.cipher .padding) := by
  obtain ⟨long, whole⟩ := writer.length_body plain
  have rest : (writer.encrypt plain).drop reader.prefaceLength =
      KeySize.key256.header ++ writer.body plain := by
    have length : reader.prefaceLength = KeySize.key256.salt.length := by
      rw [prefaceLength, narrow]
      decide
    rw [encrypt_of_ne_nil writer something, wide, length, List.append_assoc, List.drop_left]
  have header : (KeySize.key256.header ++ writer.body plain).length =
      32 + (writer.body plain).length := by
    rw [List.length_append, KeySize.length_header, KeySize.bytes]
  have stored : (writer.encrypt plain).length = 64 + (writer.body plain).length := by
    rw [length_encrypt writer something, prefaceLength, wide, KeySize.bytes]
  have preface : reader.prefaceLength = 32 := by
    rw [prefaceLength, narrow, KeySize.bytes]
  have read := decrypt_of_hasSalt reader (hasSalt_of_wide reader writer narrow wide something)
  rw [rest, header, stored, if_neg (by omega), if_neg (by omega)] at read
  exact read

end Readers

end FieldCipher

/-- A value that was stored under one key size is passed on by the cipher of the other exactly when
this is the wide one. The narrow one takes it for its own and decrypts it from the header on, under
whatever key it has. -/
theorem values_of_other_key_size_pass_iff (readerPhrase writerPhrase : String)
    (readerSize writerSize : KeySize) (readerGiven : Text.allBlank readerPhrase = false)
    (writerGiven : Text.allBlank writerPhrase = false) (different : readerSize ≠ writerSize) :
    ∃ reader writer, FieldCipher.ofPassphrase readerPhrase readerSize = .ok reader ∧
      FieldCipher.ofPassphrase writerPhrase writerSize = .ok writer ∧
      ∀ plain, plain ≠ [] →
        (reader.decrypt (writer.encrypt plain) = .ok (writer.encrypt plain) ↔
          readerSize = .key256) ∧
        (readerSize = .key128 →
          reader.decrypt (writer.encrypt plain) =
            match Cbc.decrypt? (Aes.roundKeys reader.key) reader.startBlock
                (KeySize.key256.header ++ writer.body plain) with
            | some kept => .ok kept
            | none => .error (.cipher .padding)) := by
  obtain ⟨reader, read, rfl⟩ := FieldCipher.exists_ofPassphrase readerGiven readerSize
  obtain ⟨writer, written, rfl⟩ := FieldCipher.exists_ofPassphrase writerGiven writerSize
  refine ⟨reader, writer, read, written, fun plain something => ?_⟩
  cases readerSize : reader.keySize with
  | key128 =>
    have wide : writer.keySize = .key256 := by
      cases writerSize : writer.keySize with
      | key128 => exact absurd (readerSize.trans writerSize.symm) different
      | key256 => rfl
    refine ⟨⟨fun passed => ?_, fun other => nomatch other⟩, fun _ => ?_⟩
    · have salted := reader.hasSalt_of_wide writer readerSize wide something
      exact absurd (reader.length_of_decrypt salted passed) (Nat.lt_irrefl _)
    · exact reader.decrypt_of_wide writer readerSize wide something
  | key256 =>
    have narrow : writer.keySize = .key128 := by
      cases writerSize : writer.keySize with
      | key128 => rfl
      | key256 => exact absurd (readerSize.trans writerSize.symm) different
    have bare := reader.hasSalt_of_narrow writer readerSize narrow something
    exact ⟨⟨fun _ => rfl, fun _ => reader.decrypt_of_not_hasSalt bare⟩, fun other => nomatch other⟩

/-- Under two passphrases a value passes from the narrow key to the wide one, and not back. -/
theorem narrow_values_pass_wide_keys :
    Text.allBlank "wide" = false ∧ Text.allBlank "narrow" = false ∧
      (∃ reader writer, FieldCipher.ofPassphrase "wide" .key256 = .ok reader ∧
        FieldCipher.ofPassphrase "narrow" .key128 = .ok writer ∧
        reader.decrypt (writer.encrypt [0x76]) = .ok (writer.encrypt [0x76])) ∧
      ∃ reader writer, FieldCipher.ofPassphrase "narrow" .key128 = .ok reader ∧
        FieldCipher.ofPassphrase "wide" .key256 = .ok writer ∧
        reader.decrypt (writer.encrypt [0x76]) ≠ .ok (writer.encrypt [0x76]) := by
  refine ⟨by decide, by decide, ?_, ?_⟩
  · obtain ⟨reader, writer, read, written, passes⟩ := values_of_other_key_size_pass_iff
      "wide" "narrow" .key256 .key128 (by decide) (by decide) (by decide)
    exact ⟨reader, writer, read, written, (passes [0x76] (by decide)).1.2 rfl⟩
  · obtain ⟨reader, writer, read, written, passes⟩ := values_of_other_key_size_pass_iff
      "narrow" "wide" .key128 .key256 (by decide) (by decide) (by decide)
    exact ⟨reader, writer, read, written, fun passed =>
      nomatch (passes [0x76] (by decide)).1.1 passed⟩

/-- A value of the wide key is not passed on by a narrow key, though the sizes differ. -/
theorem wide_value_is_not_passed_on :
    ∃ reader writer, FieldCipher.ofPassphrase "narrow" .key128 = .ok reader ∧
      FieldCipher.ofPassphrase "wide" .key256 = .ok writer ∧
      KeySize.key128 ≠ KeySize.key256 ∧ ([0x76] : List UInt8) ≠ [] ∧
      reader.decrypt (writer.encrypt [0x76]) ≠ .ok (writer.encrypt [0x76]) := by
  have readerGiven : Text.allBlank "narrow" = false := by decide
  have writerGiven : Text.allBlank "wide" = false := by decide
  obtain ⟨reader, read, narrow⟩ := FieldCipher.exists_ofPassphrase readerGiven .key128
  obtain ⟨writer, written, wide⟩ := FieldCipher.exists_ofPassphrase writerGiven .key256
  have salted : reader.hasSalt (writer.encrypt [0x76]) = true :=
    reader.hasSalt_of_wide writer narrow wide (by decide)
  refine ⟨reader, writer, read, written, by decide, by decide, fun passed => ?_⟩
  exact absurd (reader.length_of_decrypt salted passed) (Nat.lt_irrefl _)

end PredicateSql
