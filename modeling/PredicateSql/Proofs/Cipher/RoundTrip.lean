import PredicateSql.Cipher.Field
import PredicateSql.Proofs.Cipher.Chaining
import PredicateSql.Proofs.Cipher.Encodings

/-!
Stored values are read again. What a cipher stores begins with its salt, so it is never taken for a
value that was stored in the clear, whatever the value; and nothing, which has no salt in front, is
read as nothing.
-/
namespace PredicateSql

namespace KeySize

theorem length_salt (size : KeySize) : size.salt.length = size.bytes := by
  cases size <;> decide

theorem length_header (size : KeySize) : size.header.length = size.bytes := by
  cases size <;> decide

theorem mem_all (size : KeySize) : size ∈ all := by
  cases size <;> decide

end KeySize

namespace FieldCipher

section Octets

variable (cipher : FieldCipher) {plain : List UInt8}

def body (plain : List UInt8) : List UInt8 :=
  Cbc.encrypt (Aes.roundKeys cipher.key) cipher.startBlock plain

theorem length_body (plain : List UInt8) :
    16 ≤ (cipher.body plain).length ∧ (cipher.body plain).length % 16 = 0 := by
  rw [body, Cbc.length_encrypt]
  exact Cbc.length_pad_blocks plain

theorem encrypt_nil : cipher.encrypt [] = [] := rfl

theorem encrypt_of_ne_nil (something : plain ≠ []) :
    cipher.encrypt plain = cipher.keySize.salt ++ cipher.keySize.header ++ cipher.body plain := by
  rw [encrypt, if_neg (by simpa using something), body]

theorem length_preface :
    (cipher.keySize.salt ++ cipher.keySize.header).length = cipher.prefaceLength := by
  rw [List.length_append, KeySize.length_salt, KeySize.length_header, prefaceLength]
  omega

/-- No salt stands in front of nothing. -/
theorem hasSalt_nil : cipher.hasSalt [] = false := by
  cases size : cipher.keySize <;> simp [hasSalt, size, KeySize.bytes]

/-- Whatever is stored after a salt, the salt is seen. -/
theorem hasSalt_salt_append (rest : List UInt8) :
    cipher.hasSalt (cipher.keySize.salt ++ rest) = true := by
  have salted : (cipher.keySize.salt ++ rest).take cipher.keySize.bytes = cipher.keySize.salt := by
    rw [← KeySize.length_salt, List.take_left]
  have long : cipher.keySize.bytes ≤ (cipher.keySize.salt ++ rest).length := by
    rw [List.length_append, KeySize.length_salt]
    omega
  simp only [hasSalt, long, salted, decide_true, Bool.true_and, List.any_eq_true]
  exact ⟨cipher.keySize, KeySize.mem_all _, by simp⟩

theorem hasSalt_encrypt (something : plain ≠ []) :
    cipher.hasSalt (cipher.encrypt plain) = true := by
  rw [encrypt_of_ne_nil cipher something, List.append_assoc, hasSalt_salt_append]

theorem length_encrypt (something : plain ≠ []) :
    (cipher.encrypt plain).length = cipher.prefaceLength + (cipher.body plain).length := by
  rw [encrypt_of_ne_nil cipher something, List.length_append, length_preface]

/-- The ciphertext stands after the salt and the header. -/
theorem drop_encrypt (something : plain ≠ []) :
    (cipher.encrypt plain).drop cipher.prefaceLength = cipher.body plain := by
  rw [encrypt_of_ne_nil cipher something, ← length_preface, List.drop_left]

/-- Octets without a salt in front are read as they stand. -/
theorem decrypt_of_not_hasSalt {stored : List UInt8} (bare : cipher.hasSalt stored = false) :
    cipher.decrypt stored = .ok stored := by
  rw [decrypt, bare]
  rfl

/-- Octets with a salt in front are read as a ciphertext behind the preface. -/
theorem decrypt_of_hasSalt {stored : List UInt8} (salted : cipher.hasSalt stored = true) :
    cipher.decrypt stored =
      if stored.length < cipher.prefaceLength + 16 then
        .error (.cipher (.truncated stored.length (cipher.prefaceLength + 16)))
      else if (stored.drop cipher.prefaceLength).length % 16 ≠ 0 then
        .error (.cipher (.unaligned (stored.drop cipher.prefaceLength).length))
      else
        match Cbc.decrypt? (Aes.roundKeys cipher.key) cipher.startBlock
            (stored.drop cipher.prefaceLength) with
        | some plain => .ok plain
        | none => .error (.cipher .padding) :=
  if_neg (by simp [salted])

/-- The stored form of octets is read as these octets. -/
theorem decrypt_encrypt (plain : List UInt8) :
    cipher.decrypt (cipher.encrypt plain) = .ok plain := by
  by_cases something : plain = []
  · rw [something, encrypt_nil, decrypt_of_not_hasSalt cipher (hasSalt_nil cipher)]
  · obtain ⟨long, whole⟩ := cipher.length_body plain
    have back : Cbc.decrypt? (Aes.roundKeys cipher.key) cipher.startBlock (cipher.body plain) =
        some plain := Cbc.decrypt?_encrypt plain _ _
    rw [decrypt_of_hasSalt cipher (hasSalt_encrypt cipher something), drop_encrypt cipher something,
      length_encrypt cipher something, if_neg (by omega), if_neg (by omega), back]

theorem encrypt_inj (p q : List UInt8) : cipher.encrypt p = cipher.encrypt q ↔ p = q := by
  constructor
  · intro same
    have read := cipher.decrypt_encrypt p
    rw [same, decrypt_encrypt] at read
    exact (Except.ok.inj read).symm
  · exact congrArg cipher.encrypt

end Octets

section Texts

variable (cipher : FieldCipher)

theorem encode_eq_nil {text : String} (nothing : Text.Utf8.encode text = []) : text = "" := by
  have read := Text.Utf8.decode_encode text
  rw [nothing] at read
  exact (Except.ok.inj read).symm

/-- The stored text of a text is read as this text. -/
theorem decryptText_encryptText (text : String) :
    cipher.decryptText (cipher.encryptText text) = .ok text := by
  by_cases something : Text.Utf8.encode text = []
  · rw [decryptText, encryptText, Text.Base64.decode_encode, something, encrypt_nil]
    simp only [hasSalt_nil, encode_eq_nil something]
    rfl
  · rw [decryptText, encryptText, Text.Base64.decode_encode]
    simp only [hasSalt_encrypt cipher something, decrypt_encrypt, Bool.not_true,
      Bool.false_eq_true, if_false, bind, Except.bind, Text.Utf8.decode_encode]

theorem encryptText_inj (t u : String) : cipher.encryptText t = cipher.encryptText u ↔ t = u := by
  constructor
  · intro same
    have read := cipher.decryptText_encryptText t
    rw [same, decryptText_encryptText] at read
    exact (Except.ok.inj read).symm
  · exact congrArg cipher.encryptText

end Texts

/-- Every passphrase that is not blank makes a cipher of each key size. -/
theorem exists_ofPassphrase {passphrase : String} (given : Text.allBlank passphrase = false)
    (size : KeySize) :
    ∃ cipher, ofPassphrase passphrase size = .ok cipher ∧ cipher.keySize = size :=
  ⟨_, by rw [ofPassphrase, if_neg (by simp [given])], rfl⟩

end FieldCipher

/-- Under the key of any passphrase that is not blank, stored octets and stored texts are read as
they were; so two values have the same stored form exactly when they are the same value. -/
theorem stored_values_are_read_again (passphrase : String) (size : KeySize)
    (given : Text.allBlank passphrase = false) :
    ∃ cipher, FieldCipher.ofPassphrase passphrase size = .ok cipher ∧ cipher.keySize = size ∧
      (∀ plain, cipher.decrypt (cipher.encrypt plain) = .ok plain) ∧
      (∀ text, cipher.decryptText (cipher.encryptText text) = .ok text) ∧
      (∀ p q, cipher.encrypt p = cipher.encrypt q ↔ p = q) ∧
      (∀ t u, cipher.encryptText t = cipher.encryptText u ↔ t = u) := by
  refine ⟨_, by rw [FieldCipher.ofPassphrase, if_neg (by simp [given])], rfl, ?_⟩
  exact ⟨FieldCipher.decrypt_encrypt _, FieldCipher.decryptText_encryptText _,
    FieldCipher.encrypt_inj _, FieldCipher.encryptText_inj _⟩

/-- Nothing, a whole block, a salt and a stored form are read again as they were. -/
theorem salts_are_read_again :
    Text.allBlank "round-trip" = false ∧
      ∃ cipher, FieldCipher.ofPassphrase "round-trip" .key128 = .ok cipher ∧
        (∀ plain ∈ [[], Text.Utf8.encode "exactly sixteen!", KeySize.key256.salt,
          cipher.encrypt [0]], cipher.decrypt (cipher.encrypt plain) = .ok plain) ∧
        cipher.decryptText (cipher.encryptText "ünïcødé ✓") = .ok "ünïcødé ✓" ∧
        cipher.encryptText "" ≠ cipher.encryptText "a" := by
  refine ⟨by decide, ?_⟩
  obtain ⟨cipher, derived, -, octets, texts, -, different⟩ :=
    stored_values_are_read_again "round-trip" .key128 (by decide)
  refine ⟨cipher, derived, fun plain _ => octets plain, texts _, ?_⟩
  rw [Ne, different]
  decide

end PredicateSql
