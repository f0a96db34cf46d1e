import PredicateSql.Proofs.Cipher.RoundTrip
import PredicateSql.Proofs.Cipher.Spellings

/-!
The stored forms that are read as a value. Salt, ciphertext and padding have to be those of the
value, but the header is passed over: a value is read under any header, while it is stored, and
looked for, under the one of its key size. Nothing is read from a padding alone, while it is stored
as nothing.
-/
namespace PredicateSql

theorem KeySize.bytes_inj {size other : KeySize} (same : size.bytes = other.bytes) :
    size = other := by
  cases size <;> cases other <;> simp_all [bytes]

namespace FieldCipher

def form (cipher : FieldCipher) (header plain : List UInt8) : List UInt8 :=
  cipher.keySize.salt ++ header ++ cipher.body plain

section Octets

variable (cipher : FieldCipher) {stored plain header : List UInt8}

theorem encrypt_eq_form (something : plain ≠ []) :
    cipher.encrypt plain = cipher.form cipher.keySize.header plain :=
  encrypt_of_ne_nil cipher something

theorem salt_prefix_form (header plain : List UInt8) :
    cipher.keySize.salt <+: cipher.form header plain := by
  rw [form, List.append_assoc]
  exact List.prefix_append _ _

/-- The salt that a cipher looks for is its own: the others are of other lengths. -/
theorem hasSalt_iff : cipher.hasSalt stored = true ↔ cipher.keySize.salt <+: stored := by
  constructor
  · intro salted
    simp only [hasSalt, Bool.and_eq_true, decide_eq_true_eq, List.any_eq_true] at salted
    obtain ⟨long, size, -, same⟩ := salted
    have own : size = cipher.keySize := by
      refine KeySize.bytes_inj ?_
      rw [← KeySize.length_salt size, same, List.length_take, Nat.min_eq_left long]
    rw [← own, same]
    exact List.take_prefix _ _
  · rintro ⟨rest, rfl⟩
    exact cipher.hasSalt_salt_append rest

theorem length_form (fits : header.length = cipher.keySize.bytes) :
    (cipher.form header plain).length = cipher.prefaceLength + (cipher.body plain).length := by
  rw [form, List.length_append, List.length_append, KeySize.length_salt, fits, prefaceLength]
  omega

theorem drop_form (fits : header.length = cipher.keySize.bytes) :
    (cipher.form header plain).drop cipher.prefaceLength = cipher.body plain := by
  have preface : cipher.prefaceLength = (cipher.keySize.salt ++ header).length := by
    rw [List.length_append, KeySize.length_salt, fits, prefaceLength]
    omega
  rw [form, preface, List.drop_left]

/-- A form begins as the stored values do exactly where it has their header. -/
theorem preface_prefix_form_iff (fits : header.length = cipher.keySize.bytes) :
    cipher.keySize.salt ++ cipher.keySize.header <+: cipher.form header plain ↔
      header = cipher.keySize.header := by
  rw [form]
  constructor
  · rintro ⟨rest, own⟩
    obtain ⟨preface, -⟩ := List.append_inj own (by simp [fits, KeySize.length_header])
    exact (List.append_cancel_left preface).symm
  · rintro rfl
    exact List.prefix_append _ _

/-- Octets that are no shorter than the preface are the salt, some header and what is behind
them. -/
theorem exists_header (salted : cipher.keySize.salt <+: stored)
    (long : cipher.prefaceLength ≤ stored.length) :
    ∃ header, header.length = cipher.keySize.bytes ∧
      stored = cipher.keySize.salt ++ header ++ stored.drop cipher.prefaceLength := by
  obtain ⟨rest, rfl⟩ := salted
  rw [List.length_append, KeySize.length_salt, prefaceLength] at long
  refine ⟨rest.take cipher.keySize.bytes, ?_, ?_⟩
  · rw [List.length_take]
    omega
  · have behind : (cipher.keySize.salt ++ rest).drop cipher.prefaceLength =
        rest.drop cipher.keySize.bytes := by
      rw [prefaceLength, Nat.two_mul, ← List.drop_drop, ← KeySize.length_salt, List.drop_left]
    rw [behind, List.append_assoc, List.take_append_drop]

/-- Octets behind the salt are read as a value exactly when they are its form under some header. -/
theorem decrypt_eq_ok_iff (salted : cipher.keySize.salt <+: stored) :
    cipher.decrypt stored = .ok plain ↔
      ∃ header, header.length = cipher.keySize.bytes ∧ stored = cipher.form header plain := by
  rw [decrypt_of_hasSalt cipher (cipher.hasSalt_iff.mpr salted)]
  constructor
  · intro read
    split at read
    · exact nomatch read
    split at read
    · exact nomatch read
    rename_i long whole
    split at read
    next kept decrypted =>
      obtain rfl := Except.ok.inj read
      have body := (Cbc.decrypt?_eq_some_iff (Decidable.of_not_not whole)).mp decrypted
      obtain ⟨header, fits, split⟩ := cipher.exists_header salted (by omega)
      rw [body] at split
      exact ⟨header, fits, split⟩
    next => exact nomatch read
  · rintro ⟨header, fits, rfl⟩
    obtain ⟨long, whole⟩ := cipher.length_body plain
    have back : Cbc.decrypt? (Aes.roundKeys cipher.key) cipher.startBlock (cipher.body plain) =
        some plain := Cbc.decrypt?_encrypt plain _ _
    rw [drop_form cipher fits, length_form cipher fits, if_neg (by omega), if_neg (by omega), back]

/-- What is read as a value is its stored form if it is behind the cipher's own header and there is
a value. -/
theorem encrypt_eq_iff (salted : cipher.keySize.salt <+: stored)
    (read : cipher.decrypt stored = .ok plain) :
    cipher.encrypt plain = stored ↔
      plain ≠ [] ∧ cipher.keySize.salt ++ cipher.keySize.header <+: stored := by
  obtain ⟨header, fits, rfl⟩ := (cipher.decrypt_eq_ok_iff salted).mp read
  constructor
  · intro same
    have something : plain ≠ [] := by
      rintro rfl
      have long := congrArg List.length same
      rw [encrypt_nil, length_form cipher fits] at long
      have := (cipher.length_body []).1
      simp only [List.length_nil] at long
      omega
    rw [← same, encrypt_of_ne_nil cipher something]
    exact ⟨something, List.prefix_append _ _⟩
  · rintro ⟨something, own⟩
    rw [encrypt_eq_form cipher something, (cipher.preface_prefix_form_iff fits).mp own]

end Octets

section Texts

variable (cipher : FieldCipher) {stored text : String} {octets : List UInt8}

/-- A text behind the salt is read as the text that its octets are read as. -/
theorem decryptText_eq_ok_iff (decoded : Text.Base64.decode stored = some octets)
    (salted : cipher.keySize.salt <+: octets) :
    cipher.decryptText stored = .ok text ↔
      cipher.decrypt octets = .ok (Text.Utf8.encode text) := by
  simp only [decryptText, decoded, cipher.hasSalt_iff.mpr salted, Bool.not_true,
    Bool.false_eq_true, if_false]
  cases read : cipher.decrypt octets with
  | error fault => simp [bind, Except.bind]
  | ok plain =>
    simp only [bind, Except.bind, Except.ok.injEq, ← Text.Utf8.decode_eq_ok_iff]
    cases Text.Utf8.decode plain <;> simp

theorem encryptText_eq_iff (decoded : Text.Base64.decode stored = some octets) :
    cipher.encryptText text = stored ↔ cipher.encrypt (Text.Utf8.encode text) = octets := by
  rw [encryptText]
  constructor
  · rintro rfl
    rw [Text.Base64.decode_encode] at decoded
    exact Option.some.inj decoded
  · rintro rfl
    exact (Text.Base64.decode_eq_some_iff.mp decoded).symm

theorem encode_ne_nil_iff : Text.Utf8.encode text ≠ [] ↔ text ≠ "" := by
  refine not_congr ⟨encode_eq_nil, ?_⟩
  rintro rfl
  rfl

/-- A text behind the salt is read as a text exactly when it is the spelling of a form of this
text. -/
theorem decryptText_eq_ok_iff_form (decoded : Text.Base64.decode stored = some octets)
    (salted : cipher.keySize.salt <+: octets) :
    cipher.decryptText stored = .ok text ↔ ∃ header, header.length = cipher.keySize.bytes ∧
      stored = Text.Base64.encode (cipher.form header (Text.Utf8.encode text)) := by
  rw [cipher.decryptText_eq_ok_iff decoded salted, cipher.decrypt_eq_ok_iff salted]
  refine exists_congr fun header => and_congr_right fun _ => ?_
  rw [← Text.Base64.decode_eq_some_iff, decoded, Option.some.injEq]

end Texts

end FieldCipher

/-- Octets behind the salt of a cipher are read as a value exactly when they are the ciphertext of
the value behind any header. They are the stored form of the value, with which it is compared,
exactly when this header is that of the cipher and there is a value; and so it is with texts. -/
theorem values_are_read_under_any_header (cipher : FieldCipher) :
    (∀ stored plain, cipher.keySize.salt <+: stored →
      (cipher.decrypt stored = .ok plain ↔
        ∃ header, header.length = cipher.keySize.bytes ∧ stored = cipher.form header plain) ∧
      (cipher.decrypt stored = .ok plain → (cipher.encrypt plain = stored ↔
        plain ≠ [] ∧ cipher.keySize.salt ++ cipher.keySize.header <+: stored))) ∧
    ∀ stored octets text, Text.Base64.decode stored = some octets →
      cipher.keySize.salt <+: octets →
      (cipher.decryptText stored = .ok text ↔ ∃ header, header.length = cipher.keySize.bytes ∧
        stored = Text.Base64.encode (cipher.form header (Text.Utf8.encode text))) ∧
      (cipher.decryptText stored = .ok text → (cipher.encryptText text = stored ↔
        text ≠ "" ∧ cipher.keySize.salt ++ cipher.keySize.header <+: octets)) := by
  constructor
  · intro stored plain salted
    exact ⟨cipher.decrypt_eq_ok_iff salted, cipher.encrypt_eq_iff salted⟩
  · intro stored octets text decoded salted
    refine ⟨cipher.decryptText_eq_ok_iff_form decoded salted, fun read => ?_⟩
    have octetsRead := (cipher.decryptText_eq_ok_iff decoded salted).mp read
    rw [cipher.encryptText_eq_iff decoded, cipher.encrypt_eq_iff salted octetsRead,
      FieldCipher.encode_ne_nil_iff]

def zeroHeader : List UInt8 :=
  List.replicate 16 0

/-- Behind zeros a value is read and not found, and so is nothing behind the header of the key;
behind this header the value is found. -/
theorem values_are_read_under_zeros :
    ∃ cipher, FieldCipher.ofPassphrase "header" .key128 = .ok cipher ∧
      cipher.keySize.salt <+: cipher.form zeroHeader [0x76] ∧
      cipher.decrypt (cipher.form zeroHeader [0x76]) = .ok [0x76] ∧
      cipher.encrypt [0x76] ≠ cipher.form zeroHeader [0x76] ∧
      cipher.decrypt (cipher.form cipher.keySize.header []) = .ok [] ∧
      cipher.encrypt [] ≠ cipher.form cipher.keySize.header [] ∧
      cipher.encrypt [0x76] = cipher.form cipher.keySize.header [0x76] := by
  have given : Text.allBlank "header" = false := by decide
  obtain ⟨cipher, derived, narrow⟩ := FieldCipher.exists_ofPassphrase given .key128
  obtain ⟨octets, -⟩ := values_are_read_under_any_header cipher
  have zeros : zeroHeader.length = cipher.keySize.bytes := by
    rw [narrow]
    decide
  obtain ⟨altered, alteredFound⟩ := octets _ [0x76] (cipher.salt_prefix_form zeroHeader [0x76])
  obtain ⟨own, ownFound⟩ := octets _ [0x76]
    (cipher.salt_prefix_form cipher.keySize.header [0x76])
  obtain ⟨nothing, nothingFound⟩ := octets _ [] (cipher.salt_prefix_form cipher.keySize.header [])
  have alteredRead := altered.mpr ⟨zeroHeader, zeros, rfl⟩
  have ownRead := own.mpr ⟨_, KeySize.length_header _, rfl⟩
  have nothingRead := nothing.mpr ⟨_, KeySize.length_header _, rfl⟩
  refine ⟨cipher, derived, cipher.salt_prefix_form _ _, alteredRead, fun found => ?_, nothingRead,
    fun found => ?_, ?_⟩
  · have own := (cipher.preface_prefix_form_iff zeros).mp ((alteredFound alteredRead).mp found).2
    rw [narrow] at own
    exact absurd own (by decide)
  · exact ((nothingFound nothingRead).mp found).1 rfl
  · exact (ownFound ownRead).mpr ⟨by decide, List.prefix_append _ _⟩

/-- Not everything that is read is the stored form of what is read: with zeros for a header it is
not. -/
theorem zeros_are_no_stored_header :
    ∃ cipher, FieldCipher.ofPassphrase "header" .key128 = .ok cipher ∧
      cipher.keySize.salt <+: cipher.form zeroHeader [0x76] ∧
      ¬ ∀ plain, cipher.decrypt (cipher.form zeroHeader [0x76]) = .ok plain →
        cipher.encrypt plain = cipher.form zeroHeader [0x76] := by
  have given : Text.allBlank "header" = false := by decide
  obtain ⟨cipher, derived, narrow⟩ := FieldCipher.exists_ofPassphrase given .key128
  have salted := cipher.salt_prefix_form zeroHeader [0x76]
  have zeros : zeroHeader.length = cipher.keySize.bytes := by
    rw [narrow]
    decide
  have read := (cipher.decrypt_eq_ok_iff salted).mpr ⟨zeroHeader, zeros, rfl⟩
  refine ⟨cipher, derived, salted, fun found => ?_⟩
  have own := ((cipher.encrypt_eq_iff salted read).mp (found _ read)).2
  rw [cipher.preface_prefix_form_iff zeros, narrow] at own
  exact absurd own (by decide)

end PredicateSql
