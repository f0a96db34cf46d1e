import PredicateSql.Cipher.Cbc
import PredicateSql.Cipher.KeyDerivation
import PredicateSql.Error
import PredicateSql.Settings.Basic
import PredicateSql.Text.Base64
import PredicateSql.Text.Blank

/-!
The cipher of encrypted columns. A stored value is a salt, an initial-vector header and the
ciphertext; salt and header are constants of the key size, so that equal values have equal stored
forms and can be compared. What does not begin with the salt of the cipher was stored in the clear
and is read as it stands.
-/
namespace PredicateSql

inductive KeySize where
  | key128 | key256
deriving DecidableEq, Repr

namespace KeySize

def bits : KeySize → UInt16
  | key128 => 128
  | key256 => 256

/-- The key size in octets, and the length of the salt and of the header. -/
def bytes : KeySize → Nat
  | key128 => 16
  | key256 => 32

def all : List KeySize := [key128, key256]

def name : KeySize → String
  | key128 => "Key128"
  | key256 => "Key256"

/-- The key size of that many bits. -/
def ofBits (bits : UInt16) : Except Error KeySize :=
  if bits = 128 then .ok key128
  else if bits = 256 then .ok key256
  else .error (.configuration (.keySize bits.toNat))

def salt : KeySize → List UInt8
  | key128 => Text.Utf8.encode "kljsdkkdlo4454GG"
  | key256 => Text.Utf8.encode "kljsdkkdlo4454GG00155sajuklmbkdl"

def header : KeySize → List UInt8
  | key128 => Text.Utf8.encode "SSljsdkkdlo4454M"
  | key256 => Text.Utf8.encode "SSljsdkkdlo4454Maakikjhsd55GaRTP"

end KeySize

/-- The cipher annotation of a column; a blank key stands for the configured one. -/
structure CipherSpec where
  key : String
  keySize : KeySize
deriving DecidableEq, Repr

namespace CipherSpec

/-- The annotation that leaves the key to the settings and takes the key size from them, as far as
it is a supported one. -/
def configuredDefault (settings : Option Settings) : CipherSpec :=
  let keySize := match settings with
    | some s => (KeySize.ofBits s.cipher.keySize).toOption.getD .key128
    | none => .key128
  ⟨"", keySize⟩

end CipherSpec

structure FieldCipher where
  keySize : KeySize
  key : List UInt8
deriving DecidableEq, Repr

namespace FieldCipher

/-- The cipher with the key that is derived from a passphrase. -/
def ofPassphrase (passphrase : String) (keySize : KeySize) : Except Error FieldCipher :=
  if Text.allBlank passphrase then .error (.configuration .blankPassphrase)
  else .ok ⟨keySize,
    KeyDerivation.derive (Text.Utf8.encode passphrase) keySize.salt keySize.bytes⟩

/-- The cipher of an annotation; a blank key gives way to the configured default. -/
def ofSpec (settings : Option Settings) (spec : CipherSpec) : Except Error FieldCipher :=
  if !Text.allBlank spec.key then ofPassphrase spec.key spec.keySize
  else
    match settings with
    | some s =>
      if Text.allBlank s.cipher.defaultKey then .error (.configuration .noDefaultKey)
      else ofPassphrase s.cipher.defaultKey spec.keySize
    | none => .error (.configuration .noDefaultKey)

/-- The cipher as shown to the reader, without its key. -/
def summary (cipher : FieldCipher) : String :=
  "FieldCipher \x7b key_size: " ++ cipher.keySize.name ++ ", .. \x7d"

/-- The block that chaining starts from: the first part of the header. -/
def startBlock (cipher : FieldCipher) : Aes.Block :=
  match Aes.Block.ofOctets cipher.keySize.header with
  | b :: _ => b
  | [] => ⟨.zero, .zero, .zero, .zero⟩

def prefaceLength (cipher : FieldCipher) : Nat :=
  2 * cipher.keySize.bytes

/-- The stored form; nothing stays nothing. -/
def encrypt (cipher : FieldCipher) (plain : List UInt8) : List UInt8 :=
  if plain.isEmpty then []
  else cipher.keySize.salt ++ cipher.keySize.header ++
    Cbc.encrypt (Aes.roundKeys cipher.key) cipher.startBlock plain

/-- Whether the first octets, as many as the key has, are the salt of some key size. -/
def hasSalt (cipher : FieldCipher) (stored : List UInt8) : Bool :=
  cipher.keySize.bytes ≤ stored.length &&
    KeySize.all.any fun size => size.salt = stored.take cipher.keySize.bytes

/-- Reads a stored form. -/
def decrypt (cipher : FieldCipher) (stored : List UInt8) : Except Error (List UInt8) :=
  if !cipher.hasSalt stored then .ok stored
  else
    let least := cipher.prefaceLength + Cbc.blockLength
    let body := stored.drop cipher.prefaceLength
    if stored.length < least then .error (.cipher (.truncated stored.length least))
    else if body.length % Cbc.blockLength ≠ 0 then .error (.cipher (.unaligned body.length))
    else
      match Cbc.decrypt? (Aes.roundKeys cipher.key) cipher.startBlock body with
      | some plain => .ok plain
      | none => .error (.cipher .padding)

def encryptText (cipher : FieldCipher) (text : String) : String :=
  Text.Base64.encode (cipher.encrypt (Text.Utf8.encode text))

/-- Reads a stored text. -/
def decryptText (cipher : FieldCipher) (stored : String) : Except Error String :=
  match Text.Base64.decode stored with
  | none => .ok stored
  | some octets =>
    if !cipher.hasSalt octets then .ok stored
    else do
      let plain ← cipher.decrypt octets
      match Text.Utf8.decode plain with
      | .ok text => .ok text
      | .error fault => .error (.cipher (.notUtf8 fault))

end FieldCipher
end PredicateSql
