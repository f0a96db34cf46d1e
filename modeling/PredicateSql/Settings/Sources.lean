import PredicateSql.Error
import PredicateSql.Json.Reader
import PredicateSql.Settings.Basic
import PredicateSql.Text.Blank
import PredicateSql.Text.LowerCase
import PredicateSql.Text.Utf8
import PredicateSql.Toml.Reader

/-!
Where settings come from. A TOML or JSON document is laid over the defaults, and environment
variables over both, each field on its own.
-/
namespace PredicateSql.Settings

/-- Settings as JSON, by the names that documents use. -/
def toJson (s : Settings) : Json :=
  .object [
    ("debug", .bool s.debug),
    ("log_level", .string s.logLevel),
    ("default_dialect", .string s.defaultDialect),
    ("cipher", .object [
      ("default_key", .string s.cipher.defaultKey),
      ("key_size", .int s.cipher.keySize.toNat)])]

def bool? : Json → Option Bool
  | .bool b => some b
  | _ => none

def string? : Json → Option String
  | .string s => some s
  | _ => none

/-- A whole number that fits into sixteen bits. -/
def size? : Json → Option UInt16
  | .int n => if 0 ≤ n && n < 65536 then some n.toNat.toUInt16 else none
  | _ => none

/-- Cipher settings: an object, or an array of the two fields. -/
def cipherOfJson? (json : Json) : Option CipherSettings := do
  let (key, size) ← match json with
    | .object members => some (← Json.find? "default_key" members, ← Json.find? "key_size" members)
    | .array [key, size] => some (key, size)
    | _ => none
  some ⟨← string? key, ← size? size⟩

/-- Settings: an object, or an array of the four fields. -/
def ofJson? (json : Json) : Option Settings := do
  let (debug, level, dialect, cipher) ← match json with
    | .object members =>
      some (← Json.find? "debug" members, ← Json.find? "log_level" members,
        ← Json.find? "default_dialect" members, ← Json.find? "cipher" members)
    | .array [debug, level, dialect, cipher] => some (debug, level, dialect, cipher)
    | _ => none
  some ⟨← bool? debug, ← string? level, ← string? dialect, ← cipherOfJson? cipher⟩

def overDefaults? (document : Json) : Option Settings :=
  ofJson? (default.toJson.merge document)

/-- Settings from the text of a TOML document. -/
def ofToml (text : String) : Except Error Settings :=
  match Toml.parse? text with
  | none => .error (.configuration .tomlMalformed)
  | some document =>
    match overDefaults? document.toJson with
    | some settings => .ok settings
    | none => .error (.configuration .tomlMistyped)

/-- Settings from the text of a JSON document. -/
def ofJsonText (text : String) : Except Error Settings :=
  match Json.parse? Json.documentDepth text with
  | none => .error (.configuration .jsonMalformed)
  | some document =>
    match overDefaults? document.lastWins with
    | some settings => .ok settings
    | none => .error (.configuration .jsonMistyped)

/-- Settings from the contents of a TOML file; `none` stands for a file that cannot be read. -/
def ofTomlFile (contents : Option (List UInt8)) : Except Error Settings :=
  match contents.map Text.Utf8.decode with
  | some (.ok text) => ofToml text
  | _ => .error (.configuration .unreadableToml)

abbrev Environment := List (String × String)

/-- Decimal digits after an optional plus sign, as a number that fits into sixteen bits. -/
def sizeText? (s : String) : Option UInt16 :=
  let digits := match s.toList with
    | '+' :: cs => cs
    | cs => cs
  match Decimal.natural? digits with
  | some n => if n < 65536 then some n.toUInt16 else none
  | none => none

/-- The settings with the variables that are set laid over them. A key size that cannot be read is
passed over. -/
def withEnvironment (s : Settings) (env : Environment) : Settings where
  debug := match env.lookup "SQLWEAVE_DEBUG" with
    | some text => Text.lowerCase text ∈ ["true", "1", "yes"]
    | none => s.debug
  logLevel := (env.lookup "SQLWEAVE_LOG_LEVEL").getD s.logLevel
  defaultDialect := (env.lookup "SQLWEAVE_DIALECT").getD s.defaultDialect
  cipher := {
    defaultKey := (env.lookup "SQLWEAVE_CIPHER_KEY").getD s.cipher.defaultKey
    keySize := ((env.lookup "SQLWEAVE_CIPHER_KEY_SIZE").bind fun text =>
      sizeText? (Text.trim text)).getD s.cipher.keySize }

def ofTomlFileWithEnvironment (contents : Option (List UInt8)) (env : Environment) :
    Except Error Settings :=
  (ofTomlFile contents).map (·.withEnvironment env)

end PredicateSql.Settings
