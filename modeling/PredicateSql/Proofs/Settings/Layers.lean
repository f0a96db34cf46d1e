import PredicateSql.Proofs.Cipher.Encodings
import PredicateSql.Proofs.Json.Merging
import PredicateSql.Settings.Sources

/-!
Settings in layers. The environment is laid over a document and the document over the defaults, each
field on its own: a field is looked up by its name, whatever else a document or the environment has.
-/
namespace PredicateSql

/-- A member of the lower object stays, with what is laid over it. -/
theorem Json.find?_merge {name : String} {lower upper : List (String × Json)} (value : Json)
    (below : find? name lower = some value) :
    find? name (mergeMembers lower upper ++ upper.filter fun (name, _) =>
      (find? name lower).isNone) =
      some (match find? name upper with
        | some above => merge value above
        | none => value) := by
  rw [find?_append, find?_merged, below]
  rfl

/-- The last of several members of one name is the one that is kept. -/
theorem Json.find?_lastWinsMembers (name : String) (members : List (String × Json)) :
    find? name (lastWinsMembers members) = (find? name members.reverse).map lastWins := by
  induction members with
  | nil => rfl
  | cons entry rest ih =>
    obtain ⟨key, value⟩ := entry
    rw [List.reverse_cons, find?_append, lastWinsMembers]
    by_cases same : key = name
    · subst same
      have own : find? key [(key, value)] = some value := if_pos rfl
      by_cases later : rest.any (·.1 = key) = true
      · have found : find? key rest.reverse ≠ none := by
          rw [Ne, find?_eq_none_iff]
          simpa using later
        obtain ⟨last, found⟩ := Option.ne_none_iff_exists'.mp found
        rw [if_pos later, ih, found, Option.some_or]
      · have missing : find? key rest.reverse = none := by
          rw [find?_eq_none_iff]
          intro entry held same
          exact later (List.any_eq_true.mpr ⟨entry, List.mem_reverse.mp held, by simpa using same⟩)
        rw [if_neg later, missing, Option.none_or, own, find?, if_pos rfl, Option.map_some]
    · have other : find? name [(key, value)] = none := if_neg same
      rw [other, Option.or_none, ← ih]
      split
      · rfl
      · rw [find?, if_neg same]

theorem Toml.find?_toJsonEntries (name : String) (entries : List (String × Toml)) :
    Json.find? name (toJsonEntries entries) = (Json.find? name entries).map toJson := by
  induction entries with
  | nil => rfl
  | cons entry rest ih =>
    obtain ⟨key, value⟩ := entry
    simp only [toJsonEntries, Json.find?, ih]
    split <;> rfl

namespace Settings

/-- How the values of a document are read: as more members, as flags, as texts and as sizes. -/
structure Format (α : Type) where
  members? : α → Option (List (String × α))
  flag? : α → Option Bool
  text? : α → Option String
  size? : α → Option UInt16

/-- The values of some fields. -/
structure Layer where
  debug : Option Bool
  logLevel : Option String
  defaultDialect : Option String
  defaultKey : Option String
  keySize : Option UInt16
deriving DecidableEq, Repr

namespace Layer

/-- The values of the upper layer, and those of the lower one for all other fields. -/
def laidOver (upper lower : Layer) : Layer where
  debug := upper.debug.or lower.debug
  logLevel := upper.logLevel.or lower.logLevel
  defaultDialect := upper.defaultDialect.or lower.defaultDialect
  defaultKey := upper.defaultKey.or lower.defaultKey
  keySize := upper.keySize.or lower.keySize

/-- Settings with the values of a layer, and the given ones for all other fields. -/
def settings (layer : Layer) (base : Settings) : Settings where
  debug := layer.debug.getD base.debug
  logLevel := layer.logLevel.getD base.logLevel
  defaultDialect := layer.defaultDialect.getD base.defaultDialect
  cipher := {
    defaultKey := layer.defaultKey.getD base.cipher.defaultKey
    keySize := layer.keySize.getD base.cipher.keySize }

/-- The variables that are set. A key size that cannot be read is as one that is not set. -/
def ofEnvironment (env : Environment) : Layer where
  debug := (env.lookup "SQLWEAVE_DEBUG").map fun text =>
    decide (Text.lowerCase text ∈ ["true", "1", "yes"])
  logLevel := env.lookup "SQLWEAVE_LOG_LEVEL"
  defaultDialect := env.lookup "SQLWEAVE_DIALECT"
  defaultKey := env.lookup "SQLWEAVE_CIPHER_KEY"
  keySize := (env.lookup "SQLWEAVE_CIPHER_KEY_SIZE").bind fun text => sizeText? (Text.trim text)

theorem settings_laidOver (upper lower : Layer) (base : Settings) :
    (upper.laidOver lower).settings base = upper.settings (lower.settings base) := by
  simp only [settings, laidOver, Option.getD_or]

theorem settings_ofEnvironment (env : Environment) (base : Settings) :
    (ofEnvironment env).settings base = base.withEnvironment env := by
  simp only [settings, ofEnvironment, withEnvironment]
  cases env.lookup "SQLWEAVE_DEBUG" <;> rfl

end Layer

namespace Format

variable {α : Type} (f : Format α)

/-- The members of the cipher, which are none if it is missing. -/
def cipher? (members : List (String × α)) : Option (List (String × α)) :=
  match Json.find? "cipher" members with
  | some value => f.members? value
  | none => some []

/-- Each field that is present has a value of its sort. -/
structure Admits (members cipher : List (String × α)) : Prop where
  debug : ∀ value ∈ Json.find? "debug" members, (f.flag? value).isSome
  logLevel : ∀ value ∈ Json.find? "log_level" members, (f.text? value).isSome
  defaultDialect : ∀ value ∈ Json.find? "default_dialect" members, (f.text? value).isSome
  defaultKey : ∀ value ∈ Json.find? "default_key" cipher, (f.text? value).isSome
  keySize : ∀ value ∈ Json.find? "key_size" cipher, (f.size? value).isSome

instance (members cipher : List (String × α)) : Decidable (f.Admits members cipher) :=
  decidable_of_iff
    ((∀ value ∈ Json.find? "debug" members, (f.flag? value).isSome) ∧
      (∀ value ∈ Json.find? "log_level" members, (f.text? value).isSome) ∧
      (∀ value ∈ Json.find? "default_dialect" members, (f.text? value).isSome) ∧
      (∀ value ∈ Json.find? "default_key" cipher, (f.text? value).isSome) ∧
      ∀ value ∈ Json.find? "key_size" cipher, (f.size? value).isSome)
    ⟨fun ⟨debug, level, dialect, key, size⟩ => ⟨debug, level, dialect, key, size⟩,
      fun ⟨debug, level, dialect, key, size⟩ => ⟨debug, level, dialect, key, size⟩⟩

/-- The values of the fields that are present. -/
def layer (members cipher : List (String × α)) : Layer where
  debug := (Json.find? "debug" members).bind f.flag?
  logLevel := (Json.find? "log_level" members).bind f.text?
  defaultDialect := (Json.find? "default_dialect" members).bind f.text?
  defaultKey := (Json.find? "default_key" cipher).bind f.text?
  keySize := (Json.find? "key_size" cipher).bind f.size?

/-- What a document says: whether all of its fields are of their sorts, and the values of those that
are. -/
def read? (document : α) : Option (Bool × Layer) := do
  let members ← f.members? document
  let cipher ← f.cipher? members
  return (decide (f.Admits members cipher), f.layer members cipher)

theorem exists_parts {parsed : Option α} {admitted : Bool} {layer : Layer}
    (read : parsed.bind f.read? = some (admitted, layer)) :
    ∃ document members cipher, parsed = some document ∧ f.members? document = some members ∧
      f.cipher? members = some cipher ∧ (f.Admits members cipher ↔ admitted = true) ∧
      f.layer members cipher = layer := by
  obtain ⟨document, given, parts⟩ := Option.bind_eq_some_iff.mp read
  obtain ⟨members, top, rest⟩ := Option.bind_eq_some_iff.mp parts
  obtain ⟨cipher, ciphers, same⟩ := Option.bind_eq_some_iff.mp rest
  obtain ⟨admits, values⟩ := Prod.mk.inj (Option.some.inj same)
  exact ⟨document, members, cipher, given, top, ciphers, by simp [← admits], values⟩

/-- The values are read in the same way where a document has become JSON. -/
structure Kept (json : α → Json) : Prop where
  members : ∀ {value members}, f.members? value = some members →
    ∃ upper, json value = .object upper ∧
    ∀ name, Json.find? name upper = (Json.find? name members).map json
  flag : ∀ value, bool? (json value) = f.flag? value
  text : ∀ value, string? (json value) = f.text? value
  size : ∀ value, Settings.size? (json value) = f.size? value

end Format

/-- What is read for a field: the value that is laid over it, or else the one below. -/
def laid? {α β : Type} (read? : α → Option β) (below : β) : Option α → Option β
  | some value => read? value
  | none => some below

theorem laid?_eq_some_iff {α β : Type} {read? : α → Option β} {below x : β} {above : Option α} :
    laid? read? below above = some x ↔
      (∀ value ∈ above, (read? value).isSome) ∧ x = (above.bind read?).getD below := by
  cases above with
  | none =>
    rw [laid?, Option.some.injEq]
    exact ⟨fun same => ⟨nofun, same.symm⟩, fun ⟨_, same⟩ => same.symm⟩
  | some value =>
    simp only [laid?, Option.mem_some_iff, forall_eq', Option.bind_some]
    cases read? value with
    | none => simp
    | some found =>
      exact ⟨fun same => ⟨rfl, (Option.some.inj same).symm⟩,
        fun ⟨_, same⟩ => congrArg some same.symm⟩

/-- A value that is no object is replaced by what is laid over it. -/
theorem read_merged {β : Type} (read? : Json → Option β) (value : Json) {below : β}
    (scalar : ∀ above, value.merge above = above) (own : read? value = some below)
    (above : Option Json) :
    read? (match above with
      | some above => value.merge above
      | none => value) = laid? read? below above := by
  cases above with
  | none => exact own
  | some above => exact congrArg read? (scalar above)

theorem size?_toNat (size : UInt16) : size? (.int size.toNat) = some size := by
  have small : size.toNat < 65536 := size.toNat_lt
  simp only [size?]
  rw [if_pos (by simp; omega)]
  simp

theorem cipherOfJson?_merge {base c : CipherSettings} {upper : List (String × Json)} :
    cipherOfJson? ((Json.object [("default_key", .string base.defaultKey),
        ("key_size", .int base.keySize.toNat)]).merge (.object upper)) = some c ↔
      laid? string? base.defaultKey (Json.find? "default_key" upper) = some c.defaultKey ∧
      laid? size? base.keySize (Json.find? "key_size" upper) = some c.keySize := by
  have key := read_merged string? (.string base.defaultKey) (fun _ => rfl) rfl
    (Json.find? "default_key" upper)
  have size := read_merged size? (.int base.keySize.toNat) (fun _ => rfl) (size?_toNat base.keySize)
    (Json.find? "key_size" upper)
  simp only [Json.merge, cipherOfJson?]
  rw [Json.find?_merge (.string base.defaultKey) rfl,
    Json.find?_merge (.int base.keySize.toNat) rfl]
  simp only [bind, Option.bind_some, key, size, Option.bind_eq_some_iff, Option.some.injEq]
  constructor
  · rintro ⟨key, readKey, size, readSize, rfl⟩
    exact ⟨readKey, readSize⟩
  · rintro ⟨readKey, readSize⟩
    exact ⟨_, readKey, _, readSize, rfl⟩

/-- A document that is an object is read field by field. -/
theorem ofJson?_merge {base s : Settings} {upper cipher : List (String × Json)}
    (ciphers : Json.find? "cipher" upper = some (.object cipher) ∨
      Json.find? "cipher" upper = none ∧ cipher = []) :
    ofJson? (base.toJson.merge (.object upper)) = some s ↔
      laid? bool? base.debug (Json.find? "debug" upper) = some s.debug ∧
      laid? string? base.logLevel (Json.find? "log_level" upper) = some s.logLevel ∧
      laid? string? base.defaultDialect (Json.find? "default_dialect" upper) =
        some s.defaultDialect ∧
      laid? string? base.cipher.defaultKey (Json.find? "default_key" cipher) =
        some s.cipher.defaultKey ∧
      laid? size? base.cipher.keySize (Json.find? "key_size" cipher) = some s.cipher.keySize := by
  have debug := read_merged bool? (.bool base.debug) (fun _ => rfl) rfl (Json.find? "debug" upper)
  have level := read_merged string? (.string base.logLevel) (fun _ => rfl) rfl
    (Json.find? "log_level" upper)
  have dialect := read_merged string? (.string base.defaultDialect) (fun _ => rfl) rfl
    (Json.find? "default_dialect" upper)
  let keys := Json.object [("default_key", .string base.cipher.defaultKey),
    ("key_size", .int base.cipher.keySize.toNat)]
  -- A missing cipher is as good as one without members.
  have merged : (match Json.find? "cipher" upper with
      | some above => keys.merge above
      | none => keys) = keys.merge (.object cipher) := by
    rcases ciphers with found | ⟨missing, rfl⟩
    · rw [found]
    · rw [missing]
      rfl
  simp only [toJson, Json.merge, ofJson?]
  rw [Json.find?_merge (.bool base.debug) rfl, Json.find?_merge (.string base.logLevel) rfl,
    Json.find?_merge (.string base.defaultDialect) rfl, Json.find?_merge keys rfl, merged]
  simp only [bind, Option.bind_some, debug, level, dialect, Option.bind_eq_some_iff,
    Option.some.injEq]
  constructor
  · rintro ⟨debug, readDebug, level, readLevel, dialect, readDialect, cipher, readCipher, rfl⟩
    exact ⟨readDebug, readLevel, readDialect, cipherOfJson?_merge.mp readCipher⟩
  · rintro ⟨readDebug, readLevel, readDialect, readCipher⟩
    exact ⟨_, readDebug, _, readLevel, _, readDialect, _, cipherOfJson?_merge.mpr readCipher, rfl⟩

/-- A field is read in a document as it is read in JSON. -/
theorem laid?_map {α β : Type} {json : α → Json} {inJson? : Json → Option β} {read? : α → Option β}
    (kept : ∀ value, inJson? (json value) = read? value) (below : β) (above : Option α) :
    laid? inJson? below (above.map json) = laid? read? below above := by
  cases above with
  | none => rfl
  | some value => exact kept value

namespace Format

section Reading

variable {α : Type} {f : Format α} {json : α → Json}

/-- The cipher of a document has the members that it has in JSON. -/
theorem Kept.exists_cipher (kept : f.Kept json) {members cipher : List (String × α)}
    {upper : List (String × Json)}
    (same : ∀ name, Json.find? name upper = (Json.find? name members).map json)
    (ciphers : f.cipher? members = some cipher) :
    ∃ inner, (Json.find? "cipher" upper = some (.object inner) ∨ Json.find? "cipher" upper = none ∧
      inner = []) ∧
      ∀ name, Json.find? name inner = (Json.find? name cipher).map json := by
  unfold cipher? at ciphers
  rw [same]
  split at ciphers
  next value found =>
    obtain ⟨inner, shape, lookups⟩ := kept.members ciphers
    exact ⟨inner, .inl (by rw [found, Option.map_some, shape]), lookups⟩
  next missing =>
    obtain rfl := Option.some.inj ciphers
    exact ⟨[], .inr ⟨by rw [missing, Option.map_none], rfl⟩, fun _ => rfl⟩

/-- A document is laid over the defaults field by field. It is refused exactly if some field has no
value of its sort. -/
theorem Kept.overDefaults?_iff (kept : f.Kept json) {document : α}
    {members cipher : List (String × α)} {s : Settings} (top : f.members? document = some members)
    (ciphers : f.cipher? members = some cipher) :
    overDefaults? (json document) = some s ↔
      f.Admits members cipher ∧ s = (f.layer members cipher).settings default := by
  obtain ⟨upper, shape, same⟩ := kept.members top
  obtain ⟨inner, ciphers, lookups⟩ := kept.exists_cipher same ciphers
  rw [overDefaults?, shape, ofJson?_merge ciphers]
  simp only [same, lookups, laid?_map kept.flag, laid?_map kept.text, laid?_map kept.size,
    laid?_eq_some_iff]
  obtain ⟨debug, level, dialect, key, size⟩ := s
  constructor
  · rintro ⟨⟨flag, rfl⟩, ⟨level, rfl⟩, ⟨dialect, rfl⟩, ⟨key, rfl⟩, size, rfl⟩
    exact ⟨⟨flag, level, dialect, key, size⟩, rfl⟩
  · rintro ⟨admits, same⟩
    cases same
    exact ⟨⟨admits.debug, rfl⟩, ⟨admits.logLevel, rfl⟩, ⟨admits.defaultDialect, rfl⟩,
      ⟨admits.defaultKey, rfl⟩, admits.keySize, rfl⟩

end Reading

/-- TOML: entries of tables, and dates as texts. -/
def toml : Format Toml where
  members?
    | .table entries => some entries
    | _ => none
  flag?
    | .bool b => some b
    | _ => none
  text?
    | .string s => some s
    | .moment text => some text
    | _ => none
  size?
    | .int n => if 0 ≤ n && n < 65536 then some n.toNat.toUInt16 else none
    | _ => none

/-- JSON: of several members of one name the last one counts. -/
def json : Format Json where
  members?
    | .object members => some members.reverse
    | _ => none
  flag? := bool?
  text? := string?
  size? := Settings.size?

/-- A number with places is none of the values that are read. -/
theorem read_float {β : Type} (read? : Json → Option β) (x : Double)
    (places : read? (.float x) = none) (nothing : read? .null = none) :
    read? (Toml.toJson (.float x)) = none := by
  unfold Toml.toJson
  split
  · exact places
  · exact nothing

theorem kept_toml : toml.Kept Toml.toJson where
  members {value members} read := by
    cases value with
    | table entries =>
      obtain rfl := Option.some.inj read
      exact ⟨_, rfl, fun name => Toml.find?_toJsonEntries name entries⟩
    | _ => cases read
  flag value := by
    cases value with
    | float x => exact read_float bool? x rfl rfl
    | _ => rfl
  text value := by
    cases value with
    | float x => exact read_float string? x rfl rfl
    | _ => rfl
  size value := by
    cases value with
    | float x => exact read_float Settings.size? x rfl rfl
    | _ => rfl

theorem kept_json : json.Kept Json.lastWins where
  members {value members} read := by
    cases value with
    | object entries =>
      obtain rfl := Option.some.inj read
      exact ⟨_, rfl, fun name => Json.find?_lastWinsMembers name entries⟩
    | _ => cases read
  flag value := by cases value <;> rfl
  text value := by cases value <;> rfl
  size value := by cases value <;> rfl

end Format

theorem ofToml_eq_ok_iff {text : String} {document : Toml} {s : Settings}
    (parsed : Toml.parse? text = some document) :
    ofToml text = .ok s ↔ overDefaults? document.toJson = some s := by
  simp only [ofToml, parsed]
  cases overDefaults? document.toJson <;> simp

theorem ofJsonText_eq_ok_iff {text : String} {document : Json} {s : Settings}
    (parsed : Json.parse? Json.documentDepth text = some document) :
    ofJsonText text = .ok s ↔ overDefaults? document.lastWins = some s := by
  simp only [ofJsonText, parsed]
  cases overDefaults? document.lastWins <;> simp

theorem ofTomlFileWithEnvironment_eq_ok_iff {octets : List UInt8} {text : String}
    {env : Environment} {s : Settings} (decoded : Text.Utf8.decode octets = .ok text) :
    ofTomlFileWithEnvironment (some octets) env = .ok s ↔
      ∃ below, ofToml text = .ok below ∧ below.withEnvironment env = s := by
  simp only [ofTomlFileWithEnvironment, ofTomlFile, Option.map_some, decoded]
  cases ofToml text <;> simp [Except.map]

end Settings

open Settings

/-- Settings from a file and the environment are read field by field. There are some exactly if each
field that the document has is of its sort; and then each field has the value of its variable, or
else that of the document, or else the default. So it is with JSON, without an environment. -/
theorem settings_are_read_by_field :
    (∀ octets text document members cipher env s, Text.Utf8.decode octets = .ok text →
      Toml.parse? text = some document → Format.toml.members? document = some members →
      Format.toml.cipher? members = some cipher →
      (ofTomlFileWithEnvironment (some octets) env = .ok s ↔ Format.toml.Admits members cipher ∧
        s = ((Layer.ofEnvironment env).laidOver (Format.toml.layer members cipher)).settings
          Settings.default)) ∧
    ∀ text document members cipher s, Json.parse? Json.documentDepth text = some document →
      Format.json.members? document = some members → Format.json.cipher? members = some cipher →
      (ofJsonText text = .ok s ↔ Format.json.Admits members cipher ∧
        s = (Format.json.layer members cipher).settings Settings.default) := by
  constructor
  · intro octets text document members cipher env s decoded parsed top ciphers
    rw [ofTomlFileWithEnvironment_eq_ok_iff decoded, Layer.settings_laidOver,
      Layer.settings_ofEnvironment]
    simp only [ofToml_eq_ok_iff parsed, Format.kept_toml.overDefaults?_iff top ciphers]
    constructor
    · rintro ⟨below, ⟨admits, rfl⟩, rfl⟩
      exact ⟨admits, rfl⟩
    · rintro ⟨admits, rfl⟩
      exact ⟨_, ⟨admits, rfl⟩, rfl⟩
  · intro text document members cipher s parsed top ciphers
    rw [ofJsonText_eq_ok_iff parsed]
    exact Format.kept_json.overDefaults?_iff top ciphers

namespace Settings

def wideFile : String :=
  "debug = false\nlog_level = 2024-05-01\nlocales = [1]\n[cipher]\nkey_size = 256\n"

def largeFile : String :=
  "[cipher]\nkey_size = 65536\n"

def levels : String :=
  "\x7b\"log_level\":null,\"log_level\":\"warn\"\x7d"

def environment : Environment :=
  [("SQLWEAVE_DEBUG", "Yes"), ("SQLWEAVE_DIALECT", "sqlite"), ("SQLWEAVE_CIPHER_KEY_SIZE", "65536")]

theorem read?_wideFile : (Toml.parse? wideFile).bind Format.toml.read? =
    some (true, ⟨some false, some "2024-05-01", none, none, some 256⟩) := by
  decide +kernel

theorem read?_largeFile : (Toml.parse? largeFile).bind Format.toml.read? =
    some (false, ⟨none, none, none, none, none⟩) := by
  decide +kernel

theorem read?_levels : (Json.parse? Json.documentDepth levels).bind Format.json.read? =
    some (true, ⟨none, some "warn", none, none, none⟩) := by
  decide +kernel

end Settings

/-- A file and variables are read together, a file with a key size that is too large is refused, and
of two levels the last one counts. -/
theorem files_are_read_with_variables :
    ofTomlFileWithEnvironment (some (Text.Utf8.encode wideFile)) environment =
      .ok ⟨true, "2024-05-01", "sqlite", ⟨"", 256⟩⟩ ∧
    (∀ s, ofTomlFileWithEnvironment (some (Text.Utf8.encode largeFile)) environment ≠ .ok s) ∧
    ofJsonText levels = .ok ⟨true, "warn", "mssql", ⟨"", 128⟩⟩ := by
  obtain ⟨inToml, inJson⟩ := settings_are_read_by_field
  refine ⟨?_, fun s read => ?_, ?_⟩
  · obtain ⟨_, _, _, parsed, top, ciphers, admits, values⟩ :=
      Format.toml.exists_parts read?_wideFile
    refine (inToml _ _ _ _ _ environment _ (Text.Utf8.decode_encode wideFile) parsed top
      ciphers).mpr ⟨admits.mpr rfl, ?_⟩
    rw [values]
    decide +kernel
  · obtain ⟨_, _, _, parsed, top, ciphers, admits, -⟩ := Format.toml.exists_parts read?_largeFile
    have large := inToml _ _ _ _ _ environment s (Text.Utf8.decode_encode largeFile) parsed top
      ciphers
    exact absurd (admits.mp (large.mp read).1) (by decide)
  · obtain ⟨_, _, _, parsed, top, ciphers, admits, values⟩ := Format.json.exists_parts read?_levels
    refine (inJson _ _ _ _ _ parsed top ciphers).mpr ⟨admits.mpr rfl, ?_⟩
    rw [values]
    decide

end PredicateSql
