import PredicateSql.Expr.Operator
import PredicateSql.Schema.Kind
import PredicateSql.Text.Utf8

/-!
Errors as causes, each with its wording. Expressions and paths occur in causes as they are shown to
the reader.
-/
namespace PredicateSql

/-- An expression that has no place where it stands. -/
inductive Unsupported where
  | unknownMethod (name : String)
  | emptyPath
  | collectionNavigation (segment : String)
  | navigationAsValue (path : String)
  | notLiteral (expr : String)
  | memberNotBoolean (path : String)
  | valueNotBoolean (expr : String)
  | nestedModifier (expr : String)
  | notOperand (expr : String)
  | takesNoArguments (method : Method)
  | needsMember (method : Method)
  | needsText (method : Method) (column : String) (kind : ColumnKind)
  | needsOneArgument (method : Method) (given : Nat)
  | notCollection (expr : String)
  | needsMemberArgument (expr : String)
  | containsReceiver
  | needsOneMember
  | anyReceiver
  | anyArguments
  | singleValued (path : String)
deriving DecidableEq, Repr

/-- A name or a key that the schema lacks. -/
inductive MissingMetadata where
  | primaryKey (entity : String)
  | navigation (entity segment : String)
  | property (entity property : String)
  | foreignKeyBetween (owner target path : String)
  | foreignKeyTo (child owner path : String)
deriving DecidableEq, Repr

/-- A literal that could not be put into its final form. -/
inductive Unresolved where
  | enumUnknown (key : String)
  | ordinal (ordinal : Int64) (enum : String)
  | enumValue (value enum : String)
  | enumPending (key : String)
  | encryptionPending
deriving DecidableEq, Repr

/-- Octets that are no ciphertext of the cipher at hand. -/
inductive CipherFault where
  | truncated (length least : Nat)
  | unaligned (length : Nat)
  | padding
  | notUtf8 (fault : Text.Utf8.Fault)
deriving DecidableEq, Repr

inductive ConfigurationFault where
  | dialect (name : String)
  | blankPassphrase
  | noDefaultKey
  | keySize (bits : Nat)
  | tomlMalformed
  | jsonMalformed
  | tomlMistyped
  | jsonMistyped
  | unreadableToml
deriving DecidableEq, Repr

inductive Error where
  | unsupported (cause : Unsupported)
  | unbound (name : String)
  | unresolved (cause : Unresolved)
  | metadata (cause : MissingMetadata)
  | cipher (cause : CipherFault)
  | configuration (cause : ConfigurationFault)
deriving DecidableEq, Repr

def Unsupported.message : Unsupported → String
  | unknownMethod name => s!"Method '{name}' is not supported"
  | emptyPath => "Empty member path"
  | collectionNavigation segment =>
    s!"Collection navigation '{segment}' can only be queried through Any"
  | navigationAsValue path => s!"Navigation '{path}' cannot be used as a value"
  | notLiteral expr => s!"'{expr}' is not a value"
  | memberNotBoolean path => s!"Member '{path}' is not boolean and cannot be used as a predicate"
  | valueNotBoolean expr => s!"Value '{expr}' is not boolean and cannot be used as a predicate"
  | nestedModifier expr => s!"Modifier '{expr}' is only allowed at the top level of a query"
  | notOperand expr => s!"'{expr}' cannot be used as a value"
  | takesNoArguments method => s!"'{method.name}' takes no arguments"
  | needsMember method => s!"'{method.name}' must be called on a member"
  | needsText method column kind =>
    s!"'{method.name}' requires a string member, '{column}' is {kind.name}"
  | needsOneArgument method given => s!"'{method.name}' expects exactly one argument, got {given}"
  | notCollection expr => s!"'Contains' receiver '{expr}' is not a collection"
  | needsMemberArgument expr =>
    s!"'Contains' on a collection expects a member argument, got '{expr}'"
  | containsReceiver => "'Contains' must be called on a string member or a collection value"
  | needsOneMember => "'IsNullOrEmpty' expects exactly one member"
  | anyReceiver => "'Any' must be called on a collection navigation"
  | anyArguments => "'Any' takes at most one predicate"
  | singleValued path => s!"'Any' requires a collection navigation, '{path}' is single-valued"

def MissingMetadata.message : MissingMetadata → String
  | primaryKey entity => s!"Entity '{entity}' has no primary key"
  | navigation entity segment => s!"Entity '{entity}' has no navigation '{segment}'"
  | property entity missing => s!"Entity '{entity}' has no property '{missing}'"
  | foreignKeyBetween owner target path =>
    s!"No foreign key between '{owner}' and '{target}' for navigation '{path}'"
  | foreignKeyTo child owner path =>
    s!"Entity '{child}' has no foreign key to '{owner}' for navigation '{path}'"

def Unresolved.message : Unresolved → String
  | enumUnknown key => s!"no enum type registered for '{key}'"
  | ordinal n enum => s!"{n.toInt} is not a value of enum '{enum}'"
  | enumValue value enum => s!"'{value}' is not a value of enum '{enum}'"
  | enumPending key => s!"enum value for '{key}' was never resolved"
  | encryptionPending => "encrypted value was never resolved"

def CipherFault.message : CipherFault → String
  | truncated length least => s!"ciphertext truncated: {length} bytes, expected at least {least}"
  | unaligned length => s!"ciphertext length {length} is not a multiple of the block size"
  | padding => "invalid padding; ciphertext is corrupt or the key is wrong"
  | notUtf8 fault => s!"decrypted value is not UTF-8: {fault.message}"

def ConfigurationFault.message : ConfigurationFault → String
  | dialect name => s!"Unknown dialect '{name}'"
  | blankPassphrase => "Cipher passphrase must not be empty"
  | noDefaultKey =>
    "Column is cipher-annotated without a key and no default cipher key is configured"
  | keySize bits => s!"Unsupported cipher key size {bits}; expected 128 or 256"
  | tomlMalformed => "Failed to parse TOML"
  | jsonMalformed => "Failed to parse JSON"
  | tomlMistyped => "Failed to deserialize settings from TOML"
  | jsonMistyped => "Failed to deserialize settings from JSON"
  | unreadableToml => "Failed to read TOML file"

namespace Error

def message : Error → String
  | unsupported cause => "Unsupported construct: " ++ cause.message
  | unbound name => s!"Unbound value: Captured value '{name}' is not bound"
  | unresolved cause => "Unresolved token: " ++ cause.message
  | metadata cause => "Metadata error: " ++ cause.message
  | cipher cause => "Cipher error: " ++ cause.message
  | configuration cause => "Configuration error: " ++ cause.message

/-- Whether the error lies in the predicate or the schema, and not in a cipher or the settings. -/
def isAboutQuery : Error → Bool
  | unsupported _ | unbound _ | unresolved _ | metadata _ => true
  | cipher _ | configuration _ => false

end Error
end PredicateSql
