import PredicateSql.Sql.Token

/-!
Literals in SQL, and the two transformations a literal may go through before it is written.
-/
namespace PredicateSql

def ValueClass.isQuoted : ValueClass → Bool
  | .string | .date | .guid => true
  | _ => false

namespace Value

/-- A scalar. It is quoted when its own class or that of its column asks for it. -/
def renderScalar (d : Dialect) (wildcard : Wildcard) (hint : Option ColumnKind) (v : Value) :
    String :=
  let bound := match hint with
    | some kind => kind.literalClass
    | none => v.valueClass
  if bound.isQuoted || v.valueClass.isQuoted then d.stringLiteral (wildcard.apply v.text)
  else v.text

mutual

/-- A literal; the items of a list are separated by commas. -/
def render (d : Dialect) (wildcard : Wildcard) (hint : Option ColumnKind) : Value → String
  | .null => "NULL"
  | .bool b => d.boolLiteral b
  | .list items => String.intercalate "," (renderItems d wildcard hint items)
  | v => renderScalar d wildcard hint v

def renderItems (d : Dialect) (wildcard : Wildcard) (hint : Option ColumnKind) :
    List Value → List String
  | [] => []
  | item :: rest => render d wildcard hint item :: renderItems d wildcard hint rest

end

mutual

/-- Replaces ordinals by the names of an enumeration; names must be declared ones. -/
def resolveEnum (d : EnumDef) : Value → Except Error Value
  | .null => .ok .null
  | .int n =>
    match d.nameOf? n with
    | some name => .ok (.string name)
    | none => .error (.unresolved (.ordinal n d.name))
  | .string s =>
    if d.hasName s then .ok (.string s) else .error (.unresolved (.enumValue s d.name))
  | .list items => (resolveEnumItems d items).map .list
  | v => .error (.unresolved (.enumValue v.text d.name))

def resolveEnumItems (d : EnumDef) : List Value → Except Error (List Value)
  | [] => .ok []
  | item :: rest => do
    let item ← resolveEnum d item
    let rest ← resolveEnumItems d rest
    .ok (item :: rest)

end

mutual

/-- Encrypts the text of every scalar but null, and opens the pattern outside the ciphertext. -/
def encrypt (cipher : FieldCipher) (wildcard : Wildcard) : Value → Value
  | .null => .null
  | .list items => .list (encryptItems cipher wildcard items)
  | v => .string (wildcard.apply (cipher.encryptText v.text))

def encryptItems (cipher : FieldCipher) (wildcard : Wildcard) : List Value → List Value
  | [] => []
  | item :: rest => encrypt cipher wildcard item :: encryptItems cipher wildcard rest

end

end Value
end PredicateSql
