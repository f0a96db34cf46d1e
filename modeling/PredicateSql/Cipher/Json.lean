import PredicateSql.Cipher.Field
import PredicateSql.Json.Reader

/-!
Cipher annotations and key sizes as JSON.
-/
namespace PredicateSql

def KeySize.toJson (size : KeySize) : Json :=
  .string size.name

def KeySize.ofJson? (json : Json) : Option KeySize :=
  json.constantName?.bind fun name => KeySize.all.find? (·.name = name)

def KeySize.ofJsonText? (text : String) : Option KeySize :=
  (Json.parse? Json.documentDepth text).bind ofJson?

namespace CipherSpec

def toJson (spec : CipherSpec) : Json :=
  .object [("key", .string spec.key), ("key_size", spec.keySize.toJson)]

/-- Reads an annotation as it is written: an object with both parts, each given once, or an array of
the two. Other members are passed over. -/
def ofWritten? (written : Json.Written) : Option CipherSpec := do
  let (key, size) ← match written with
    | .object members => do
      let members ← Json.Written.named? members
      some (← Json.single? "key" members, ← Json.single? "key_size" members)
    | .array [key, size] => some (key, size)
    | _ => none
  match key with
  | .string key =>
    some ⟨← Json.Piece.text? [] key, ← KeySize.ofJson? (← size.toJson? Json.documentDepth)⟩
  | _ => none

def ofJsonText? (text : String) : Option CipherSpec :=
  (Json.Written.ofText? text).bind ofWritten?

end CipherSpec
end PredicateSql
