import PredicateSql.Calendar.Reader
import PredicateSql.Json.Printer
import PredicateSql.Json.Reader
import PredicateSql.Value.Basic

/-!
Values as JSON: an object with the type of the value and, except for null, the content. An array of
type and content stands for the same.

When the type comes first, the content is read as it is written, by the rules of its type. Content
that comes before its type is kept until the type is known. Kept content must have a value as JSON,
and the values of a kept list have more ways to give their type.
-/
namespace PredicateSql.Value

def tagged (typeName : String) (content : Json) : Json :=
  .object [("type", .string typeName), ("value", content)]

mutual

/-- The JSON form of a value. -/
def toJson : Value → Json
  | null => .object [("type", .string "Null")]
  | bool b => tagged "Bool" (.bool b)
  | int n => tagged "Int" (.int n.toInt)
  | float x => tagged "Float" (.float x)
  | string s => tagged "String" (.string s)
  | date d => tagged "Date" (.string d.text)
  | dateTime m => tagged "DateTime" (.string (m.text "T"))
  | dateTimeUtc m => tagged "DateTimeTz" (.string (m.text "T" ++ "Z"))
  | time t => tagged "Time" (.string t.text)
  | uuid u => tagged "Uuid" (.string u.text)
  | list items => tagged "List" (.array (toJsonItems items))

def toJsonItems : List Value → List Json
  | [] => []
  | item :: rest => toJson item :: toJsonItems rest

end

def int64? (n : Int) : Option Int64 :=
  if Int64.minValue.toInt ≤ n && n ≤ Int64.maxValue.toInt then some (Int64.ofInt n) else none

/-- A scalar of the named type. -/
def scalarOfJson? (typeName : String) (content : Json) : Option Value :=
  match typeName, content with
  | "Bool", .bool b => some (bool b)
  | "Int", .int n => (int64? n).map int
  | "Float", .float x => some (float x)
  | "Float", .int n => some (float (.ofInt n))
  | "String", .string s => some (string s)
  | "Date", .string s => (Date.ofText? s).map date
  | "DateTime", .string s => (Moment.ofText? s).map dateTime
  | "DateTimeTz", .string s => (Moment.ofOffsetText? s).map dateTimeUtc
  | "Time", .string s => (Time.ofText? s).map time
  | "Uuid", .string s => (Uuid.ofText? s).map uuid
  | _, _ => none

def typeNames : List String :=
  ["Null", "Bool", "Int", "Float", "String", "Date", "DateTime", "DateTimeTz", "Time",
    "Uuid", "List"]

/-- The type and the content among the members of an object. Other members are passed over, but
neither part may be given twice. -/
def parts? {α : Type} (members : List (String × α)) : Option (α × Option α) :=
  if Json.countName "value" members ≤ 1 then
    (Json.single? "type" members).map fun tag => (tag, Json.find? "value" members)
  else none

/-! ### Kept content -/

/-- The name of a type in an object: a constant, which may also be an object around an empty one. -/
def keptName? : Json → Option String
  | .object [(name, .object [])] => some name
  | tag => tag.constantName?

/-- The name of a type in an array: a string, or the place of the type among all types. -/
def placedName? : Json → Option String
  | .string name => some name
  | .int n => if 0 ≤ n then typeNames[n.toNat]? else none
  | _ => none

/-- The name of the type, and the content if there is any. -/
def keptParts? : Json → Option (String × Option Json)
  | .object members => do
    let (tag, content) ← parts? members
    some (← keptName? tag, content)
  | .array [tag, content] => (placedName? tag).map fun typeName => (typeName, some content)
  | _ => none

/-- Reads the content of a value of the named type; `item?` reads the values of a list. -/
def ofContent? (item? : Json → Option Value) (typeName : String) (content : Option Json) :
    Option Value :=
  match typeName, content with
  | "Null", none => some null
  | "Null", some .null => some null
  | "List", some (.array items) => (items.mapM item?).map list
  | _, some content => scalarOfJson? typeName content
  | _, none => none

/-- Reads a kept value nested at most `depth` deep. -/
def ofJsonWithin : Nat → Json → Option Value
  | 0, _ => none
  | depth + 1, json => do
    let (typeName, content) ← keptParts? json
    ofContent? (ofJsonWithin depth) typeName content

def ofJson? (json : Json) : Option Value :=
  ofJsonWithin json.depth json

/-! ### Content as it is written -/

/-- Whether a member of the one name stands before every member of the other. -/
def comesBefore {α : Type} (first second : String) (members : List (String × α)) : Bool :=
  match members.find? fun m => m.1 = first || m.1 = second with
  | some m => m.1 = first
  | none => false

/-- The name of the type, the content if there is any, and whether the content is kept. -/
def writtenParts? (depth : Nat) : Json.Written → Option (String × Option Json.Written × Bool)
  | .object members => do
    let members ← Json.Written.named? members
    let (tag, content) ← parts? members
    some (← (← tag.toJson? depth).constantName?, content, comesBefore "value" "type" members)
  | .array [.string name, content] =>
    (Json.Piece.text? [] name).map fun typeName => (typeName, some content, false)
  | _ => none

/-- Reads a value nested at most `depth` deep. -/
def ofWrittenWithin : Nat → Json.Written → Option Value
  | 0, _ => none
  | depth + 1, written => do
    match ← writtenParts? depth written with
    | ("List", some (.array items), false) =>
      match depth with
      | 0 => none
      | depth + 1 => (items.mapM (ofWrittenWithin depth)).map list
    | (typeName, none, _) => ofContent? ofJson? typeName none
    | (typeName, some content, _) => ofContent? ofJson? typeName (← content.toJson? depth)

def ofJsonText? (text : String) : Option Value :=
  (Json.Written.ofText? text).bind (ofWrittenWithin Json.documentDepth)

end PredicateSql.Value
