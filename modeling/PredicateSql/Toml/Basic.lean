import PredicateSql.Json.Basic

/-!
TOML values, and the same data as JSON. JSON has no dates and no infinite numbers: a date becomes
its text and such a number becomes null.
-/
namespace PredicateSql

inductive Toml where
  | string (value : String)
  | int (value : Int)
  | float (value : Double)
  | bool (value : Bool)
  /-- A date, a time or both, in its written form. -/
  | moment (text : String)
  | array (items : List Toml)
  | table (entries : List (String × Toml))

namespace Toml

mutual

def toJson : Toml → Json
  | string s => .string s
  | int n => .int n
  | float x => if x.isFinite then .float x else .null
  | bool b => .bool b
  | moment text => .string text
  | array items => .array (toJsonItems items)
  | table entries => .object (toJsonEntries entries)

def toJsonItems : List Toml → List Json
  | [] => []
  | item :: rest => toJson item :: toJsonItems rest

def toJsonEntries : List (String × Toml) → List (String × Json)
  | [] => []
  | (key, value) :: rest => (key, toJson value) :: toJsonEntries rest

end

end Toml
end PredicateSql
