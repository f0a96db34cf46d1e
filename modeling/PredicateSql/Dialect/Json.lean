import PredicateSql.Dialect
import PredicateSql.Json.Reader

/-!
Dialects as JSON.
-/
namespace PredicateSql.Dialect

def all : List Dialect := [mssql, postgreSql, sqlite]

/-- The name of a dialect in JSON. -/
def jsonName : Dialect → String
  | mssql => "Mssql"
  | postgreSql => "PostgreSql"
  | sqlite => "Sqlite"

def toJson (d : Dialect) : Json :=
  .string d.jsonName

def ofJson? (json : Json) : Option Dialect :=
  json.constantName?.bind fun name => all.find? (·.jsonName = name)

def ofJsonText? (text : String) : Option Dialect :=
  (Json.parse? Json.documentDepth text).bind ofJson?

end PredicateSql.Dialect
