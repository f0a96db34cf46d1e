import PredicateSql.Error
import PredicateSql.Text.Blank
import PredicateSql.Text.LowerCase

/-!
SQL dialects: how each spells identifiers, literals and paging.
-/
namespace PredicateSql

inductive Dialect where
  | mssql | postgreSql | sqlite
deriving DecidableEq, Repr

namespace Dialect

def name : Dialect → String
  | mssql => "mssql"
  | postgreSql => "postgresql"
  | sqlite => "sqlite"

/-- Reads the name of a dialect, in any letter case and with blanks around it. -/
def ofText (s : String) : Except Error Dialect :=
  let word := Text.lowerCase (Text.trim s)
  if word ∈ ["mssql", "sqlserver", "tsql"] then .ok mssql
  else if word ∈ ["postgresql", "postgres", "pg"] then .ok postgreSql
  else if word ∈ ["sqlite", "sqllight", "sqlite3"] then .ok sqlite
  else .error (.configuration (.dialect word))

def boolLiteral : Dialect → Bool → String
  | postgreSql, b => if b then "true" else "false"
  | _, b => if b then "1" else "0"

/-- An identifier in the quotes of the dialect. -/
def quoteIdent (d : Dialect) (name : String) : String :=
  match d with
  | postgreSql => "\"" ++ name ++ "\""
  | mssql | sqlite => "[" ++ name ++ "]"

def unbracket (c : Char) : Char :=
  if c = '[' || c = ']' then '"' else c

/-- A table name. Plain names stay as they are; bracketed ones take the quotes of the dialect. -/
def tableName (d : Dialect) (table : String) : String :=
  match d with
  | postgreSql =>
    if '[' ∈ table.toList then String.ofList (table.toList.map unbracket) else table
  | mssql | sqlite => table

def qualifiedColumn (d : Dialect) (qualifier column : String) : String :=
  qualifier ++ "." ++ d.quoteIdent column

/-- The characters of a string literal between its quotes: a quote is written twice. -/
def doubleQuotes : List Char → List Char
  | [] => []
  | c :: cs => if c = '\'' then '\'' :: '\'' :: doubleQuotes cs else c :: doubleQuotes cs

/-- A string literal; all dialects agree on it. -/
def stringLiteral (_ : Dialect) (text : String) : String :=
  "'" ++ String.ofList (doubleQuotes text.toList) ++ "'"

/-- The clause that skips `skip` rows and keeps at most `take` of the rest. -/
def pagingClause (d : Dialect) (skip : UInt64) (take : Option UInt64) : String :=
  match d, take with
  | sqlite, some take => s!"LIMIT {skip.toNat},{take.toNat}"
  | sqlite, none => s!"LIMIT {skip.toNat},-1"
  | _, some take => s!"OFFSET {skip.toNat} ROWS FETCH NEXT {take.toNat} ROWS ONLY"
  | _, none => s!"OFFSET {skip.toNat} ROWS"

end Dialect
end PredicateSql
