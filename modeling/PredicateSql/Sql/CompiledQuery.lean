import PredicateSql.Sql.Join

/-!
The statements of a compiled query. They share their joins and conditions and differ in what they
select; the one that selects columns groups by the same columns, so that joins do not repeat rows.
-/
namespace PredicateSql

structure OrderBy where
  column : String
  descending : Bool
deriving DecidableEq, Repr

def OrderBy.sql (o : OrderBy) : String :=
  o.column ++ (if o.descending then " DESC" else " ASC")

structure Paging where
  skip : UInt64
  /-- The most rows to return; `none` is without bound. -/
  take : Option UInt64
  orderBy : OrderBy
deriving DecidableEq, Repr

structure CompiledQuery where
  dialect : Dialect
  table : String
  columns : List String
  primaryKey : String
  joins : List JoinClause
  /-- One condition for each predicate. -/
  fragments : List String
  paging : Paging
deriving DecidableEq, Repr

namespace CompiledQuery

def whereSql? (q : CompiledQuery) : Option String :=
  if q.fragments.isEmpty then none else some (String.intercalate " AND " q.fragments)

/-- The lines of a statement from its first line to its conditions. -/
def fromLines (q : CompiledQuery) (head : String) : List String :=
  head :: q.joins.map (·.sql q.dialect) ++ (q.whereSql?.map ("WHERE " ++ ·)).toList

/-- The lines that select columns, up to the ordering. -/
def selectLines (q : CompiledQuery) : List String :=
  let columns := String.intercalate ", " q.columns
  q.fromLines ("SELECT " ++ columns ++ " FROM " ++ q.table) ++
    ["GROUP BY " ++ columns, "ORDER BY " ++ q.paging.orderBy.sql]

/-- The selection with its paging, as a part of other statements. -/
def pagedSelect (q : CompiledQuery) : String :=
  String.intercalate "\n"
    (q.selectLines ++ [q.dialect.pagingClause q.paging.skip q.paging.take])

def selectSql (q : CompiledQuery) : String :=
  q.pagedSelect ++ ";"

/-- The statement that selects the first row. -/
def firstSql (q : CompiledQuery) : String :=
  match q.dialect with
  | .mssql => "SELECT TOP(1) * FROM (" ++ q.pagedSelect ++ ") AS [RESULT]"
  | .postgreSql | .sqlite => String.intercalate "\n" q.selectLines ++ "\nLIMIT 1"

/-- The statement that counts matching rows of the root, each once. -/
def countSql (q : CompiledQuery) : String :=
  String.intercalate "\n"
    (q.fromLines ("SELECT COUNT(DISTINCT " ++ q.primaryKey ++ ") AS items FROM " ++ q.table))

def existsSql (q : CompiledQuery) : String :=
  "EXISTS (" ++ String.intercalate "\n" (q.fromLines ("SELECT 1 FROM " ++ q.table)) ++ ")"

end CompiledQuery
end PredicateSql
