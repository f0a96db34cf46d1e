import PredicateSql.Dialect

/-!
Joins, kept as data until they are written: the table, its alias and the columns that must be equal.
-/
namespace PredicateSql

inductive JoinType where
  | inner | left
deriving DecidableEq, Repr

def JoinType.keyword : JoinType → String
  | inner => "INNER JOIN"
  | left => "LEFT JOIN"

structure QualifiedColumn where
  qualifier : String
  column : String
deriving DecidableEq, Repr

def QualifiedColumn.sql (c : QualifiedColumn) (d : Dialect) : String :=
  d.qualifiedColumn c.qualifier c.column

structure ColumnEquation where
  left : QualifiedColumn
  right : QualifiedColumn
deriving DecidableEq, Repr

def ColumnEquation.sql (e : ColumnEquation) (d : Dialect) : String :=
  e.left.sql d ++ " = " ++ e.right.sql d

structure JoinClause where
  /-- The navigation path from the root, segments joined by dots. -/
  path : String
  aliasName : String
  joinType : JoinType
  /-- The table name as it is written. -/
  table : String
  equations : List ColumnEquation
deriving DecidableEq, Repr

def JoinClause.sql (j : JoinClause) (d : Dialect) : String :=
  j.joinType.keyword ++ " " ++ j.table ++ " " ++ j.aliasName ++ " ON " ++
    String.intercalate " AND " (j.equations.map (·.sql d))

/-- The test that a related row exists: the rows of a child table, joined with another copy of the
table they belong to, whose key must be that of the outer row. -/
structure ExistsClause where
  childTable : String
  childAlias : String
  correlation : JoinClause
  /-- Joins that the condition needs. -/
  joins : List JoinClause
  condition : Option String
deriving DecidableEq, Repr

def ExistsClause.sql (e : ExistsClause) (d : Dialect) : String :=
  let lines :=
    ("SELECT 1 FROM " ++ e.childTable ++ " " ++ e.childAlias) :: e.correlation.sql d ::
      e.joins.map (·.sql d) ++ (e.condition.map ("WHERE " ++ ·)).toList
  "EXISTS (" ++ String.intercalate "\n" lines ++ ")"

end PredicateSql
