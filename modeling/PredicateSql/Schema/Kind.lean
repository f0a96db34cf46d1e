import PredicateSql.Value.Basic

/-!
Kinds of columns, and the class of literals that each kind is compared with.
-/
namespace PredicateSql

inductive ColumnKind where
  | int | decimal | bool | string | dateTime | guid | enum
deriving DecidableEq, Repr

namespace ColumnKind

def literalClass : ColumnKind → ValueClass
  | int | enum => .numeric
  | decimal => .decimal
  | bool => .bool
  | string => .string
  | dateTime => .date
  | guid => .guid

def name : ColumnKind → String
  | int => "Int"
  | decimal => "Decimal"
  | bool => "Bool"
  | string => "String"
  | dateTime => "DateTime"
  | guid => "Guid"
  | enum => "Enum"

end ColumnKind
end PredicateSql
