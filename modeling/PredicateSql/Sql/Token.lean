import PredicateSql.Dialect
import PredicateSql.Schema.Basic

/-!
Pieces of a condition under construction. A literal stays a value until it is known which column it
is compared with: that column decides whether it is quoted, replaced by the name of an enumeration
value, or encrypted.
-/
namespace PredicateSql

/-- A column behind its table name or alias, with all that literals need to know about it. -/
structure ColumnRef where
  qualifier : String
  column : String
  kind : ColumnKind
  /-- The key of the enumeration whose names the column holds. -/
  stringify : Option String
  cipher : Option CipherSpec
deriving DecidableEq, Repr

namespace ColumnRef

def render (c : ColumnRef) (d : Dialect) : String :=
  d.qualifiedColumn c.qualifier c.column

/-- Whether literals compared with the column are text. -/
def isTextual (c : ColumnRef) : Bool :=
  c.kind = .string || c.stringify.isSome

end ColumnRef

/-- Where a `LIKE` pattern is open. -/
inductive Wildcard where
  | none | leading | trailing | both
deriving DecidableEq, Repr

namespace Wildcard

def apply (w : Wildcard) (text : String) : String :=
  match w with
  | none => text
  | leading => "%" ++ text
  | trailing => text ++ "%"
  | both => "%" ++ text ++ "%"

end Wildcard

inductive Token where
  /-- Finished text. -/
  | sql (text : String)
  | column (column : ColumnRef)
  /-- A literal; the hint is the kind of the column it is bound to. -/
  | deferred (value : Value) (wildcard : Wildcard) (hint : Option ColumnKind)
  /-- A literal to be replaced by the name of an enumeration value. -/
  | stringify (value : Value) (wildcard : Wildcard) (key : String)
  /-- A literal to be encrypted. -/
  | cipher (value : Value) (wildcard : Wildcard) (spec : CipherSpec)
  /-- The test that a boolean operand is true, or false when inverted. -/
  | bool (invert : Bool)

end PredicateSql
