import PredicateSql.Dialect
import PredicateSql.Schema.Basic

/-!
What is remembered about entities between compilations: rendered column lists, and enumerations by
the property they belong to. A column list is kept as first rendered. An enumeration that is found
on a column is kept unless its key is taken; one that is registered explicitly replaces what was
there.
-/
namespace PredicateSql

structure EnumRegistry where
  entries : List (String × EnumDef)
deriving DecidableEq, Repr

namespace EnumRegistry

def empty : EnumRegistry := ⟨[]⟩

def find? (r : EnumRegistry) (key : String) : Option EnumDef :=
  r.entries.lookup key

def register (r : EnumRegistry) (key : String) (d : EnumDef) : EnumRegistry :=
  ⟨(key, d) :: r.entries.filter (·.1 ≠ key)⟩

/-- The key of a property: the name of the type, a dot and the name of the property. -/
def keyOf {n : Nat} (e : Entity n) (property : String) : String :=
  e.typeName ++ "." ++ property

/-- The enumeration of a property: the one under its key, or else the one of its column, which is
then put under the key. -/
def enumFor {n : Nat} (r : EnumRegistry) (e : Entity n) (property : String) :
    Option EnumDef × EnumRegistry :=
  let key := keyOf e property
  match r.find? key with
  | some d => (some d, r)
  | none =>
    match (e.columnFor? property).bind (·.enumType) with
    | some d => (some d, r.register key d)
    | none => (none, r)

end EnumRegistry

/-- What a column list depends on. -/
structure ColumnKey where
  typeName : String
  table : String
  dialect : Dialect
deriving DecidableEq, Repr

structure ColumnCache where
  entries : List (ColumnKey × List String)
deriving DecidableEq, Repr

def Entity.renderColumns {n : Nat} (e : Entity n) (d : Dialect) : List String :=
  e.columns.map fun c => d.qualifiedColumn (d.tableName e.table) c.column

namespace ColumnCache

def empty : ColumnCache := ⟨[]⟩

/-- The column list of an entity, rendered on first use. -/
def columns {n : Nat} (cache : ColumnCache) (e : Entity n) (d : Dialect) :
    List String × ColumnCache :=
  let key : ColumnKey := ⟨e.typeName, e.table, d⟩
  match cache.entries.lookup key with
  | some columns => (columns, cache)
  | none => (e.renderColumns d, ⟨(key, e.renderColumns d) :: cache.entries⟩)

end ColumnCache

/-- All that is remembered between compilations. -/
structure Registry where
  columns : ColumnCache
  enums : EnumRegistry
deriving DecidableEq, Repr

def Registry.empty : Registry := ⟨.empty, .empty⟩

end PredicateSql
