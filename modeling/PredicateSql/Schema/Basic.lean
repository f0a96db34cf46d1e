import PredicateSql.Cipher.Field
import PredicateSql.Schema.Kind

/-!
Entities, their columns and the ways between them. A schema is a fixed number of entities; a
navigation leads to one of them by its place, while a foreign key names the type it refers to.
Nothing is checked for duplicates: every lookup takes the first match.
-/
namespace PredicateSql

/-- An enumeration: its name, and the name of each ordinal. -/
structure EnumDef where
  name : String
  variants : List (Int64 × String)
deriving DecidableEq, Repr

namespace EnumDef

def nameOf? (d : EnumDef) (ordinal : Int64) : Option String :=
  (d.variants.find? (·.1 = ordinal)).map (·.2)

def hasName (d : EnumDef) (name : String) : Bool :=
  d.variants.any (·.2 = name)

end EnumDef

structure Column where
  property : String
  /-- The name in the database. -/
  column : String
  kind : ColumnKind
  isPrimaryKey : Bool
  /-- The type that a foreign key refers to. -/
  foreignKey : Option String
  enumType : Option EnumDef
  /-- Whether the column holds the names of its enumeration and not the ordinals. -/
  stringify : Bool
  cipher : Option CipherSpec
deriving DecidableEq, Repr

/-- A named way to an entity, or to any number of them. -/
structure Navigation (n : Nat) where
  property : String
  target : Fin n
  many : Bool
deriving DecidableEq, Repr

structure Entity (n : Nat) where
  typeName : String
  table : String
  columns : List Column
  navigations : List (Navigation n)
deriving DecidableEq, Repr

namespace Entity

variable {n : Nat}

def primaryKey (e : Entity n) : Except Error Column :=
  match e.columns.find? (·.isPrimaryKey) with
  | some column => .ok column
  | none => .error (.metadata (.primaryKey e.typeName))

theorem mem_of_primaryKey {e : Entity n} {key : Column} (found : e.primaryKey = .ok key) :
    key ∈ e.columns := by
  unfold primaryKey at found
  split at found
  next first =>
    obtain rfl := Except.ok.inj found
    exact List.mem_of_find?_eq_some first
  · cases found

def columnFor? (e : Entity n) (property : String) : Option Column :=
  e.columns.find? (·.property = property)

def navigationFor? (e : Entity n) (property : String) : Option (Navigation n) :=
  e.navigations.find? (·.property = property)

def foreignKeyTo? (e target : Entity n) : Option Column :=
  e.columns.find? (·.foreignKey = some target.typeName)

/-- Entities are the same when their types have one name. -/
def isSame (e other : Entity n) : Bool :=
  e.typeName = other.typeName

end Entity

structure Schema (n : Nat) where
  entities : Vector (Entity n) n

def Schema.entity {n : Nat} (s : Schema n) (i : Fin n) : Entity n :=
  s.entities[i]

end PredicateSql
