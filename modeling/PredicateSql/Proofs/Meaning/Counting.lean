import Mathlib.Data.Multiset.Dedup
import Mathlib.Data.Multiset.Filter
import PredicateSql.Proofs.Meaning.Database

/-!
Statements about the rows of a table that joins and conditions leave, where a join may repeat them.
To group by columns of the table and to count the different values of its key undo that in two ways,
which agree: rows of the table are the same if their keys are, and different if they are in
different groups.
-/
namespace PredicateSql

variable {V : Type}

/-- A row of a table, with the rows that joins put beside it. -/
structure JoinedRow (table : List (Row V)) where
  row : Row V
  member : row ∈ table
  others : Rows V

/-- The value of a column, where the name stands for the row of the table. -/
def JoinedRow.value {table : List (Row V)} (r : JoinedRow table) (name : String)
    (c : QualifiedColumn) : Option V :=
  c.value (r.others.set name r.row)

/-- What lines of joins and conditions make of a table. -/
abbrev LineMeaning (V : Type) := List String → (table : List (Row V)) → Multiset (JoinedRow table)

structure IsKeyOf (column : String) (table : List (Row V)) : Prop where
  given : ∀ row ∈ table, row column ≠ none
  different : (table.map (· column)).Nodup

/-- A table and the lines of joins and conditions below it. -/
structure Source where
  table : String
  lines : List String

namespace Source

variable (s : Source)

def fromLines (head : String) : List String :=
  (head ++ " FROM " ++ s.table) :: s.lines

/-- The statement that groups by columns and selects them, up to the ordering. -/
def groupsSql (d : Dialect) (columns : List QualifiedColumn) : String :=
  let list := String.intercalate ", " (columns.map (·.sql d))
  String.intercalate "\n" (s.fromLines ("SELECT " ++ list) ++ ["GROUP BY " ++ list])

def countSql (d : Dialect) (column : QualifiedColumn) : String :=
  String.intercalate "\n" (s.fromLines ("SELECT COUNT(DISTINCT " ++ column.sql d ++ ") AS items"))

def existsSql : String :=
  "EXISTS (" ++ String.intercalate "\n" (s.fromLines "SELECT 1") ++ ")"

variable (meaning : LineMeaning V) (db : Database V)

def rows : Multiset (JoinedRow (db s.table)) :=
  meaning s.lines (db s.table)

def HasRow : Prop :=
  s.rows meaning db ≠ 0

variable [DecidableEq V]

/-- The rows of the grouped selection. Nulls are in one group. -/
def groups (columns : List QualifiedColumn) : Multiset (List (Option V)) :=
  ((s.rows meaning db).map fun r => columns.map (r.value s.table)).dedup

/-- The number of different values. Nulls do not count. -/
def count (column : QualifiedColumn) : Nat :=
  ((s.rows meaning db).filterMap fun r => r.value s.table column).dedup.card

end Source

section Keys

variable {table : List (Row V)} {column : String}

theorem JoinedRow.value_own (r : JoinedRow table) (name column : String) :
    r.value name ⟨name, column⟩ = r.row column := by
  simp [value, QualifiedColumn.value]

theorem IsKeyOf.row_eq (key : IsKeyOf column table) {r r' : JoinedRow table}
    (same : r.row column = r'.row column) :
    r.row = r'.row :=
  List.inj_on_of_nodup_map key.different r.member r'.member same

/-- Rows are in one group of columns with the key among them if they have one key. -/
theorem IsKeyOf.values_eq_iff (key : IsKeyOf column table) {columns : List String}
    (listed : column ∈ columns) (name : String) (r r' : JoinedRow table) :
    (columns.map (QualifiedColumn.mk name)).map (r.value name) =
        (columns.map (QualifiedColumn.mk name)).map (r'.value name) ↔
      r.value name ⟨name, column⟩ = r'.value name ⟨name, column⟩ := by
  simp only [List.map_map, List.map_inj_left, Function.comp_apply, JoinedRow.value_own]
  constructor
  · exact fun same => same column listed
  · intro same c _
    rw [key.row_eq same]

end Keys

/-- Two ways to tell elements apart that agree find the same number of different ones. -/
theorem card_dedup_map_congr {α β γ : Type} [DecidableEq β] [DecidableEq γ] {f : α → β} {g : α → γ}
    (agree : ∀ a a', f a = f a' ↔ g a = g a') (bag : Multiset α) :
    (bag.map f).dedup.card = (bag.map g).dedup.card := by
  induction bag using Multiset.induction_on with
  | empty => rfl
  | cons a rest ih =>
    -- An element is there again on both sides or on neither.
    have found : f a ∈ rest.map f ↔ g a ∈ rest.map g := by
      simp only [Multiset.mem_map, agree]
    by_cases again : f a ∈ rest.map f
    · rw [Multiset.map_cons, Multiset.map_cons, Multiset.dedup_cons_of_mem again,
        Multiset.dedup_cons_of_mem (found.mp again), ih]
    · rw [Multiset.map_cons, Multiset.map_cons, Multiset.dedup_cons_of_notMem again,
        Multiset.dedup_cons_of_notMem (mt found.mpr again), Multiset.card_cons,
        Multiset.card_cons, ih]

namespace Source

variable {s : Source} {meaning : LineMeaning V} {db : Database V} {key : String}

/-- No row is without a key. -/
theorem map_some_keys (keyed : IsKeyOf key (db s.table)) :
    ((s.rows meaning db).filterMap fun r => r.value s.table ⟨s.table, key⟩).map some =
      (s.rows meaning db).map fun r => r.value s.table ⟨s.table, key⟩ := by
  rw [Multiset.map_filterMap, ← Multiset.filterMap_eq_map]
  congr 1
  funext r
  rw [r.value_own, Function.comp_apply, r.value_own]
  obtain ⟨v, given⟩ := Option.ne_none_iff_exists'.mp (keyed.given r.row r.member)
  rw [given, Option.map_some]

variable [DecidableEq V]

/-- There are as many groups as there are keys, if the key is among the columns. -/
theorem card_groups (keyed : IsKeyOf key (db s.table)) {columns : List String}
    (listed : key ∈ columns) :
    (s.groups meaning db (columns.map (QualifiedColumn.mk s.table))).card =
      s.count meaning db ⟨s.table, key⟩ := by
  have agree := card_dedup_map_congr (keyed.values_eq_iff listed s.table) (s.rows meaning db)
  rwa [← map_some_keys keyed, Multiset.dedup_map_of_injective (Option.some_injective V),
    Multiset.card_map] at agree

/-- There is a row if there is a key. -/
theorem hasRow_iff (keyed : IsKeyOf key (db s.table)) :
    s.HasRow meaning db ↔ 0 < s.count meaning db ⟨s.table, key⟩ := by
  have none_iff : ((s.rows meaning db).filterMap fun r => r.value s.table ⟨s.table, key⟩) = 0 ↔
      s.rows meaning db = 0 := by
    rw [← Multiset.map_eq_zero (f := some), map_some_keys keyed, Multiset.map_eq_zero]
  rw [HasRow, count, Multiset.card_pos, Ne, Ne, Multiset.dedup_eq_zero, none_iff]

end Source
end PredicateSql
