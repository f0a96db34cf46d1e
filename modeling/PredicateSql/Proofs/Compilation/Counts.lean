import PredicateSql.Proofs.Compilation.Calls
import PredicateSql.Proofs.Meaning.Counting

/-!
The selection, the count and the test for existence of a query. They have the same table and the
same lines of joins and conditions, and the selection groups by columns of the root with its key
among them.
-/
namespace PredicateSql

variable {n : Nat}

namespace CompiledQuery

variable (q : CompiledQuery)

/-- The table of the root with all joins and conditions. -/
def source : Source where
  table := q.table
  lines := q.joins.map (·.sql q.dialect) ++ (q.whereSql?.map ("WHERE " ++ ·)).toList

def pagingSql : String :=
  "\nORDER BY " ++ q.paging.orderBy.sql ++ "\n" ++
    q.dialect.pagingClause q.paging.skip q.paging.take

theorem fromLines_source (head : String) :
    q.fromLines (head ++ " FROM " ++ q.table) = q.source.fromLines head :=
  rfl

/-- The selection is a grouping with a page. -/
theorem selectSql_eq {columns : List QualifiedColumn}
    (listed : q.columns = columns.map (·.sql q.dialect)) :
    q.selectSql = q.source.groupsSql q.dialect columns ++ q.pagingSql ++ ";" := by
  let list := String.intercalate ", " q.columns
  -- The last two lines of the statement are those of the page.
  let grouped := q.source.fromLines ("SELECT " ++ list) ++ ["GROUP BY " ++ list]
  have lines : q.selectLines ++ [q.dialect.pagingClause q.paging.skip q.paging.take] =
      grouped ++ ["ORDER BY " ++ q.paging.orderBy.sql,
        q.dialect.pagingClause q.paging.skip q.paging.take] := by
    rw [selectLines, q.fromLines_source, List.append_assoc, List.append_assoc]
    rfl
  have whole : q.source.groupsSql q.dialect columns = String.intercalate "\n" grouped := by
    rw [Source.groupsSql, ← listed]
  rw [selectSql, pagedSelect, lines, whole,
    String.intercalate_append_of_ne_nil (by simp [grouped]) (by simp), pagingSql]
  simp only [String.intercalate_cons_cons, String.intercalate_singleton, String.append_assoc]
  rfl

theorem countSql_eq {column : QualifiedColumn} (keyed : q.primaryKey = column.sql q.dialect) :
    q.countSql = q.source.countSql q.dialect column := by
  have head : "SELECT COUNT(DISTINCT " ++ q.primaryKey ++ ") AS items FROM " ++ q.table =
      "SELECT COUNT(DISTINCT " ++ column.sql q.dialect ++ ") AS items" ++ " FROM " ++ q.table := by
    rw [keyed]
    simp only [String.append_assoc]
    rfl
  rw [countSql, head]
  rfl

theorem existsSql_eq : q.existsSql = q.source.existsSql :=
  rfl

end CompiledQuery

/-- A query selects the columns of the root, and counts by the first one that is declared as its
key. -/
theorem Compiler.finish_columns {c : Compiler n} {q : CompiledQuery}
    (cold : c.registry.columns = .empty) (finished : c.finish.1 = .ok q) :
    let root := c.input.schema.entity c.input.root
    ∃ key, root.primaryKey = .ok key ∧ q.table = c.input.dialect.tableName root.table ∧
      q.columns = ((root.columns.map (·.column)).map (QualifiedColumn.mk q.table)).map
      (·.sql q.dialect) ∧
      q.primaryKey = (QualifiedColumn.mk q.table key.column).sql q.dialect := by
  intro root
  simp only [finish, cold] at finished
  split at finished
  · cases finished
  next key found =>
    obtain rfl := Except.ok.inj finished
    refine ⟨key, found, rfl, ?_, rfl⟩
    rw [List.map_map, List.map_map]
    rfl

/-- The three statements of a query agree on every database where the primary key of the root is
one. There are as many rows in the selection, before a page is cut out, as the count says, and the
test for existence is true if that is not zero. This is so for every meaning of the lines of joins
and conditions, also if they repeat rows of the root. -/
theorem statements_agree (input : CompilerInput n) {registry : Registry}
    (cold : registry.columns = .empty) (calls : List Call) {q : CompiledQuery}
    (finished : ((Compiler.start input registry).after calls).finish.1 = .ok q) :
    let root := input.schema.entity input.root
    ∃ key, root.primaryKey = .ok key ∧ q.table = input.dialect.tableName root.table ∧
      let columns := (root.columns.map (·.column)).map (QualifiedColumn.mk q.table)
      q.selectSql = q.source.groupsSql q.dialect columns ++ q.pagingSql ++ ";" ∧
      q.countSql = q.source.countSql q.dialect ⟨q.table, key.column⟩ ∧
      q.existsSql = q.source.existsSql ∧
      ∀ {V : Type} [DecidableEq V] (meaning : LineMeaning V) (db : Database V),
      IsKeyOf key.column (db q.table) →
        (q.source.groups meaning db columns).card =
        q.source.count meaning db ⟨q.table, key.column⟩ ∧
        (q.source.HasRow meaning db ↔ 0 < q.source.count meaning db ⟨q.table, key.column⟩) := by
  intro root
  have kept := (Compiler.start input registry).after_input calls
  have cached := ((Compiler.start input registry).after_columns calls).trans cold
  obtain ⟨key, found, table, columns, counted⟩ := Compiler.finish_columns cached finished
  rw [kept] at found table columns
  have listed : key.column ∈ root.columns.map (·.column) :=
    List.mem_map_of_mem (Entity.mem_of_primaryKey found)
  refine ⟨key, found, table, q.selectSql_eq columns, q.countSql_eq counted, q.existsSql_eq, ?_⟩
  intro V _ meaning db keyed
  exact ⟨Source.card_groups (s := q.source) keyed listed, Source.hasRow_iff (s := q.source) keyed⟩

namespace Bookshelf

/-- Shelves that lead to a book, by the column of the book that refers to the shelf. -/
def shelvesWithBook : CompilerInput 2 :=
  { books.input with
    schema := ⟨#v[book, { shelf with navigations := [⟨"Book", books.input.root, false⟩] }]⟩
    root := Fin.last 1 }

/-- The shelves with a lent book. -/
def lending : CompiledQuery where
  dialect := .postgreSql
  table := "Shelves"
  columns := ["Shelves.\"Id\"", "Shelves.\"Full\""]
  primaryKey := "Shelves.\"Id\""
  joins := [⟨"Book", "$0", .left, "Books", [⟨⟨"$0", "ShelfId"⟩, ⟨"Shelves", "Id"⟩⟩]⟩]
  fragments := ["($0.\"Lent\" = true)"]
  paging := ⟨0, none, ⟨"Shelves.\"Id\"", false⟩⟩

/-- Two shelves, and two lent books on the first one. -/
def twoLent : Database Nat
  | "Shelves" => [fun c => [("Id", 1)].lookup c, fun c => [("Id", 2)].lookup c]
  | "Books" =>
    [fun c => [("ShelfId", 1), ("Lent", 1)].lookup c,
      fun c => [("ShelfId", 1), ("Lent", 1)].lookup c]
  | _ => []

/-- Shelves with their lent books. -/
def withLent : LineMeaning Nat := fun _ shelves =>
  let found (shelf : Row Nat) : List (Rows Nat) :=
    (joined twoLent lending.joins (.only "Shelves" shelf)).filter
      (QualifiedColumn.value · ⟨"$0", "Lent"⟩ = some 1)
  .ofList (shelves.attach.flatMap fun shelf =>
    (found shelf.val).map (⟨shelf.val, shelf.property, ·⟩))

end Bookshelf

/-- The shelf with two lent books is in two rows, and it is selected and counted once. -/
theorem shelf_of_two_lent_books_counts_once :
    let q := Bookshelf.lending
    let id : QualifiedColumn := ⟨"Shelves", "Id"⟩
    ((Compiler.start Bookshelf.shelvesWithBook .empty).after
      [⟨.empty, .member (.ofText "Book.Lent")⟩]).finish.1 = .ok q ∧
      IsKeyOf "Id" (Bookshelf.twoLent "Shelves") ∧
      (q.source.rows Bookshelf.withLent Bookshelf.twoLent).card = 2 ∧
      q.source.count Bookshelf.withLent Bookshelf.twoLent id = 1 ∧
      (q.source.groups Bookshelf.withLent Bookshelf.twoLent [id, ⟨"Shelves", "Full"⟩]).card = 1 ∧
      q.source.HasRow Bookshelf.withLent Bookshelf.twoLent := by
  intro q id
  have finished : ((Compiler.start Bookshelf.shelvesWithBook .empty).after
      [⟨.empty, .member (.ofText "Book.Lent")⟩]).finish.1 = .ok q := rfl
  have keyed : IsKeyOf "Id" (Bookshelf.twoLent "Shelves") := by
    constructor
    · decide +kernel
    · decide +kernel
  have repeated : (q.source.rows Bookshelf.withLent Bookshelf.twoLent).card = 2 := by decide +kernel
  have once : q.source.count Bookshelf.withLent Bookshelf.twoLent id = 1 := by decide +kernel
  obtain ⟨key, found, -, -, -, -, agree⟩ :=
    statements_agree Bookshelf.shelvesWithBook rfl _ finished
  obtain rfl := Except.ok.inj found
  obtain ⟨groups, exist⟩ := agree Bookshelf.withLent Bookshelf.twoLent keyed
  have positive : 0 < q.source.count Bookshelf.withLent Bookshelf.twoLent id := by
    rw [once]; exact Nat.one_pos
  exact ⟨finished, keyed, repeated, once, groups.trans once, exist.mpr positive⟩

end PredicateSql
