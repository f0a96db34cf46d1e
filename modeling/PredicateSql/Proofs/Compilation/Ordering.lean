import PredicateSql.Proofs.Compilation.Conditions

/-!
The ordering of a query and the columns that it is grouped by. The first ordering that is accepted
takes effect, and its column is one that rows are grouped by just where it is a column of the root
itself.
-/
namespace PredicateSql

open Lowering

variable {n : Nat}

/-- The member that a call orders by, and whether the order is descending. -/
def Call.ordering? (call : Call) : Option (MemberPath × Bool) :=
  match call.expr with
  | .modifier m => m.ordering?
  | _ => none

theorem Call.ordering?_of_predicate {call : Call} (predicate : ∀ m, call.expr ≠ .modifier m) :
    call.ordering? = none := by
  unfold ordering?
  split
  next m shown => exact absurd shown (predicate m)
  next => rfl

namespace Compiler

def firstOrdering? (c : Compiler n) (calls : List Call) : Option (MemberPath × Bool) :=
  (c.acceptedCalls calls).findSome? Call.ordering?

/-- The compiler orders by the column of a member, or has no ordering yet. -/
inductive OrdersBy (c : Compiler n) : Option (MemberPath × Bool) → Prop
  | unset (free : c.orderBy = none) : OrdersBy c none
  | member {path descending column}
      (set : c.orderBy = some ⟨column.render c.input.dialect, descending⟩)
      (denotes : Denotes c.input.schema c.joins c.origin path column) :
      OrdersBy c (some (path, descending))

variable {c : Compiler n}

/-- An ordering that is set stays. -/
theorem add_orderBy_of_set (set : c.orderBy ≠ none) (bindings : Bindings) (e : Expr) :
    (c.add bindings e).2.orderBy = c.orderBy := by
  rcases c.add_outcome bindings e with ⟨_, _, rejected, ⟨⟨t, rfl⟩, -, -⟩⟩ | ⟨d, accepted, accepts⟩
  · rw [rejected]
    rfl
  · rw [accepted]
    cases accepts with
    | ordered _ unset => exact absurd unset set
    | _ => rfl

theorem after_orderBy_of_set (set : c.orderBy ≠ none) (calls : List Call) :
    (c.after calls).orderBy = c.orderBy := by
  induction calls generalizing c with
  | nil => rfl
  | cons call rest ih =>
    have kept := c.add_orderBy_of_set set call.bindings call.expr
    rw [after, ih (kept ▸ set), kept]

/-- One call sets the ordering if it is one that is accepted. -/
theorem add_ordersBy (linked : Linked c.input.schema c.input.dialect c.origin c.joins)
    (unset : c.orderBy = none) (call : Call) :
    (c.add call.bindings call.expr).2.OrdersBy (c.firstOrdering? [call]) := by
  rcases c.add_outcome call.bindings call.expr with
    ⟨err, c₁, run, ⟨⟨t, rfl⟩, -, -⟩⟩ | ⟨c₁, run, accepts⟩
  · have nothing : c.firstOrdering? [call] = none := by
      rw [firstOrdering?, acceptedCalls_of_error run, List.findSome?_nil]
    rw [run, nothing]
    exact .unset unset
  · have first : c.firstOrdering? [call] = call.ordering? := by
      rw [firstOrdering?, acceptedCalls_of_ok run, List.findSome?_singleton]
    rw [run, first]
    generalize shown : call.expr = e at accepts
    have modifier : ∀ {m}, e = .modifier m → call.ordering? = m.ordering? := by
      rintro m rfl
      rw [Call.ordering?, shown]
    cases accepts with
    | condition predicate =>
      rw [Call.ordering?_of_predicate (shown ▸ predicate)]
      exact .unset unset
    | ordered ordering _ resolved =>
      rw [modifier rfl, ordering]
      exact .member rfl (resolveColumn_denotes _ linked resolved).2
    | ignored _ set => exact absurd unset set
    | skip | take =>
      rw [modifier rfl]
      exact .unset unset

/-- An ordering stays in effect when more calls are made. -/
theorem OrdersBy.after {path : MemberPath} {descending : Bool}
    (linked : Linked c.input.schema c.input.dialect c.origin c.joins)
    (orders : c.OrdersBy (some (path, descending))) (calls : List Call) :
    (c.after calls).OrdersBy (some (path, descending)) := by
  cases orders with
  | member set denotes =>
    obtain ⟨_, built⟩ := c.after_builds linked calls
    have input := c.after_input calls
    have kept := c.after_orderBy_of_set (by simp [set]) calls
    refine .member (kept.trans (by rw [input, set])) ?_
    rw [origin, input]
    exact denotes.mono built.grows.joins

/-- The first ordering that is accepted takes effect. -/
theorem after_ordersBy (linked : Linked c.input.schema c.input.dialect c.origin c.joins)
    (unset : c.orderBy = none) (calls : List Call) :
    (c.after calls).OrdersBy (c.firstOrdering? calls) := by
  induction calls generalizing c with
  | nil => exact .unset unset
  | cons call rest ih =>
    have first := c.add_ordersBy linked unset call
    have linked' := c.after_linked linked [call]
    have split : c.firstOrdering? (call :: rest) = (c.firstOrdering? [call]).or
        ((c.add call.bindings call.expr).2.firstOrdering? rest) := by
      rw [firstOrdering?, c.acceptedCalls_cons, List.findSome?_append]
      rfl
    rw [after, split]
    generalize c.firstOrdering? [call] = ordering at first
    cases ordering with
    | none =>
      cases first with
      | unset free => exact ih linked' free
    | some ordering => exact first.after linked' rest

/-- The ordering that takes effect, if there is one, is by a member of the root itself. -/
def OrdersByRoot (c : Compiler n) (calls : List Call) : Prop :=
  ∀ ordering ∈ c.firstOrdering? calls, ordering.1.navigation = []

instance (c : Compiler n) (calls : List Call) : Decidable (c.OrdersByRoot calls) :=
  inferInstanceAs (Decidable (∀ ordering ∈ c.firstOrdering? calls, _))

end Compiler

/-- The column list that is remembered for the entity, if there is one, is that of its columns. -/
def ColumnCache.Lists (cache : ColumnCache) (e : Entity n) (d : Dialect) : Prop :=
  (cache.columns e d).1 = e.renderColumns d

theorem Entity.mem_renderColumns {e : Entity n} {column : Column} (declared : column ∈ e.columns)
    (d : Dialect) :
    d.qualifiedColumn (d.tableName e.table) column.column ∈ e.renderColumns d :=
  List.mem_map_of_mem declared

/-- A navigation that leaves the root leads to the rows of a join. -/
theorem Leads.exists_join {schema : Schema n} {joins : List JoinClause} {origin rows : Origin n}
    {p : List String} (leads : Leads schema joins origin p rows) (leaves : p ≠ []) :
    ∃ join ∈ joins, join.aliasName = rows.qualifier := by
  have name := leads.name
  rw [nameOf?_of_ne_nil leaves] at name
  obtain ⟨join, found, same⟩ := Option.map_eq_some_iff.mp name
  exact ⟨join, List.mem_of_find?_eq_some found, same⟩

/-- The alias has no dot in it, and the name of the table neither is the alias nor begins with it
and a dot. -/
def JoinClause.ApartFrom (join : JoinClause) (table : String) : Prop :=
  '.' ∉ join.aliasName.toList ∧ ¬ join.aliasName.toList ++ ['.'] <+: table.toList ++ ['.']

/-- A column behind such an alias is no column of the table. -/
theorem JoinClause.ApartFrom.qualifiedColumn_ne {join : JoinClause} {table : String}
    (apart : join.ApartFrom table) (d : Dialect) (column other : String) :
    d.qualifiedColumn join.aliasName column ≠ d.qualifiedColumn table other := by
  obtain ⟨dotless, apart⟩ := apart
  intro same
  have chars : (join.aliasName.toList ++ ['.']) ++ (d.quoteIdent column).toList =
      (table.toList ++ ['.']) ++ (d.quoteIdent other).toList := by
    simpa [Dialect.qualifiedColumn] using congrArg String.toList same
  have aliasFirst : join.aliasName.toList ++ ['.'] <+: (table.toList ++ ['.']) ++
      (d.quoteIdent other).toList :=
    chars ▸ List.prefix_append _ _
  rcases List.prefix_or_prefix_of_prefix aliasFirst (List.prefix_append _ _) with shorter | longer
  · exact apart shorter
  · rcases List.prefix_concat_iff.mp longer with whole | inside
    · exact apart (whole ▸ List.prefix_rfl)
    · exact dotless (inside.mem (by simp))

namespace CompiledQuery

/-- No alias of a join begins the name of the root's table. -/
def AliasesApart (q : CompiledQuery) : Prop :=
  ∀ join ∈ q.joins, join.ApartFrom q.table

def OrdersByGrouped (q : CompiledQuery) : Prop :=
  q.paging.orderBy.column ∈ q.columns

instance (q : CompiledQuery) : Decidable q.AliasesApart :=
  inferInstanceAs (Decidable (∀ join ∈ q.joins, _ ∧ _))

instance (q : CompiledQuery) : Decidable q.OrdersByGrouped :=
  inferInstanceAs (Decidable (_ ∈ q.columns))

end CompiledQuery
namespace Denotes

variable {schema : Schema n} {joins : List JoinClause} {origin : Origin n} {path : MemberPath}
  {column : ColumnRef} {e : Entity n} {d : Dialect}

/-- A member of the root is one of its columns. -/
theorem mem_renderColumns (denotes : Denotes schema joins origin path column)
    (here : path.navigation = []) (entity : schema.entity origin.entity = e)
    (name : origin.qualifier = d.tableName e.table) :
    column.render d ∈ e.renderColumns d := by
  obtain ⟨rows, declared, leads, found, qualifier, same, -⟩ := denotes.rows
  rw [here] at leads
  have root : origin.entity = rows.entity := Option.some.inj leads.entity
  have start : origin.qualifier = rows.qualifier := Option.some.inj leads.name
  rw [← root, entity] at found
  rw [ColumnRef.render, same, qualifier, ← start, name]
  exact Entity.mem_renderColumns (List.mem_of_find?_eq_some found) d

/-- Any other member is behind an alias, so not among the columns of a table that is told apart from
it. -/
theorem not_mem_renderColumns (denotes : Denotes schema joins origin path column)
    (leaves : path.navigation ≠ []) (apart : ∀ join ∈ joins, join.ApartFrom (d.tableName e.table)) :
    column.render d ∉ e.renderColumns d := by
  obtain ⟨rows, -, leads, -, qualifier, -⟩ := denotes.rows
  obtain ⟨join, held, name⟩ := leads.exists_join leaves
  intro member
  obtain ⟨other, -, same⟩ := List.mem_map.mp member
  rw [ColumnRef.render, qualifier, ← name] at same
  exact (apart join held).qualifiedColumn_ne d _ _ same.symm

end Denotes

/-- The lines of the statement that it groups and orders by. -/
theorem CompiledQuery.selectSql_lines (q : CompiledQuery) :
    ∃ above, q.selectSql = String.intercalate "\n" (above ++
      ["GROUP BY " ++ String.intercalate ", " q.columns, "ORDER BY " ++ q.paging.orderBy.sql,
        q.dialect.pagingClause q.paging.skip q.paging.take]) ++ ";" := by
  refine ⟨q.fromLines ("SELECT " ++ String.intercalate ", " q.columns ++ " FROM " ++ q.table), ?_⟩
  rw [selectSql, pagedSelect, selectLines, List.append_assoc]
  rfl

/-- The statement groups by the columns of the root, and it orders by one of them if no ordering
leaves the root. An ordering that follows a navigation is by a column that is missing there. -/
theorem root_orderings_are_grouped (input : CompilerInput n) (registry : Registry)
    (calls : List Call) {q : CompiledQuery}
    (finished : ((Compiler.start input registry).after calls).finish.1 = .ok q)
    (own : registry.columns.Lists (input.schema.entity input.root) input.dialect) :
    let start := Compiler.start input registry
    (∃ above, q.selectSql = String.intercalate "\n" (above ++
      ["GROUP BY " ++ String.intercalate ", " q.columns, "ORDER BY " ++ q.paging.orderBy.sql,
        q.dialect.pagingClause q.paging.skip q.paging.take]) ++ ";") ∧
    (start.OrdersByRoot calls → q.OrdersByGrouped) ∧
    (q.AliasesApart → q.OrdersByGrouped → start.OrdersByRoot calls) := by
  intro start
  have kept : (start.after calls).input = input := start.after_input calls
  have cached : (start.after calls).registry.columns = registry.columns := start.after_columns calls
  have origin : (start.after calls).origin = start.origin := by
    rw [Compiler.origin, kept]
    rfl
  obtain ⟨key, declared, table, columns, joins, -, ordering⟩ := Compiler.finish_ok finished
  rw [kept] at declared columns ordering
  rw [cached, own] at columns
  rw [origin] at table ordering
  have orders := start.after_ordersBy (.nil _ _ _) rfl calls
  refine ⟨q.selectSql_lines, ?_⟩
  rw [CompiledQuery.OrdersByGrouped, CompiledQuery.AliasesApart, Compiler.OrdersByRoot]
  rw [columns, ordering, table, joins]
  generalize start.firstOrdering? calls = first at orders
  cases orders with
  | unset free =>
    rw [free]
    refine ⟨fun _ => Entity.mem_renderColumns declared _, fun _ _ ordering chosen => ?_⟩
    exact absurd chosen (Option.not_mem_none ordering)
  | member set denotes =>
    rw [set, kept]
    rw [kept, origin] at denotes
    constructor
    · intro root
      exact denotes.mem_renderColumns (root _ rfl) rfl rfl
    · intro apart grouped chosen same
      obtain rfl := Option.some.inj same
      by_contra leaves
      exact denotes.not_mem_renderColumns leaves apart grouped

namespace Bookshelf

def bookColumns : List String :=
  ["Books.\"Id\"", "Books.\"ShelfId\"", "Books.\"Title\"", "Books.\"Lent\""]

/-- Books with their shelves, in some order. -/
def shelved (fragments : List String) (ordering : OrderBy) : CompiledQuery where
  dialect := .postgreSql
  table := "Books"
  columns := bookColumns
  primaryKey := "Books.\"Id\""
  joins := [⟨"Shelf", "$0", .left, "Shelves", [⟨⟨"$0", "Id"⟩, ⟨"Books", "ShelfId"⟩⟩]⟩]
  fragments := fragments
  paging := ⟨0, none, ordering⟩

def titleOrder : List Call :=
  [⟨.empty, shelfFull⟩, ⟨.empty, .modifier (.orderByDescending (.ofText "Title"))⟩,
    ⟨.empty, .modifier (.orderBy (.ofText "Shelf.Full"))⟩]

def shelfOrder : List Call :=
  [⟨.empty, .modifier (.orderBy (.ofText "Shelf.Full"))⟩]

end Bookshelf

theorem titled_books_are_grouped :
    let q := Bookshelf.shelved ["($0.\"Full\" = true)"] ⟨"Books.\"Title\"", true⟩
    (Bookshelf.books.after Bookshelf.titleOrder).finish.1 = .ok q ∧
      ColumnCache.empty.Lists Bookshelf.book .postgreSql ∧ q.AliasesApart ∧ q.OrdersByGrouped := by
  intro q
  have finished : (Bookshelf.books.after Bookshelf.titleOrder).finish.1 = .ok q := rfl
  have root : Bookshelf.books.OrdersByRoot Bookshelf.titleOrder := by decide +kernel
  obtain ⟨-, grouped, -⟩ :=
    root_orderings_are_grouped Bookshelf.books.input .empty Bookshelf.titleOrder finished rfl
  exact ⟨finished, rfl, by decide, grouped root⟩

/-- Books ordered by their shelves are not grouped by them. -/
theorem shelves_of_books_are_not_grouped :
    let q := Bookshelf.shelved [] ⟨"$0.\"Full\"", false⟩
    (Bookshelf.books.after Bookshelf.shelfOrder).finish.1 = .ok q ∧
      ColumnCache.empty.Lists Bookshelf.book .postgreSql ∧ ¬ q.OrdersByGrouped := by
  intro q
  have finished : (Bookshelf.books.after Bookshelf.shelfOrder).finish.1 = .ok q := rfl
  have ungrouped : ¬ q.OrdersByGrouped := by decide
  exact ⟨finished, rfl, ungrouped⟩

end PredicateSql
