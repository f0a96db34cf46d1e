import PredicateSql.Proofs.Condition.Derivation
import PredicateSql.Proofs.Quoting.Literals
import PredicateSql.Proofs.Quoting.Pieces

/-!
Names without marks. A mark that is in no name of a table or column and in no alias is not in the
joins and the columns of a predicate either.
-/
namespace PredicateSql

open Lowering

variable {n : Nat}

structure Schema.PlainNames (schema : Schema n) : Prop where
  tables : ∀ i, Unquoted (schema.entity i).table
  columns : ∀ i, ∀ column ∈ (schema.entity i).columns, Unquoted column.column

/-- No quote is in any name that a lowering writes. -/
structure LoweringContext.PlainNames (context : LoweringContext n) : Prop where
  schema : context.schema.PlainNames
  aliases : ∀ i, Unquoted (context.aliases i)

def JoinClause.IsPlain (d : Dialect) (j : JoinClause) : Prop :=
  Unquoted j.aliasName ∧ Unquoted (j.sql d)

def Progress.IsPlain (d : Dialect) (s : Progress) : Prop :=
  ∀ join ∈ s.joins, join.IsPlain d

structure Schema.NamesLack (mark : Char) (schema : Schema n) : Prop where
  tables : ∀ i, Lacks mark (schema.entity i).table
  columns : ∀ i, ∀ column ∈ (schema.entity i).columns, Lacks mark column.column

structure LoweringContext.NamesLack (mark : Char) (context : LoweringContext n) : Prop where
  schema : context.schema.NamesLack mark
  aliases : ∀ i, Lacks mark (context.aliases i)

def JoinClause.TextLacks (mark : Char) (d : Dialect) (j : JoinClause) : Prop :=
  Lacks mark j.aliasName ∧ Lacks mark (j.sql d)

def Progress.JoinsLack (mark : Char) (d : Dialect) (s : Progress) : Prop :=
  ∀ join ∈ s.joins, join.TextLacks mark d

theorem LoweringContext.PlainNames.lack {context : LoweringContext n} (names : context.PlainNames) :
    context.NamesLack '\'' :=
  ⟨⟨names.schema.tables, names.schema.columns⟩, names.aliases⟩

section Texts

variable {mark : Char} (isMark : mark ∈ marks)

include isMark

theorem Dialect.lacks_tableName (d : Dialect) {table : String} (plain : Lacks mark table) :
    Lacks mark (d.tableName table) := by
  have brackets : mark ∉ table.toList.map unbracket := by
    intro member
    obtain ⟨c, held, same⟩ := List.mem_map.mp member
    unfold unbracket at same
    split at same
    · have none : '"' ∉ marks := by decide
      exact none (same ▸ isMark)
    · exact plain (same ▸ held)
  cases d with
  | postgreSql =>
    simp only [tableName]
    split
    · exact lacks_ofList.mpr brackets
    · exact plain
  | _ => exact plain

theorem Dialect.lacks_qualifiedColumn (d : Dialect) {qualifier column : String}
    (owner : Lacks mark qualifier) (name : Lacks mark column) :
    Lacks mark (d.qualifiedColumn qualifier column) := by
  have words : Unmarked "." ∧ Unmarked "\"" ∧ Unmarked "[" ∧ Unmarked "]" := by decide
  obtain ⟨point, quote, left, right⟩ := words
  cases d <;> simp [qualifiedColumn, quoteIdent, owner, name, point mark isMark, quote mark isMark,
    left mark isMark, right mark isMark]

theorem JoinClause.lacks_sql (d : Dialect) {j : JoinClause} (table : Lacks mark j.table)
    (name : Lacks mark j.aliasName) (equations : ∀ e ∈ j.equations, Lacks mark (e.sql d)) :
    Lacks mark (j.sql d) := by
  have keyword : Unmarked j.joinType.keyword := by cases j.joinType <;> decide
  have words : Unmarked " " ∧ Unmarked " ON " ∧ Unmarked " AND " := by decide
  obtain ⟨blank, on, and⟩ := words
  have all : Lacks mark (String.intercalate " AND " (j.equations.map (·.sql d))) := by
    refine Lacks.intercalate (and mark isMark) fun text member => ?_
    obtain ⟨e, held, rfl⟩ := List.mem_map.mp member
    exact equations e held
  simp [JoinClause.sql, keyword mark isMark, blank mark isMark, on mark isMark, table, name, all]

theorem ColumnEquation.lacks_sql (d : Dialect) {e : ColumnEquation}
    (left : Lacks mark e.left.qualifier ∧ Lacks mark e.left.column)
    (right : Lacks mark e.right.qualifier ∧ Lacks mark e.right.column) : Lacks mark (e.sql d) := by
  have sign : Unmarked " = " := by decide
  simp [ColumnEquation.sql, QualifiedColumn.sql, sign mark isMark,
    d.lacks_qualifiedColumn isMark left.1 left.2, d.lacks_qualifiedColumn isMark right.1 right.2]

end Texts

namespace Schema.NamesLack

variable {mark : Char} {schema : Schema n} {i j : Fin n} {column : Column}

theorem foreignKey (names : schema.NamesLack mark)
    (found : (schema.entity i).foreignKeyTo? (schema.entity j) = some column) :
    Lacks mark column.column :=
  names.columns i column (List.mem_of_find?_eq_some found)

theorem primaryKey (names : schema.NamesLack mark)
    (found : (schema.entity i).primaryKey = .ok column) :
    Lacks mark column.column :=
  names.columns i column (Entity.mem_of_primaryKey found)

theorem linkColumns (names : schema.NamesLack mark) {path : String} {columns : String × String}
    (linked : PredicateSql.linkColumns (schema.entity i) (schema.entity j) path = .ok columns) :
    Lacks mark columns.1 ∧ Lacks mark columns.2 := by
  unfold PredicateSql.linkColumns at linked
  split at linked
  next fk reference =>
    cases key : (schema.entity j).primaryKey with
    | error e => simp [key, Except.map] at linked
    | ok column =>
      simp only [key, Except.map, Except.ok.injEq] at linked
      subst linked
      exact ⟨names.primaryKey key, names.foreignKey reference⟩
  · split at linked
    next fk reference =>
      cases key : (schema.entity i).primaryKey with
      | error e => simp [key, Except.map] at linked
      | ok column =>
        simp only [key, Except.map, Except.ok.injEq] at linked
        subst linked
        exact ⟨names.foreignKey reference, names.primaryKey key⟩
    · cases linked

end Schema.NamesLack

section Lowering

variable {mark : Char} (isMark : mark ∈ marks) {context : LoweringContext n} {s t : Progress}

include isMark

theorem step_lacks (names : context.NamesLack mark) {owner next : Origin n} {path segment : String}
    (start : s.JoinsLack mark context.dialect) (outer : Lacks mark owner.qualifier)
    (run : step context owner path segment s = (.ok next, t)) :
    t.JoinsLack mark context.dialect ∧ Lacks mark next.qualifier := by
  obtain ⟨navigation, -, -, ⟨join, found, rfl, rfl⟩ | ⟨-, columns, linked, rfl, rfl⟩⟩ :=
    (step_ok context).mp run
  · exact ⟨start, (start join (List.mem_of_find?_eq_some found)).1⟩
  · have name := names.aliases s.issued
    refine ⟨?_, name⟩
    intro join member
    rcases List.mem_append.mp member with old | new
    · exact start join old
    · obtain rfl := List.mem_singleton.mp new
      obtain ⟨inner, outerColumn⟩ := names.schema.linkColumns linked
      refine ⟨name, JoinClause.lacks_sql isMark _ ?_ name ?_⟩
      · exact Dialect.lacks_tableName isMark _ (names.schema.tables _)
      · intro e member
        obtain rfl := List.mem_singleton.mp member
        exact ColumnEquation.lacks_sql isMark _ ⟨name, inner⟩ ⟨outer, outerColumn⟩

theorem walk_lacks (names : context.NamesLack mark) {walked segments : List String}
    {owner next : Origin n} (start : s.JoinsLack mark context.dialect)
    (outer : Lacks mark owner.qualifier)
    (run : walk context walked owner segments s = (.ok next, t)) :
    t.JoinsLack mark context.dialect ∧ Lacks mark next.qualifier := by
  induction segments generalizing walked owner s with
  | nil =>
    obtain ⟨rfl, rfl⟩ := pure_ok.mp run
    exact ⟨start, outer⟩
  | cons segment rest ih =>
    obtain ⟨middle, u, stepped, others⟩ := bind_ok.mp run
    obtain ⟨between, qualifier⟩ := step_lacks isMark names start outer stepped
    exact ih between qualifier others

theorem resolveColumn_lacks (names : context.NamesLack mark) {origin : Origin n} {path : MemberPath}
    {c : ColumnRef} (start : s.JoinsLack mark context.dialect) (outer : Lacks mark origin.qualifier)
    (run : resolveColumn context origin path s = (.ok c, t)) :
    t.JoinsLack mark context.dialect ∧ Lacks mark (c.render context.dialect) := by
  obtain ⟨-, owner, u, column, found, walked, declared, looked, rfl⟩ :=
    (resolveColumn_ok context).mp run
  obtain ⟨reached, qualifier⟩ := walk_lacks isMark names start outer walked
  have kept : t.joins = u.joins := by
    split at looked
    · obtain ⟨-, rfl⟩ := enumFor_ok.mp looked
      rfl
    · obtain ⟨-, rfl⟩ := pure_ok.mp looked
      rfl
  refine ⟨fun join member => reached join (kept ▸ member), ?_⟩
  have name := names.schema.columns _ column (List.mem_of_find?_eq_some declared)
  exact Dialect.lacks_qualifiedColumn isMark _ qualifier name

theorem emptinessColumn_lacks (names : context.NamesLack mark) {origin : Origin n}
    {receiver : Option Expr} {args : List Expr} {c : ColumnRef}
    (start : s.JoinsLack mark context.dialect) (outer : Lacks mark origin.qualifier)
    (run : emptinessColumn context origin receiver args s = (.ok c, t)) :
    t.JoinsLack mark context.dialect ∧ Lacks mark (c.render context.dialect) := by
  obtain ⟨e, path, -, -, resolved⟩ := (emptinessColumn_ok context).mp run
  exact resolveColumn_lacks isMark names start outer resolved

theorem readOperand_lacks (names : context.NamesLack mark) {origin : Origin n} {e : Expr}
    {o : Operand} (start : s.JoinsLack mark context.dialect) (outer : Lacks mark origin.qualifier)
    (run : readOperand context origin e s = (.ok o, t)) :
    t.JoinsLack mark context.dialect ∧ ∀ c ∈ o.column?, Lacks mark (c.render context.dialect) := by
  rcases (readOperand_ok context).mp run with ⟨path, c, -, resolved, rfl⟩ | ⟨v, -, rfl, rfl⟩ |
    ⟨receiver, args, c, -, resolved, rfl⟩
  · obtain ⟨reached, name⟩ := resolveColumn_lacks isMark names start outer resolved
    exact ⟨reached, fun c member => Option.some.inj member ▸ name⟩
  · exact ⟨start, nofun⟩
  · obtain ⟨reached, name⟩ := emptinessColumn_lacks isMark names start outer resolved
    exact ⟨reached, fun c member => Option.some.inj member ▸ name⟩

/-- The lines of an existence test, up to its condition. -/
theorem subquery_lacks (names : context.NamesLack mark) {origin : Origin n} {path : MemberPath}
    {q : Subquery n} (start : s.JoinsLack mark context.dialect)
    (outer : Lacks mark origin.qualifier) (run : subquery context origin path s = (.ok q, t)) :
    t.JoinsLack mark context.dialect ∧ Lacks mark q.childAlias ∧ ∀ joins : List JoinClause,
      (∀ join ∈ joins, join.TextLacks mark context.dialect) →
        ∀ line ∈ q.lines context.schema context.dialect joins, Lacks mark line := by
  obtain ⟨u, walked, -, -, -, linked, keyed, child, owner, rfl⟩ := (subquery_ok context).mp run
  obtain ⟨reached, qualifier⟩ := walk_lacks isMark names start outer walked
  have childName : Lacks mark q.childAlias := child ▸ names.aliases _
  have ownerName : Lacks mark q.ownerAlias := owner ▸ names.aliases _
  have key := names.schema.primaryKey keyed
  have foreignKey := names.schema.foreignKey linked
  refine ⟨reached, childName, fun joins plain line member => ?_⟩
  rcases List.mem_cons.mp member with rfl | member
  · have words : Unmarked "SELECT 1 FROM " ∧ Unmarked " " := by decide
    obtain ⟨select, blank⟩ := words
    have table :=
      Dialect.lacks_tableName isMark context.dialect (names.schema.tables q.navigation.target)
    simp [Subquery.clause, select mark isMark, blank mark isMark, table, childName]
  · rcases List.mem_cons.mp member with rfl | member
    · refine JoinClause.lacks_sql isMark _ ?_ ownerName ?_
      · exact Dialect.lacks_tableName isMark _ (names.schema.tables _)
      · simp only [Subquery.clause, List.forall_mem_cons]
        refine ⟨?_, ?_, List.forall_mem_nil _⟩
        · exact ColumnEquation.lacks_sql isMark _ ⟨ownerName, key⟩ ⟨childName, foreignKey⟩
        · exact ColumnEquation.lacks_sql isMark _ ⟨ownerName, key⟩ ⟨qualifier, key⟩
    · obtain ⟨join, held, rfl⟩ := List.mem_map.mp member
      exact (plain join held).2

end Lowering

section Quotes

variable {context : LoweringContext n} {s t : Progress} (names : context.PlainNames)

include names

theorem resolveColumn_unquoted {origin : Origin n} {path : MemberPath} {c : ColumnRef}
    (start : s.IsPlain context.dialect) (outer : Unquoted origin.qualifier)
    (run : resolveColumn context origin path s = (.ok c, t)) :
    t.IsPlain context.dialect ∧ Unquoted (c.render context.dialect) :=
  resolveColumn_lacks isMark_quote names.lack start outer run

theorem readOperand_unquoted {origin : Origin n} {e : Expr} {o : Operand}
    (start : s.IsPlain context.dialect) (outer : Unquoted origin.qualifier)
    (run : readOperand context origin e s = (.ok o, t)) :
    t.IsPlain context.dialect ∧ ∀ c ∈ o.column?, Unquoted (c.render context.dialect) :=
  readOperand_lacks isMark_quote names.lack start outer run

theorem subquery_unquoted {origin : Origin n} {path : MemberPath} {q : Subquery n}
    (start : s.IsPlain context.dialect) (outer : Unquoted origin.qualifier)
    (run : subquery context origin path s = (.ok q, t)) :
    t.IsPlain context.dialect ∧ Unquoted q.childAlias ∧ ∀ joins : List JoinClause,
      (∀ join ∈ joins, join.IsPlain context.dialect) →
        ∀ line ∈ q.lines context.schema context.dialect joins, Unquoted line :=
  subquery_lacks isMark_quote names.lack start outer run

end Quotes
end PredicateSql
