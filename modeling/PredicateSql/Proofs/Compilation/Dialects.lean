import PredicateSql.Proofs.Parallel.Compilers

/-!
The same calls in different dialects. What a query asks for does not depend on the dialect, and two
dialects that spell alike write it in the same texts, but for the paging.
-/
namespace PredicateSql

variable {n : Nat}

/-- What a join is, apart from how it is written. -/
structure JoinClause.Plan where
  path : String
  aliasName : String
  joinType : JoinType
deriving DecidableEq, Repr

def JoinClause.plan (j : JoinClause) : JoinClause.Plan :=
  ⟨j.path, j.aliasName, j.joinType⟩

namespace CompiledQuery

/-- What a query asks for, apart from how it is written. -/
structure Plan where
  joins : List JoinClause.Plan
  skip : UInt64
  take : Option UInt64
  descending : Bool
deriving DecidableEq, Repr

def plan (q : CompiledQuery) : Plan :=
  ⟨q.joins.map JoinClause.plan, q.paging.skip, q.paging.take, q.paging.orderBy.descending⟩

/-- The texts of a query that have no paging in them. -/
structure Texts where
  fragments : List String
  joins : List String
  ordering : String
  columns : List String
  count : String
  existence : String
deriving DecidableEq, Repr

def texts (q : CompiledQuery) : Texts :=
  ⟨q.fragments, q.joins.map (·.sql q.dialect), q.paging.orderBy.sql, q.columns, q.countSql,
    q.existsSql⟩

/-- Dialects that spell alike write the same query in the same texts. -/
theorem texts_eq {q : CompiledQuery} {d : Dialect} (spelled : q.dialect.SpellsLike d) :
    { q with dialect := d }.texts = q.texts := by
  simp only [texts, countSql, existsSql, fromLines, whereSql?, spelled.join_sql]

end CompiledQuery

namespace Dialect.SpellsLike

variable {d d' : Dialect}

theorem renderColumns (spelled : d.SpellsLike d') (e : Entity n) :
    e.renderColumns d' = e.renderColumns d := by
  simp only [Entity.renderColumns, spelled.qualifiedColumn, spelled.tableName]

/-- The first column list of an entity that is rendered. -/
theorem columns (spelled : d.SpellsLike d') (e : Entity n) :
    (ColumnCache.empty.columns e d').1 = (ColumnCache.empty.columns e d).1 :=
  spelled.renderColumns e

end Dialect.SpellsLike

namespace Compiler

variable {shared : Shared} {d : Dialect} {c c' : Compiler n}

theorem joins_plan (alike : c.Alike shared d c') :
    c'.joins.map JoinClause.plan = c.joins.map JoinClause.plan := by
  have joins := alike.joins
  generalize c.joins = js, c'.joins = js' at joins
  induction joins with
  | nil => rfl
  | cons first _ ih =>
    obtain ⟨-⟩ := first
    simp only [List.map_cons, ih, JoinClause.plan]

theorem finish_plan (alike : c.Alike shared d c') :
    c'.finish.1.map CompiledQuery.plan = c.finish.1.map CompiledQuery.plan := by
  have joins := joins_plan alike
  have orders := alike.orderBy
  simp only [finish, alike.input, alike.skip, alike.take]
  generalize c.orderBy = o, c'.orderBy = o' at orders
  cases (c.input.schema.entity c.input.root).primaryKey with
  | error e => rfl
  | ok key =>
    simp only [Except.map, CompiledQuery.plan, joins]
    rcases orders with ⟨⟨-⟩⟩ | - <;> rfl

/-- Compilers that share their texts finish with the same texts, if no column list was rendered
before. -/
theorem finish_texts (alike : c.Alike shared d c') (texts : shared.texts)
    (spelled : c.input.dialect.SpellsLike d) (unlisted : c.registry.columns = .empty) :
    c'.finish.1.map CompiledQuery.texts = c.finish.1.map CompiledQuery.texts := by
  obtain rfl := alike.eq texts
  simp only [finish, unlisted]
  cases (c.input.schema.entity c.input.root).primaryKey with
  | error e => rfl
  | ok key =>
    refine congrArg Except.ok (Eq.trans ?_ (CompiledQuery.texts_eq spelled))
    rw [spelled.tableName, spelled.qualifiedColumn, spelled.columns]

end Compiler

/-- The start of a compilation in a dialect, with enumerations but no column list from earlier
ones. -/
def CompilerInput.compilation (input : CompilerInput n) (enums : EnumRegistry) (d : Dialect) :
    Compiler n :=
  .start { input with dialect := d } ⟨.empty, enums⟩

/-- The same calls succeed and fail in every dialect, with the same errors, and ask for the same
joins, page and direction. Where identifiers, tables and truth values are spelled alike, all texts
but the paging are the same. -/
theorem dialects_differ_in_spelling_only (input : CompilerInput n) (enums : EnumRegistry)
    (calls : List Call) :
    (∀ d d', let c := input.compilation enums d
      let c' := input.compilation enums d'
      c'.outcomes calls = c.outcomes calls ∧
        (c'.after calls).joins.map JoinClause.plan = (c.after calls).joins.map JoinClause.plan ∧
        (c'.after calls).finish.1.map CompiledQuery.plan =
        (c.after calls).finish.1.map CompiledQuery.plan) ∧
    (let mssql := (input.compilation enums .mssql).after calls
      let sqlite := (input.compilation enums .sqlite).after calls
      sqlite.fragments = mssql.fragments ∧
        sqlite.finish.1.map CompiledQuery.texts = mssql.finish.1.map CompiledQuery.texts) := by
  have start : ∀ (shared : Shared) d d',
      (input.compilation enums d).Alike shared d' (input.compilation enums d') := by
    intro shared d d'
    have same : (input.compilation enums d).Alike shared d (input.compilation enums d) :=
      .refl (input.compilation enums d)
    exact { same with input := rfl }
  refine ⟨fun d d' => ?_, ?_⟩
  · -- The texts differ, but everything else is told in the same words.
    have start := start ⟨False, True⟩ d d'
    obtain ⟨outcomes, alike⟩ := Compiler.after_alike False.elim start (.refl calls)
    refine ⟨eq_of_forall₂ outcomes fun _ _ outcome => outcome.eq_of_words trivial, ?_, ?_⟩
    · exact Compiler.joins_plan alike
    · exact Compiler.finish_plan alike
  · have start := start ⟨True, True⟩ .mssql .sqlite
    have spelled : Dialect.mssql.SpellsLike .sqlite := ⟨rfl, rfl, rfl⟩
    obtain ⟨-, alike⟩ := Compiler.after_alike (fun _ => spelled) start (.refl calls)
    have fragments := eq_of_forall₂ alike.fragments fun _ _ same => same trivial
    refine ⟨fragments, Compiler.finish_texts alike trivial ?_ (Compiler.after_columns _ calls)⟩
    exact (Compiler.after_input (input.compilation enums .mssql) calls) ▸ spelled

end PredicateSql
