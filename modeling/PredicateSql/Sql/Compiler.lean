import PredicateSql.Sql.CompiledQuery
import PredicateSql.Sql.Parenthesized
import PredicateSql.Sql.Predicate

/-!
Compilation of a query over one root entity, one predicate or modifier at a time. What is rejected
adds no join, no condition and no modifier; only the aliases it used up and the enumerations it
found are not given back.
-/
namespace PredicateSql

/-- What a compilation is about, and what it may use. -/
structure CompilerInput (n : Nat) where
  schema : Schema n
  root : Fin n
  dialect : Dialect
  aliases : AliasSupply
  settings : Option Settings
  /-- Marks the literal that stands for an empty list of texts. -/
  emptyListTag : String

structure Compiler (n : Nat) where
  input : CompilerInput n
  joins : List JoinClause
  fragments : List String
  orderBy : Option OrderBy
  skip : Option UInt64
  take : Option UInt64
  /-- How many aliases were handed out. -/
  issued : Nat
  registry : Registry

namespace Compiler

variable {n : Nat}

def start (input : CompilerInput n) (registry : Registry) : Compiler n :=
  ⟨input, [], [], none, none, none, 0, registry⟩

def context (c : Compiler n) (bindings : Bindings) : LoweringContext n :=
  ⟨c.input.schema, c.input.dialect, c.input.aliases, bindings, c.input.settings,
    c.input.emptyListTag⟩

/-- The root entity as the origin of paths: its rows go by the name of its table. -/
def origin (c : Compiler n) : Origin n :=
  ⟨c.input.root, c.input.dialect.tableName (c.input.schema.entity c.input.root).table⟩

/-- Runs a lowering from the joins so far. If it fails, its joins are cut off again. -/
def run {α : Type} (c : Compiler n) (x : Lowering α) : Except Error α × Compiler n :=
  let (outcome, after) := x ⟨c.joins, .empty, c.issued, c.registry.enums⟩
  let joins := match outcome with
    | .ok _ => after.joins
    | .error _ => after.joins.take c.joins.length
  (outcome, { c with
    joins := joins
    issued := after.issued
    registry := { c.registry with enums := after.enums } })

/-- The text of a predicate. -/
def predicateText (context : LoweringContext n) (origin : Origin n) (e : Expr) :
    Lowering String := do
  predicate context e origin
  fun s => (s.buffer.finish context.dialect, s)

/-- Orders by a member, unless an ordering is set already. -/
def order (c : Compiler n) (path : MemberPath) (descending : Bool) :
    Except Error Unit × Compiler n :=
  match c.orderBy with
  | some _ => (.ok (), c)
  | none =>
    match c.run (resolveColumn (c.context .empty) c.origin path) with
    | (.ok column, c) =>
      (.ok (), { c with orderBy := some ⟨column.render c.input.dialect, descending⟩ })
    | (.error e, c) => (.error e, c)

/-- Applies a modifier; the first of each sort wins. -/
def modify (c : Compiler n) : Modifier → Except Error Unit × Compiler n
  | .orderBy path => c.order path false
  | .orderByDescending path => c.order path true
  | .skip count => (.ok (), { c with skip := some (c.skip.getD count) })
  | .take count => (.ok (), { c with take := some (c.take.getD count) })

/-- Adds one predicate or applies one modifier. -/
def add (c : Compiler n) (bindings : Bindings) : Expr → Except Error Unit × Compiler n
  | .modifier m => c.modify m
  | e =>
    match c.run (predicateText (c.context bindings) c.origin e) with
    | (.ok sql, c) => (.ok (), { c with fragments := c.fragments ++ [parenthesize sql] })
    | (.error e, c) => (.error e, c)

/-- The compiled query. Without an ordering it is ordered by the primary key. -/
def finish (c : Compiler n) : Except Error CompiledQuery × Registry :=
  let d := c.input.dialect
  let root := c.input.schema.entity c.input.root
  let table := d.tableName root.table
  match root.primaryKey with
  | .error e => (.error e, c.registry)
  | .ok key =>
    let primaryKey := d.qualifiedColumn table key.column
    let (columns, cache) := c.registry.columns.columns root d
    (.ok {
      dialect := d
      table := table
      columns := columns
      primaryKey := primaryKey
      joins := c.joins
      fragments := c.fragments
      paging := ⟨c.skip.getD 0, c.take, c.orderBy.getD ⟨primaryKey, false⟩⟩ },
      { c.registry with columns := cache })

/-- Adds expressions in order, up to the first error. -/
def addAll (c : Compiler n) (bindings : Bindings) :
    List Expr → Except Error Unit × Compiler n
  | [] => (.ok (), c)
  | e :: rest =>
    match c.add bindings e with
    | (.ok (), c) => c.addAll bindings rest
    | (.error e, c) => (.error e, c)

end Compiler
end PredicateSql
