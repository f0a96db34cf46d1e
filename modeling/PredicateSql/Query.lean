import PredicateSql.Sql.Compiler

/-!
Queries as they are built: predicates and modifiers in order, and the values bound to names. A query
can be compiled for any number of dialects.
-/
namespace PredicateSql

structure Query where
  exprs : List Expr
  bindings : Bindings

namespace Query

def empty : Query := ⟨[], .empty⟩

def filter (q : Query) (e : Expr) : Query :=
  { q with exprs := q.exprs ++ [e] }

def exclude (q : Query) (e : Expr) : Query :=
  q.filter e.negate

def orderBy (q : Query) (path : MemberPath) : Query :=
  q.filter (.modifier (.orderBy path))

def orderByDescending (q : Query) (path : MemberPath) : Query :=
  q.filter (.modifier (.orderByDescending path))

def skip (q : Query) (count : UInt64) : Query :=
  q.filter (.modifier (.skip count))

def take (q : Query) (count : UInt64) : Query :=
  q.filter (.modifier (.take count))

def bind (q : Query) (name : String) (value : Value) : Query :=
  { q with bindings := q.bindings.bind name value }

variable {n : Nat}

/-- Compiles the query; also the registry afterwards, which failures leave changed as well. -/
def compile (q : Query) (input : CompilerInput n) (registry : Registry) :
    Except Error CompiledQuery × Registry :=
  match (Compiler.start input registry).addAll q.bindings q.exprs with
  | (.ok (), c) => c.finish
  | (.error e, c) => (.error e, c.registry)

/-- The dialect that the settings name; without settings it is that of SQL Server. -/
def defaultDialect (settings : Option Settings) : Except Error Dialect :=
  match settings with
  | some s => Dialect.ofText s.defaultDialect
  | none => .ok .mssql

/-- Compiles the query for the default dialect in place of the one in `input`. -/
def compileDefault (q : Query) (input : CompilerInput n) (registry : Registry) :
    Except Error CompiledQuery × Registry :=
  match defaultDialect input.settings with
  | .ok d => q.compile { input with dialect := d } registry
  | .error e => (.error e, registry)

end Query
end PredicateSql
