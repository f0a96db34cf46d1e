import PredicateSql.Proofs.Compilation.Calls
import PredicateSql.Proofs.Lowering.Trail

/-!
Rejected calls leave no trace. A call that is rejected changes nothing that a query is made of, and
what it does leave behind, used aliases and registered enumerations, cannot be told from the
queries: the accepted calls by themselves, with the aliases they were handed, lead to the same
query.
-/
namespace PredicateSql

open Lowering

variable {n : Nat}

namespace Compiler

/-- The accepted calls, each with the number of aliases that were handed out before it. -/
def accepted (c : Compiler n) : List Call → List (Nat × Call)
  | [] => []
  | call :: rest =>
    match c.add call.bindings call.expr with
    | (.ok (), c') => (c.issued, call) :: c'.accepted rest
    | (.error _, c') => c'.accepted rest

/-- The same compiler with another number of aliases handed out. -/
def resume (c : Compiler n) (issued : Nat) : Compiler n :=
  { c with issued := issued }

/-- Makes calls up to the first rejected one, each from the given alias on. -/
def replay (c : Compiler n) : List (Nat × Call) → Except Error Unit × Compiler n
  | [] => (.ok (), c)
  | (issued, call) :: rest =>
    match (c.resume issued).add call.bindings call.expr with
    | (.ok (), c') => c'.replay rest
    | (.error e, c') => (.error e, c')

/-- The compiler `c'` is as `c`, but for the aliases that are used up and for enumerations that it
does not know yet. -/
structure Trails (c' c : Compiler n) : Prop where
  input : c'.input = c.input
  joins : c'.joins = c.joins
  fragments : c'.fragments = c.fragments
  orderBy : c'.orderBy = c.orderBy
  skip : c'.skip = c.skip
  take : c'.take = c.take
  columns : c'.registry.columns = c.registry.columns
  enums : c'.registry.enums.Grows c.input.schema c.registry.enums

namespace Trails

variable {c c' d : Compiler n}

theorem refl (c : Compiler n) : c.Trails c :=
  ⟨rfl, rfl, rfl, rfl, rfl, rfl, rfl, .refl _ _⟩

/-- A rejected call of the one that is ahead keeps the other behind. -/
theorem of_rejects (trails : c'.Trails c) (rejects : c.Rejects d) : c'.Trails d := by
  obtain ⟨⟨t, rfl⟩, -, enums⟩ := rejects
  exact ⟨trails.input, trails.joins, trails.fragments, trails.orderBy, trails.skip, trails.take,
    trails.columns, trails.enums.trans enums⟩

/-- Queries are not made of aliases or enumerations. -/
theorem finish_eq (trails : c'.Trails c) : c'.finish.1 = c.finish.1 := by
  obtain ⟨input, joins, fragments, orderBy, skip, take, columns, -⟩ := trails
  simp only [finish, input, joins, fragments, orderBy, skip, take, columns]
  split <;> rfl

theorem context (trails : c'.Trails c) (bindings : Bindings) :
    (c'.resume c.issued).context bindings = c.context bindings := by
  simp only [Compiler.context, resume, trails.input]

theorem origin (trails : c'.Trails c) :
    (c'.resume c.issued).origin = c.origin := by
  simp only [Compiler.origin, resume, trails.input]

theorem progress (trails : c'.Trails c) :
    (c'.resume c.issued).progress.Trails c.input.schema c.progress :=
  ⟨trails.joins, rfl, trails.enums⟩

theorem extend {t t' : Progress} (trails : c'.Trails c)
    (progress : t'.Trails c.input.schema t) (k : Condition n) :
    ((c'.resume c.issued).extend t' k).Trails (c.extend t k) := by
  obtain ⟨input, joins, fragments, orderBy, skip, take, columns, -⟩ := trails
  refine ⟨input, progress.joins, ?_, orderBy, skip, take, columns, progress.enums⟩
  simp only [Compiler.extend, advance, resume, fragments, input]

theorem ordered {t t' : Progress} (trails : c'.Trails c)
    (progress : t'.Trails c.input.schema t) (column : ColumnRef) (descending : Bool) :
    ((c'.resume c.issued).ordered t' column descending).Trails
      (c.ordered t column descending) := by
  obtain ⟨input, joins, fragments, orderBy, skip, take, columns, -⟩ := trails
  refine ⟨input, progress.joins, fragments, ?_, skip, take, columns, progress.enums⟩
  simp only [Compiler.ordered, advance, resume, input]

end Trails

/-- An accepted call is accepted by a compiler that trails, if it is handed the same aliases. -/
theorem Accepts.trails {c c' d : Compiler n} {bindings : Bindings} {e : Expr}
    (accepts : c.Accepts bindings e d) (unique : c.input.schema.UniqueNames)
    (trails : c'.Trails c) :
    ∃ d', (c'.resume c.issued).Accepts bindings e d' ∧ d'.Trails d := by
  cases accepts with
  | condition predicate derived =>
    obtain ⟨t', derived', progress⟩ := derived.carries unique trails.progress
    rw [← trails.context, ← trails.origin] at derived'
    exact ⟨_, .condition predicate derived', trails.extend progress _⟩
  | ordered ordering unset resolved =>
    have names : (c.context .empty).schema.UniqueNames := unique
    obtain ⟨t', resolved', progress⟩ :=
      resolveColumn_carries names _ _ _ _ _ _ trails.progress resolved
    rw [← trails.context, ← trails.origin] at resolved'
    exact ⟨_, .ordered ordering (trails.orderBy.trans unset) resolved',
      trails.ordered progress _ _⟩
  | ignored ordering set =>
    exact ⟨_, .ignored ordering (trails.orderBy ▸ set), trails.input, trails.joins,
      trails.fragments, trails.orderBy, trails.skip, trails.take, trails.columns, trails.enums⟩
  | @skip count =>
    exact ⟨_, .skip, trails.input, trails.joins, trails.fragments, trails.orderBy,
      congrArg (fun skip => some (skip.getD count)) trails.skip, trails.take, trails.columns,
      trails.enums⟩
  | @take count =>
    exact ⟨_, .take, trails.input, trails.joins, trails.fragments, trails.orderBy, trails.skip,
      congrArg (fun take => some (take.getD count)) trails.take, trails.columns, trails.enums⟩

/-- The accepted calls alone keep up with all calls. -/
theorem replay_trails {c c' : Compiler n} (unique : c.input.schema.UniqueNames)
    (trails : c'.Trails c) (calls : List Call) :
    ∃ d', c'.replay (c.accepted calls) = (.ok (), d') ∧ d'.Trails (c.after calls) := by
  induction calls generalizing c c' with
  | nil => exact ⟨c', rfl, trails⟩
  | cons call rest ih =>
    have unique' : (c.add call.bindings call.expr).2.input.schema.UniqueNames := by
      rwa [c.add_input]
    rcases run : c.add call.bindings call.expr with ⟨err | ⟨⟩, d⟩
    · simp only [accepted, after, run]
      rw [run] at unique'
      exact ih unique' (trails.of_rejects (rejects_of_add run))
    · obtain ⟨d', accepts, behind⟩ := (add_ok.mp run).trails unique trails
      simp only [accepted, after, run, replay, add_ok.mpr accepts]
      rw [run] at unique'
      exact ih unique' behind

end Compiler

/-- A rejected call leaves joins, conditions and modifiers as they were. An accepted predicate adds
joins at the end and exactly one condition. If every type has a name of its own, the query of a
sequence of calls is that of its accepted calls alone, made in the same order with the same
aliases. -/
theorem rejected_calls_leave_no_trace (c : Compiler n) :
    (∀ bindings e err c', c.add bindings e = (.error err, c') →
      c'.joins = c.joins ∧ c'.fragments = c.fragments ∧ c'.orderBy = c.orderBy ∧
        c'.skip = c.skip ∧ c'.take = c.take) ∧
    (∀ bindings e c', (∀ m, e ≠ .modifier m) → c.add bindings e = (.ok (), c') →
      c.joins <+: c'.joins ∧ (∃ sql, c'.fragments = c.fragments ++ [sql]) ∧
        c'.orderBy = c.orderBy ∧ c'.skip = c.skip ∧ c'.take = c.take) ∧
    (c.input.schema.UniqueNames → ∀ calls, ∃ c',
      c.replay (c.accepted calls) = (.ok (), c') ∧ c'.finish.1 = (c.after calls).finish.1) := by
  refine ⟨?_, ?_, ?_⟩
  · intro bindings e err c' run
    obtain ⟨⟨t, rfl⟩, -, -⟩ := Compiler.rejects_of_add run
    exact ⟨rfl, rfl, rfl, rfl, rfl⟩
  · intro bindings e c' predicate run
    cases Compiler.add_ok.mp run with
    | condition _ derived => exact ⟨derived.grows.joins, ⟨_, rfl⟩, rfl, rfl, rfl⟩
    | _ => exact absurd rfl (predicate _)
  · intro unique calls
    obtain ⟨c', replayed, trails⟩ := Compiler.replay_trails unique (.refl c) calls
    exact ⟨c', replayed, trails.finish_eq⟩

def Bookshelf.calls : List Call :=
  [⟨.empty, .and shelfFull title⟩, ⟨.empty, .and shelfFull lent⟩,
    ⟨.empty, .modifier (.orderBy (.ofText "Shelf.Name"))⟩, ⟨.empty, .modifier (.skip 2)⟩]

theorem rejected_book_calls_leave_no_trace :
    Bookshelf.schema.UniqueNames ∧
      (Bookshelf.books.accepted Bookshelf.calls).map (·.1) = [1, 2] ∧
      ∃ c', Bookshelf.books.replay (Bookshelf.books.accepted Bookshelf.calls) = (.ok (), c') ∧
        c'.finish.1 = (Bookshelf.books.after Bookshelf.calls).finish.1 := by
  have unique : Bookshelf.schema.UniqueNames := by decide
  refine ⟨unique, by decide +kernel, ?_⟩
  exact (rejected_calls_leave_no_trace Bookshelf.books).2.2 unique Bookshelf.calls

end PredicateSql
