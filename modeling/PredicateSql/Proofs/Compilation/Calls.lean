import PredicateSql.Proofs.Condition.Derivation
import PredicateSql.Proofs.Lowering.Growth

/-!
Calls of a compiler, one at a time and in sequence: what an accepted call adds, and what a rejected
one leaves behind.
-/
namespace PredicateSql

open Lowering

variable {n : Nat}

structure Call where
  bindings : Bindings
  expr : Expr

/-- The member that a modifier orders by, and whether the order is descending. -/
def Modifier.ordering? : Modifier → Option (MemberPath × Bool)
  | .orderBy path => some (path, false)
  | .orderByDescending path => some (path, true)
  | _ => none

namespace Compiler

/-- The compiler after some calls, accepted or rejected. -/
def after (c : Compiler n) : List Call → Compiler n
  | [] => c
  | call :: rest => (c.add call.bindings call.expr).2.after rest

/-- Where the lowering of the next predicate starts. -/
def progress (c : Compiler n) : Progress :=
  ⟨c.joins, .empty, c.issued, c.registry.enums⟩

/-- The compiler with the joins, aliases and enumerations of a lowering. -/
def advance (c : Compiler n) (t : Progress) : Compiler n :=
  { c with
    joins := t.joins
    issued := t.issued
    registry := { c.registry with enums := t.enums } }

/-- The compiler after a lowering that failed. -/
def retreat (c : Compiler n) (t : Progress) : Compiler n :=
  { c with
    issued := t.issued
    registry := { c.registry with enums := t.enums } }

theorem run_of_ok {α : Type} {c : Compiler n} {x : Lowering α} {a : α} {t : Progress}
    (run : x c.progress = (.ok a, t)) : c.run x = (.ok a, c.advance t) := by
  change x ⟨c.joins, .empty, c.issued, c.registry.enums⟩ = _ at run
  simp only [Compiler.run]
  rw [run]
  rfl

/-- The joins of a lowering that fails are given back: they are the last ones. -/
theorem run_of_error {α : Type} {c : Compiler n} {x : Lowering α} {e : Error} {t : Progress}
    (growing : Growing c.input.schema x) (run : x c.progress = (.error e, t)) :
    c.run x = (.error e, c.retreat t) := by
  have kept := (growing c.progress).joins
  rw [run] at kept
  have cut : t.joins.take c.joins.length = c.joins := (List.prefix_iff_eq_take.mp kept).symm
  change x ⟨c.joins, .empty, c.issued, c.registry.enums⟩ = _ at run
  simp only [Compiler.run]
  rw [run]
  simp only [cut]
  rfl

theorem predicateText_along (context : LoweringContext n) {R : Stepwise context.schema}
    (origin : Origin n) (e : Expr) :
    Along R (predicateText context origin e) :=
  .bind (predicate_along context e origin) fun _ => .of_kept fun s => ⟨s.buffer, rfl⟩

theorem predicateText_growing (context : LoweringContext n) (origin : Origin n) (e : Expr) :
    Growing context.schema (predicateText context origin e) :=
  predicateText_along (R := Progress.growth context.schema) context origin e

/-- The text of a predicate is the text of the condition that is derived for it. -/
theorem predicateText_ok {context : LoweringContext n} {origin : Origin n} {e : Expr}
    {s t : Progress} {sql : String} (fresh : s.buffer = .empty) :
    predicateText context origin e s = (.ok sql, t) ↔
      ∃ k u, Lowers context origin e s k u ∧ k.sql context.schema context.dialect = sql ∧
        u.write (k.tokens context.schema context.dialect) = t := by
  have finish : ∀ {k : Condition n} {u : Progress}, Lowers context origin e s k u →
      (u.write (k.tokens context.schema context.dialect)).buffer.finish context.dialect =
        .ok (k.sql context.schema context.dialect) := by
    intro k u derived
    have empty := derived.buffer_eq.trans fresh
    simp only [TokenBuffer.finish, Progress.write, Progress.withBuffer_buffer, empty,
      TokenBuffer.empty, List.nil_append]
    exact k.renderAll_tokens context.schema context.dialect
  refine bind_ok.trans ?_
  constructor
  · rintro ⟨_, u, run, finished⟩
    obtain ⟨k, v, derived, rfl⟩ := (predicate_ok context).mp run
    obtain ⟨text, rfl⟩ := outcome_eq.mp finished
    rw [finish derived] at text
    exact ⟨k, v, derived, Except.ok.inj text, rfl⟩
  · rintro ⟨k, u, derived, rfl, rfl⟩
    refine ⟨(), _, (predicate_ok context).mpr ⟨k, u, derived, rfl⟩, outcome_eq.mpr ⟨?_, rfl⟩⟩
    exact finish derived

/-- The compiler after a predicate that became the condition `k`. -/
def extend (c : Compiler n) (t : Progress) (k : Condition n) : Compiler n :=
  { c.advance t with
    fragments := c.fragments ++ [parenthesize (k.sql c.input.schema c.input.dialect)] }

/-- The compiler after an ordering by a column has taken effect. -/
def ordered (c : Compiler n) (t : Progress) (column : ColumnRef) (descending : Bool) :
    Compiler n :=
  { c.advance t with orderBy := some ⟨column.render c.input.dialect, descending⟩ }

/-- A rejected call uses up aliases and registers enumerations; all else is as before. -/
structure Rejects (c c' : Compiler n) : Prop where
  kept : ∃ t, c' = c.retreat t
  issued : c.issued ≤ c'.issued
  enums : c.registry.enums.Grows c.input.schema c'.registry.enums

theorem rejects_of_error {α : Type} {c : Compiler n} {x : Lowering α} {e : Error} {t : Progress}
    (growing : Growing c.input.schema x) (run : x c.progress = (.error e, t)) :
    c.Rejects (c.retreat t) := by
  have grown := growing c.progress
  rw [run] at grown
  exact ⟨⟨t, rfl⟩, grown.issued, grown.enums⟩

theorem add_predicate (c : Compiler n) (bindings : Bindings) {e : Expr}
    (predicate : ∀ m, e ≠ .modifier m) :
    c.add bindings e =
      match c.run (predicateText (c.context bindings) c.origin e) with
      | (.ok sql, c) => (.ok (), { c with fragments := c.fragments ++ [parenthesize sql] })
      | (.error e, c) => (.error e, c) := by
  cases e with
  | modifier m => exact absurd rfl (predicate m)
  | _ => rfl

/-- A predicate for which a condition can be derived is accepted. -/
theorem add_of_lowers {c : Compiler n} {bindings : Bindings} {e : Expr} {k : Condition n}
    {t : Progress} (predicate : ∀ m, e ≠ .modifier m)
    (derived : Lowers (c.context bindings) c.origin e c.progress k t) :
    c.add bindings e = (.ok (), c.extend t k) := by
  have text : predicateText (c.context bindings) c.origin e c.progress = _ :=
    (predicateText_ok rfl).mpr ⟨k, t, derived, rfl, rfl⟩
  rw [add_predicate c bindings predicate, run_of_ok text]
  rfl

/-- An accepted predicate leads to the state after its lowering. -/
theorem progress_extend {c : Compiler n} {context : LoweringContext n} {origin : Origin n}
    {e : Expr} {k : Condition n} {t : Progress} (derived : Lowers context origin e c.progress k t) :
    (c.extend t k).progress = t := by
  have kept : t.buffer = .empty := derived.buffer_eq
  obtain ⟨joins, buffer, issued, enums⟩ := t
  subst kept
  rfl

/-- A call of a predicate either is rejected or adds the text of its condition. -/
theorem add_cases (c : Compiler n) (bindings : Bindings) {e : Expr}
    (predicate : ∀ m, e ≠ .modifier m) :
    (∃ err c', c.add bindings e = (.error err, c') ∧ c.Rejects c') ∨
      ∃ k t, Lowers (c.context bindings) c.origin e c.progress k t ∧
        c.add bindings e = (.ok (), c.extend t k) := by
  rcases run : predicateText (c.context bindings) c.origin e c.progress with ⟨err | sql, t⟩
  · have growing := predicateText_growing (c.context bindings) c.origin e
    rw [add_predicate c bindings predicate, run_of_error growing run]
    exact .inl ⟨err, _, rfl, rejects_of_error growing run⟩
  · obtain ⟨k, u, derived, -⟩ := (predicateText_ok rfl).mp run
    exact .inr ⟨k, u, derived, add_of_lowers predicate derived⟩

/-- The first ordering takes effect if its member can be resolved. -/
theorem order_of_ok {c : Compiler n} {path : MemberPath} {descending : Bool} {column : ColumnRef}
    {t : Progress} (unset : c.orderBy = none)
    (resolved : resolveColumn (c.context .empty) c.origin path c.progress = (.ok column, t)) :
    c.order path descending = (.ok (), c.ordered t column descending) := by
  simp only [order, unset]
  rw [run_of_ok resolved]
  rfl

/-- Any other ordering is ignored. -/
theorem order_of_set {c : Compiler n} {path : MemberPath} {descending : Bool}
    (set : c.orderBy ≠ none) : c.order path descending = (.ok (), c) := by
  obtain ⟨o, set⟩ := Option.ne_none_iff_exists'.mp set
  simp only [order, set]

/-- A call of an ordering is ignored, is rejected or takes effect. -/
theorem order_cases (c : Compiler n) (path : MemberPath) (descending : Bool) :
    (c.orderBy ≠ none ∧ c.order path descending = (.ok (), c)) ∨
      (∃ err c', c.order path descending = (.error err, c') ∧ c.Rejects c') ∨
      (c.orderBy = none ∧ ∃ column t,
        resolveColumn (c.context .empty) c.origin path c.progress = (.ok column, t) ∧
        c.order path descending = (.ok (), c.ordered t column descending)) := by
  by_cases set : c.orderBy = none
  · refine .inr ?_
    rcases run : resolveColumn (c.context .empty) c.origin path c.progress with ⟨err | column, t⟩
    · have growing := resolveColumn_growing (c.context .empty) c.origin path
      simp only [order, set]
      rw [run_of_error growing run]
      exact .inl ⟨err, _, rfl, rejects_of_error growing run⟩
    · exact .inr ⟨set, column, t, rfl, order_of_ok set run⟩
  · exact .inl ⟨set, order_of_set set⟩

theorem add_ordering (c : Compiler n) (bindings : Bindings) {m : Modifier} {path : MemberPath}
    {descending : Bool} (ordering : m.ordering? = some (path, descending)) :
    c.add bindings (.modifier m) = c.order path descending := by
  cases m <;> cases ordering <;> rfl

/-- What an accepted call does. A predicate adds its condition, the first ordering takes effect, and
of the other modifiers the first of each sort wins. -/
inductive Accepts (c : Compiler n) (bindings : Bindings) : Expr → Compiler n → Prop
  | condition {e k t} (predicate : ∀ m, e ≠ .modifier m)
      (derived : Lowers (c.context bindings) c.origin e c.progress k t) :
      Accepts c bindings e (c.extend t k)
  | ordered {m path descending column t} (ordering : m.ordering? = some (path, descending))
      (unset : c.orderBy = none)
      (resolved : resolveColumn (c.context .empty) c.origin path c.progress = (.ok column, t)) :
      Accepts c bindings (.modifier m) (c.ordered t column descending)
  | ignored {m path descending} (ordering : m.ordering? = some (path, descending))
      (set : c.orderBy ≠ none) : Accepts c bindings (.modifier m) c
  | skip {count} :
      Accepts c bindings (.modifier (.skip count)) { c with skip := some (c.skip.getD count) }
  | take {count} :
      Accepts c bindings (.modifier (.take count)) { c with take := some (c.take.getD count) }

/-- A call is rejected or accepted. -/
theorem add_outcome (c : Compiler n) (bindings : Bindings) (e : Expr) :
    (∃ err d, c.add bindings e = (.error err, d) ∧ c.Rejects d) ∨
      ∃ d, c.add bindings e = (.ok (), d) ∧ c.Accepts bindings e d := by
  have orders : ∀ {m : Modifier} {path descending}, m.ordering? = some (path, descending) →
      (∃ err d, c.add bindings (.modifier m) = (.error err, d) ∧ c.Rejects d) ∨
        ∃ d, c.add bindings (.modifier m) = (.ok (), d) ∧ c.Accepts bindings (.modifier m) d := by
    intro m path descending ordering
    rw [c.add_ordering bindings ordering]
    rcases c.order_cases path descending with ⟨set, ignored⟩ | rejected |
      ⟨unset, column, t, resolved, taken⟩
    · exact .inr ⟨c, ignored, .ignored ordering set⟩
    · exact .inl rejected
    · exact .inr ⟨_, taken, .ordered ordering unset resolved⟩
  by_cases predicate : ∀ m, e ≠ .modifier m
  · rcases c.add_cases bindings predicate with rejected | ⟨k, t, derived, accepted⟩
    · exact .inl rejected
    · exact .inr ⟨_, accepted, .condition predicate derived⟩
  · obtain ⟨m, rfl⟩ : ∃ m, e = .modifier m := by simpa using predicate
    cases m with
    | orderBy path => exact orders rfl
    | orderByDescending path => exact orders rfl
    | skip count => exact .inr ⟨_, rfl, .skip⟩
    | take count => exact .inr ⟨_, rfl, .take⟩

theorem add_ok {c d : Compiler n} {bindings : Bindings} {e : Expr} :
    c.add bindings e = (.ok (), d) ↔ c.Accepts bindings e d := by
  constructor
  · intro run
    rcases c.add_outcome bindings e with ⟨err, _, rejected, -⟩ | ⟨d', accepted, accepts⟩
    · rw [rejected] at run
      cases run
    · obtain rfl : d' = d := congrArg Prod.snd (accepted.symm.trans run)
      exact accepts
  · intro accepts
    cases accepts with
    | condition predicate derived => exact add_of_lowers predicate derived
    | ordered ordering unset resolved =>
      rw [add_ordering c bindings ordering, order_of_ok unset resolved]
    | ignored ordering set => rw [add_ordering c bindings ordering, order_of_set set]
    | skip => rfl
    | take => rfl

/-- What an error leaves behind, for any call. -/
theorem rejects_of_add {c d : Compiler n} {bindings : Bindings} {e : Expr} {err : Error}
    (run : c.add bindings e = (.error err, d)) : c.Rejects d := by
  rcases c.add_outcome bindings e with ⟨_, d', rejected, rejects⟩ | ⟨d', accepted, -⟩
  · obtain rfl : d' = d := congrArg Prod.snd (rejected.symm.trans run)
    exact rejects
  · rw [accepted] at run
    cases run

/-- What a call is about stays the same. -/
theorem add_input (c : Compiler n) (bindings : Bindings) (e : Expr) :
    (c.add bindings e).2.input = c.input := by
  rcases c.add_outcome bindings e with ⟨_, _, rejected, ⟨⟨t, rfl⟩, -, -⟩⟩ | ⟨d, accepted, accepts⟩
  · rw [rejected]
    rfl
  · rw [accepted]
    cases accepts <;> rfl

theorem after_input (c : Compiler n) (calls : List Call) : (c.after calls).input = c.input := by
  induction calls generalizing c with
  | nil => rfl
  | cons call rest ih => exact (ih _).trans (c.add_input _ _)

theorem add_origin (c : Compiler n) (bindings : Bindings) (e : Expr) :
    (c.add bindings e).2.origin = c.origin := by
  simp only [origin, c.add_input bindings e]

theorem after_origin (c : Compiler n) (calls : List Call) : (c.after calls).origin = c.origin := by
  simp only [origin, c.after_input calls]

/-- Column lists are rendered at the end only. -/
theorem add_columns (c : Compiler n) (bindings : Bindings) (e : Expr) :
    (c.add bindings e).2.registry.columns = c.registry.columns := by
  rcases c.add_outcome bindings e with ⟨_, _, rejected, ⟨⟨t, rfl⟩, -, -⟩⟩ | ⟨d, accepted, accepts⟩
  · rw [rejected]
    rfl
  · rw [accepted]
    cases accepts <;> rfl

theorem after_columns (c : Compiler n) (calls : List Call) :
    (c.after calls).registry.columns = c.registry.columns := by
  induction calls generalizing c with
  | nil => rfl
  | cons call rest ih => exact (ih _).trans (c.add_columns call.bindings call.expr)

/-- What a query is made of. -/
theorem finish_ok {c : Compiler n} {q : CompiledQuery} (finished : c.finish.1 = .ok q) :
    ∃ key ∈ (c.input.schema.entity c.input.root).columns,
      q.table = c.origin.qualifier ∧
      q.columns =
        (c.registry.columns.columns (c.input.schema.entity c.input.root) c.input.dialect).1 ∧
      q.joins = c.joins ∧ q.fragments = c.fragments ∧
      q.paging.orderBy =
        c.orderBy.getD ⟨c.input.dialect.qualifiedColumn c.origin.qualifier key.column, false⟩ := by
  simp only [finish] at finished
  split at finished
  · cases finished
  next key found =>
    obtain rfl := Except.ok.inj finished
    exact ⟨key, Entity.mem_of_primaryKey found, rfl, rfl, rfl, rfl, rfl⟩

end Compiler

/-- An outcome that is no error says that the call was accepted. -/
theorem Compiler.accepted_of_toBool {c : Compiler n} {bindings : Bindings} {e : Expr}
    (accepted : (c.add bindings e).1.toBool = true) :
    c.add bindings e = (.ok (), (c.add bindings e).2) := by
  rcases run : c.add bindings e with ⟨err | ⟨⟩, c'⟩
  · rw [run] at accepted
    cases accepted
  · rfl

/-! A small schema for examples: books, which may be lent, and the shelves that they belong to. -/

namespace Bookshelf

def column (property : String) (kind : ColumnKind) : Column :=
  ⟨property, property, kind, false, none, none, false, none⟩

def book : Entity 2 where
  typeName := "Book"
  table := "Books"
  columns := [{ column "Id" .int with isPrimaryKey := true },
    { column "ShelfId" .int with foreignKey := some "Shelf" },
    column "Title" .string, column "Lent" .bool]
  navigations := [⟨"Shelf", 1, false⟩]

def shelf : Entity 2 where
  typeName := "Shelf"
  table := "Shelves"
  columns := [{ column "Id" .int with isPrimaryKey := true }, column "Full" .bool]
  navigations := [⟨"Books", 0, true⟩]

def schema : Schema 2 :=
  ⟨#v[book, shelf]⟩

def books : Compiler 2 :=
  .start ⟨schema, 0, .postgreSql, .numbered, none, ""⟩ .empty

def title : Expr := .member (.ofText "Title")

def lent : Expr := .member (.ofText "Lent")

def shelfFull : Expr := .member (.ofText "Shelf.Full")

end Bookshelf
end PredicateSql
