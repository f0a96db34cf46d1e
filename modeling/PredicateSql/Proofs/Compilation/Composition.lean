import PredicateSql.Proofs.Compilation.Calls
import PredicateSql.Proofs.Lowering.Appending
import PredicateSql.Proofs.Quoting.Pieces
import PredicateSql.Proofs.Scoping.Tests

/-!
Predicates are translated part by part. A predicate is lowered behind any pieces as it is lowered
alone, the text of a connective is made of the texts of its sides, and a literal is bound within the
test that it stands in.
-/
namespace PredicateSql

open Lowering

variable {n : Nat} {α : Type}

/-- The lowering with a buffer of its own. Joins, aliases and enumerations are shared. -/
def Lowering.apart (x : Lowering α) : Lowering α :=
  fun s => ((x (s.withBuffer .empty)).1, (x (s.withBuffer .empty)).2.withBuffer s.buffer)

theorem apart_of_run {x : Lowering α} {a : Except Error α} {s t : Progress}
    (run : x (s.withBuffer .empty) = (a, t)) :
    apart x s = (a, t.withBuffer s.buffer) := by
  rw [apart, run]

/-- Whatever is in the buffer stays there, and behind it comes what is written to an empty
buffer. -/
theorem Appending.run_withBuffer {x : Lowering α} (h : Appending x) (s : Progress)
    (b : TokenBuffer) :
    x (s.withBuffer b) = ((x (s.withBuffer .empty)).1,
      (x (s.withBuffer .empty)).2.behind b.tokens) := by
  have moved : s.withBuffer b = (s.withBuffer .empty).behind b.tokens := by
    simp [Progress.behind, Progress.withBuffer, TokenBuffer.empty]
  rw [moved]
  exact h (s.withBuffer .empty) b.tokens

section Connectives

variable {context : LoweringContext n} {origin : Origin n} {op : BinaryOp} {e left right : Expr}
  {s t u : Progress} {err : Error}

theorem predicate_withBuffer (b : TokenBuffer) {x : Except Error Unit}
    (run : predicate context e origin (s.withBuffer .empty) = (x, t)) :
    ∃ b', predicate context e origin (s.withBuffer b) = (x, t.withBuffer b') := by
  rw [(predicate_appending context origin e).run_withBuffer, run]
  exact ⟨_, rfl⟩

/-- A connective whose left side fails fails with its error. -/
theorem predicate_logical_of_left_error (right : Expr) (connective : op.isLogical = true)
    (first : predicate context left origin (s.withBuffer .empty) = (.error err, t)) :
    ∃ b, predicate context (.binary op left right) origin s = (.error err, t.withBuffer b) := by
  obtain ⟨b, later⟩ := predicate_withBuffer ⟨s.buffer.tokens ++ [.sql "("]⟩ first
  refine ⟨b, ?_⟩
  simp only [predicate, connective, if_true]
  rw [bind_run_of_ok (mark_ok.mpr ⟨rfl, rfl⟩), bind_run_of_ok (pushSql_run _ _)]
  exact bind_run_of_error later

/-- A connective whose right side fails after the left one succeeded fails with the error of the
right side. -/
theorem predicate_logical_of_right_error (connective : op.isLogical = true)
    (first : predicate context left origin (s.withBuffer .empty) = (.ok (), t))
    (second : predicate context right origin (t.withBuffer .empty) = (.error err, u)) :
    ∃ b, predicate context (.binary op left right) origin s = (.error err, u.withBuffer b) := by
  obtain ⟨b, before⟩ := predicate_withBuffer ⟨s.buffer.tokens ++ [.sql "("]⟩ first
  obtain ⟨b', later⟩ := predicate_withBuffer ⟨b.tokens ++ [.sql (" " ++ op.sql ++ " ")]⟩ second
  refine ⟨b', ?_⟩
  simp only [predicate, connective, if_true]
  rw [bind_run_of_ok (mark_ok.mpr ⟨rfl, rfl⟩), bind_run_of_ok (pushSql_run _ _)]
  refine (bind_run_of_ok before).trans ?_
  rw [bind_run_of_ok (pushSql_run _ _)]
  exact bind_run_of_error later

theorem predicateText_of_error (run : predicate context e origin s = (.error err, t)) :
    Compiler.predicateText context origin e s = (.error err, t) :=
  bind_run_of_error run

/-- A predicate that is lowered has a text, which is that of its condition. -/
theorem predicateText_of_ok (fresh : s.buffer = .empty)
    (run : predicate context e origin s = (.ok (), t)) :
    ∃ k, Lowers context origin e s k (t.withBuffer .empty) ∧
      Compiler.predicateText context origin e s =
        (.ok (k.sql context.schema context.dialect), t) := by
  obtain ⟨k, u, derived, rfl⟩ := (predicate_ok context).mp run
  refine ⟨k, ?_, (Compiler.predicateText_ok fresh).mpr ⟨k, u, derived, rfl, rfl⟩⟩
  rwa [Progress.write, Progress.withBuffer_withBuffer, ← derived.buffer_eq.trans fresh,
    Progress.withBuffer_self]

/-- The text of a connective is the text of the left side, the operator and the text of the right
side, which is translated with what the left side leaves, all in parentheses. If a side fails, so
does the connective. -/
theorem predicateText_logical (context : LoweringContext n) (origin : Origin n) (left right : Expr)
    (connective : op.isLogical = true) :
    apart (Compiler.predicateText context origin (.binary op left right)) = (do
      let first ← apart (Compiler.predicateText context origin left)
      let second ← apart (Compiler.predicateText context origin right)
      return "(" ++ first ++ (" " ++ op.sql ++ " ") ++ second ++ ")") := by
  funext s
  rcases first : predicate context left origin (s.withBuffer .empty) with ⟨err | ⟨⟩, t⟩
  · obtain ⟨b, whole⟩ :=
      predicate_logical_of_left_error (s := s.withBuffer .empty) right connective first
    rw [apart_of_run (predicateText_of_error whole),
      bind_run_of_error (apart_of_run (predicateText_of_error first))]
    rfl
  obtain ⟨k, derived, text⟩ := predicateText_of_ok rfl first
  rw [bind_run_of_ok (apart_of_run text)]
  rcases second : predicate context right origin (t.withBuffer .empty) with ⟨err | ⟨⟩, u⟩
  · obtain ⟨b, whole⟩ :=
      predicate_logical_of_right_error (s := s.withBuffer .empty) connective first second
    rw [apart_of_run (predicateText_of_error whole),
      bind_run_of_error (apart_of_run (s := t.withBuffer s.buffer) (predicateText_of_error second))]
    rfl
  · obtain ⟨l, more, text'⟩ := predicateText_of_ok rfl second
    have whole := (Compiler.predicateText_ok rfl).mpr ⟨_, _,
      .logical connective derived more, rfl, rfl⟩
    rw [apart_of_run whole, bind_run_of_ok (apart_of_run (s := t.withBuffer s.buffer) text')]
    rfl

end Connectives

/-- The literal has the value that it stands for. It is written as it is given, or it is bound to a
column that a member of the expression stands for, with joins among these and enumerations of which
none is lost in `r`. -/
structure BoundLiteral.StaysIn (context : LoweringContext n) (r : EnumRegistry) (origin : Origin n)
    (joins : List JoinClause) (e : Expr) (l : BoundLiteral) : Prop where
  given : literal context l.source = .ok l.given
  bound : l = .unbound l.source l.given l.wildcard ∨ ∃ path ∈ e.references, ∃ s t c,
    resolveColumn context origin path s = (.ok c, t) ∧ t.joins <+: joins ∧
    t.enums.Grows context.schema r ∧ l.column = some c ∧
      bindLiteral ⟨t.enums, context.settings⟩ c l.given l.wildcard = .ok l.written

def BindsWithin (context : LoweringContext n) (r : EnumRegistry) : ScopeProperty n :=
  fun origin joins e k => k.isTest = true → ∀ l ∈ k.literals, l.StaysIn context r origin joins e

section Literals

variable {context : LoweringContext n} {r : EnumRegistry} {origin : Origin n}
  {joins : List JoinClause} {e e' : Expr} {s t : Progress} {o o' : Operand} {l : BoundLiteral}
  {k : Condition n}

theorem BoundLiteral.StaysIn.of_references (h : l.StaysIn context r origin joins e)
    (same : ∀ path ∈ e.references, path ∈ e'.references) : l.StaysIn context r origin joins e' :=
  ⟨h.given, h.bound.imp_right fun ⟨path, held, found⟩ => ⟨path, same path held, found⟩⟩

theorem BoundLiteral.StaysIn.mono {r' : EnumRegistry} {joins' : List JoinClause}
    (h : l.StaysIn context r origin joins e) (kept : joins <+: joins')
    (known : r.Grows context.schema r') :
    l.StaysIn context r' origin joins' e := by
  refine ⟨h.given, h.bound.imp_right ?_⟩
  rintro ⟨path, held, s, t, c, resolved, before, others, column, form⟩
  exact ⟨path, held, s, t, c, resolved, before.trans kept, others.trans known, column, form⟩

/-- A column that was read is one of the members of the expression. -/
theorem readOperand_column {c : ColumnRef} (read : readOperand context origin e s = (.ok o, t))
    (column : o.column? = some c) :
    ∃ path ∈ e.references, resolveColumn context origin path s = (.ok c, t) := by
  rcases (readOperand_ok context).mp read with ⟨path, c', member, resolved, rfl⟩ | ⟨v, -, rfl, -⟩ |
    ⟨receiver, args, c', call, resolved, rfl⟩
  · cases column
    exact ⟨path, by simp [Expr.references_of_member member], resolved⟩
  · cases column
  · cases column
    obtain ⟨_, path, target, member, resolved⟩ := (emptinessColumn_ok context).mp resolved
    exact ⟨path, by
      simp [← Expr.references_strip e, call, Expr.references_of_emptiness target member], resolved⟩

/-- A literal that was read is not bound, and reading it changes nothing. -/
theorem readOperand_literal_ok (read : readOperand context origin e s = (.ok (.literal l), t)) :
    literal context l.source = .ok l.given ∧ l = .unbound l.source l.given l.wildcard ∧ s = t := by
  rcases (readOperand_ok context).mp read with
    ⟨_, _, -, -, ⟨⟩⟩ | ⟨v, value, same, rfl⟩ | ⟨_, _, _, -, -, ⟨⟩⟩
  cases same
  exact ⟨(literal_strip context e).trans value, rfl, rfl⟩

/-- A literal that was read stays in a test if the column that it is bound to does. -/
theorem staysIn_of_bind {l' : BoundLiteral} {u : Progress} {c : Option ColumnRef}
    (read : readOperand context origin e s = (.ok (.literal l), u))
    (column : ∀ c' ∈ c, ∃ path ∈ e'.references, ∃ s,
      resolveColumn context origin path s = (.ok c', t))
    (bound : (Operand.literal l).bind ⟨t.enums, context.settings⟩ c = .ok (.literal l')) :
    l'.StaysIn context t.enums origin t.joins e' := by
  obtain ⟨value, unbound, -⟩ := readOperand_literal_ok read
  rcases Operand.bind_cases bound with same | ⟨c', _, written, some, ⟨⟩, form, same⟩
  · cases same
    exact ⟨value, .inl unbound⟩
  · cases same
    obtain ⟨path, held, s, resolved⟩ := column c' some
    exact ⟨value, .inr ⟨path, held, s, t, c', resolved, List.prefix_rfl, .refl _ _, rfl, form⟩⟩

/-- Only a literal becomes a literal. -/
theorem exists_literal_of_bind {binding : BindingContext} {c : Option ColumnRef}
    (held : l ∈ o'.literals) (bound : o.bind binding c = .ok o') :
    ∃ l₀, o = .literal l₀ ∧ o' = .literal l := by
  rcases Operand.bind_cases bound with rfl | ⟨_, l₀, written, -, rfl, -, rfl⟩
  · cases o' with
    | literal l' => exact ⟨l', rfl, by rw [List.mem_singleton.mp held]⟩
    | _ => cases held
  · exact ⟨l₀, rfl, by rw [List.mem_singleton.mp held]⟩

/-- A literal that was read and is not bound stays in any test. -/
theorem staysIn_of_read {u : Progress} (read : readOperand context origin e s = (.ok o, u))
    (held : l ∈ o.literals) :
    l.StaysIn context r origin joins e' := by
  cases o with
  | literal l' =>
    obtain ⟨value, unbound, -⟩ := readOperand_literal_ok read
    obtain rfl := List.mem_singleton.mp held
    exact ⟨value, .inl unbound⟩
  | _ => cases held

/-- The literals of a test are bound to columns of its own members. -/
theorem Lowers.bindsWithin (derived : Lowers context origin e s k t) :
    BindsWithin context t.enums origin t.joins e k := by
  unfold BindsWithin
  induction derived with
  | logical | not | anyWhere => exact fun isTest => Bool.noConfusion isTest
  | convert _ ih => exact fun kind l held => (ih kind l held).of_references fun _ => id
  | @comparison _ op left right s u t o₁ o₂ _ _ comparator untested leftRead rightRead leftBound
      rightBound =>
    rintro - l held
    rcases List.mem_append.mp held with held | held
    · obtain ⟨l₀, rfl, rfl⟩ := exists_literal_of_bind held leftBound
      refine staysIn_of_bind leftRead ?_ leftBound
      rintro c column
      obtain ⟨path, among, resolved⟩ := readOperand_column rightRead column
      exact ⟨path, List.mem_append_right _ among, u, resolved⟩
    · obtain ⟨l₀, rfl, rfl⟩ := exists_literal_of_bind held rightBound
      obtain ⟨-, -, rfl⟩ := readOperand_literal_ok rightRead
      refine staysIn_of_bind rightRead ?_ rightBound
      rintro c column
      obtain ⟨path, among, resolved⟩ :=
        readOperand_column leftRead (by simpa [Operand.column?] using column)
      exact ⟨path, List.mem_append_left _ among, s, resolved⟩
  | nullTest _ _ read => exact fun _ l held => staysIn_of_read read held
  | inverted boolean run =>
    exact fun _ l held => staysIn_of_read (readOperand_of_readBoolean? _ boolean run) held
  | truth _ boolean run =>
    exact fun _ l held => staysIn_of_read (readOperand_of_readBoolean? _ boolean run) held
  | @like origin method w receiver path pattern s t c v _ opening member column textual
      value bound =>
    rintro - l held
    obtain rfl := List.mem_singleton.mp held
    refine ⟨(literal_strip context pattern).trans value,
      .inr ⟨path, ?_, s, t, c, column, List.prefix_rfl, .refl _ _, rfl, bound⟩⟩
    simp [Expr.references_of_like member value]
  | @membership origin receiver source arg path items s t c _ collection value member column
      nonempty bound =>
    rintro - l held
    obtain rfl := List.mem_singleton.mp held
    refine ⟨value, .inr ⟨path, ?_, s, t, c, column, List.prefix_rfl, .refl _ _, rfl, bound⟩⟩
    simp [Expr.references_of_membership collection value member]
  | emptyMembership | hasValue | any => simp [Condition.literals]

end Literals

/-- Translation is compositional. What a predicate is lowered to stands behind whatever is in the
buffer, just as it is written to an empty one, with the same outcome, joins, aliases and
enumerations, also where it fails. The text of a connective is made of the texts of its sides, each
translated by itself, the right one with what the left one leaves. And the literals of each test are
bound to columns of its own members, if at all. -/
theorem translation_is_compositional (context : LoweringContext n) (origin : Origin n) :
    (∀ e s, predicate context e origin s =
      let (outcome, t) := predicate context e origin (s.withBuffer .empty)
      (outcome, t.withBuffer ⟨s.buffer.tokens ++ t.buffer.tokens⟩)) ∧
    (∀ op left right, op.isLogical = true →
      apart (Compiler.predicateText context origin (.binary op left right)) = (do
        let first ← apart (Compiler.predicateText context origin left)
        let second ← apart (Compiler.predicateText context origin right)
        return "(" ++ first ++ (" " ++ op.sql ++ " ") ++ second ++ ")")) ∧
    ∀ e s t, predicate context e origin s = (.ok (), t) → ∃ k : Condition n,
      t.buffer.tokens = s.buffer.tokens ++ k.tokens context.schema context.dialect ∧
        Throughout (BindsWithin context t.enums) origin t.joins e k := by
  refine ⟨fun e s => ?_, fun op left right => predicateText_logical context origin left right, ?_⟩
  · exact (predicate_appending context origin e).run_withBuffer s s.buffer
  · intro e s t run
    obtain ⟨k, u, derived, rfl⟩ := (predicate_ok context).mp run
    refine ⟨k, by simp [Progress.write, derived.buffer_eq], ?_⟩
    have tests := derived.testwise (I := fun _ _ => True)
      (fun _ => trivial) (fun _ _ => trivial) trivial
      List.prefix_rfl (.refl _ _)
    refine tests.imp ?_ ?_
    · rintro origin joins e k - ⟨s, t, derived, -, kept, known⟩ kind l held
      exact (derived.bindsWithin kind l held).mono kept known
    · exact fun _ _ _ _ _ _ _ _ _ isTest => Bool.noConfusion isTest

/-- Books by their titles on full shelves, behind a piece that was written before. -/
theorem full_shelves_are_translated_by_parts :
    let context := Bookshelf.books.context .empty
    let titled := Expr.startsWith Bookshelf.title (.constant (.string "A"))
    let both := Bookshelf.shelfFull.and titled
    let s := Bookshelf.books.progress.withBuffer ⟨[.sql "NOT "]⟩
    let t := (predicate context both Bookshelf.books.origin s).2
    (∃ k : Condition 2, t.buffer.tokens = [.sql "NOT "] ++ k.tokens Bookshelf.schema .postgreSql ∧
      Throughout (BindsWithin context t.enums) Bookshelf.books.origin t.joins both k) ∧
    (apart (Compiler.predicateText context Bookshelf.books.origin both) s).1.toOption =
      some "($0.\"Full\" = true AND (Books.\"Title\" LIKE 'A%'))" := by
  intro context titled both s t
  obtain ⟨-, texts, tests⟩ := translation_is_compositional context Bookshelf.books.origin
  have run : predicate context both Bookshelf.books.origin s = (.ok (), t) :=
    ok_of_toBool (by decide +kernel)
  have text := congrArg (fun x => (x s).1.toOption) (texts .and Bookshelf.shelfFull titled rfl)
  exact ⟨tests both s t run, text.trans (by decide +kernel)⟩

end PredicateSql
