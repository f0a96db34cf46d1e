import PredicateSql.Proofs.Encryption.Booleans
import PredicateSql.Proofs.Encryption.Names
import PredicateSql.Proofs.Lowering.Agreement

/-!
Runs of the tests that bind a literal to a member: comparisons, with the member on either side, and
membership in a list. What such a test writes is fixed but for the literal, which is bound to the
column of the member.
-/
namespace PredicateSql

open Lowering

variable {n : Nat}

inductive MemberTest where
  | compared (op : BinaryOp) (mirrored : Bool)
  | within

namespace MemberTest

def expr : MemberTest → Expr → Expr → Expr
  | compared op mirrored, member, literal => .compared op mirrored member literal
  | within, member, literal => .call .contains (some literal) [member]

/-- The literal is bound: the test is no test for null, and the list has items. -/
def Binds : MemberTest → Value → Prop
  | compared op _, v => op.isLogical = false ∧ (op = .equal ∨ op = .notEqual → v.isNull = false)
  | within, v => ∃ items, v = .list items ∧ items ≠ []

/-- What is written before the literal. -/
def front : MemberTest → ColumnRef → List Token
  | compared op false, c => [.sql "(", .column c, .sql (" " ++ op.sql ++ " ")]
  | compared _ true, _ => [.sql "("]
  | within, c => [.sql "(", .column c, .sql " IN ("]

/-- What is written after the literal. -/
def back : MemberTest → ColumnRef → List Token
  | compared _ false, _ => [.sql ")"]
  | compared op true, c => [.sql (" " ++ op.sql ++ " "), .column c, .sql ")"]
  | within, _ => [.sql "))"]

end MemberTest

/-- A literal that is to be bound, in the form that it takes on the column. On an error it is as far
as it got. -/
def boundToken (context : BindingContext) (c : ColumnRef) (v : Value) : Except Error Unit × Token :=
  ((Token.deferred v .none none).bindTo c).resolve context c

section Runs

variable {context : LoweringContext n} {origin : Origin n} {s u : Progress}
  {e member literal : Expr} {path : MemberPath} {v : Value} {c : ColumnRef} {err : Error}
  {op : BinaryOp}

theorem operand_strip (e : Expr) : operand context origin e.strip = operand context origin e := by
  fun_induction Expr.strip e with
  | case1 e ih => exact ih
  | case2 => rfl

theorem operand_of_member (onMember : e.strip = .member path) :
    operand context origin e = resolveColumn context origin path >>= fun c => push (.column c) := by
  rw [← operand_strip, onMember]
  rfl

theorem operand_of_literal (given : PredicateSql.literal context e = .ok v) (s : Progress) :
    operand context origin e s = (.ok (), s.write [.deferred v .none none]) := by
  rw [← operand_strip]
  rcases (literal_ok context).mp given with constant | ⟨name, captured, bound⟩
  · rw [constant]
    exact push_run _ s
  · rw [captured]
    have value : context.bindings.resolve name = .ok v := by simp [Bindings.resolve, bound]
    exact bind_ok.mpr ⟨v, s, attempt_ok.mpr ⟨value, rfl⟩, push_ok.mpr rfl⟩

/-- A piece that being bound to the column does not change: text, or the column itself. -/
def Token.IsFixed (c : ColumnRef) (t : Token) : Prop :=
  (∃ text, t = .sql text) ∨ t = .column c

theorem Token.IsFixed.bindTo_eq {t : Token} (h : t.IsFixed c) : t.bindTo c = t := by
  rcases h with ⟨text, rfl⟩ | rfl <;> rfl

theorem Token.resolveAll_append_of_fixed {binding : BindingContext} {front rest : List Token}
    (fixed : ∀ t ∈ front, t.IsFixed c) :
    resolveAll binding c (front ++ rest) =
      ((resolveAll binding c rest).1, front ++ (resolveAll binding c rest).2) := by
  induction front with
  | nil => rfl
  | cons t front ih =>
    have first : t.resolve binding c = (.ok (), t) := by
      rcases fixed t List.mem_cons_self with ⟨text, rfl⟩ | rfl <;> rfl
    rw [List.cons_append, resolveAll, first, ih fun t held => fixed t (List.mem_cons_of_mem _ held)]
    rfl

/-- The one literal of a span is bound to its column, and the rest of the span stays as it is. -/
theorem Token.bindSpan_around {binding : BindingContext} {front back : List Token}
    (fixed : ∀ t ∈ front ++ back, t.IsFixed c) (column : .column c ∈ front ++ back) :
    Token.bindSpan binding (front ++ [.deferred v .none none] ++ back) =
      ((boundToken binding c v).1, front ++ [(boundToken binding c v).2] ++ back) := by
  have fixedFront : ∀ t ∈ front, t.IsFixed c := fun t held => fixed t (List.mem_append_left _ held)
  have fixedBack : ∀ t ∈ back, t.IsFixed c := fun t held => fixed t (List.mem_append_right _ held)
  have first : (front ++ [Token.deferred v .none none] ++ back).findSome? Token.column? =
      some c := by
    cases found : (front ++ [Token.deferred v .none none] ++ back).findSome? Token.column? with
    | none =>
      have absent :=
        List.findSome?_eq_none_iff.mp found (.column c) (by simpa [or_comm] using column)
      cases absent
    | some c' =>
      obtain ⟨t, held, same⟩ := List.exists_of_findSome?_eq_some found
      have among : t ∈ front ++ back ∨ t = .deferred v .none none := by
        simp only [List.mem_append, List.mem_singleton] at held ⊢
        tauto
      rcases among with among | rfl
      · rcases fixed t among with ⟨text, rfl⟩ | rfl
        · cases same
        · exact same.symm
      · cases same
  have map {ts : List Token} (fixed : ∀ t ∈ ts, t.IsFixed c) : ts.map (Token.bindTo c) = ts :=
    (List.map_congr_left fun t held => (fixed t held).bindTo_eq).trans (List.map_id ts)
  have rest : resolveAll binding c back = (.ok (), back) := by
    have whole : resolveAll binding c (back ++ []) = _ := resolveAll_append_of_fixed fixedBack
    simpa [resolveAll] using whole
  rw [Token.bindSpan, first]
  simp only [List.append_assoc, List.singleton_append, List.map_append, List.map_cons,
    map fixedFront, map fixedBack]
  rw [resolveAll_append_of_fixed fixedFront, resolveAll]
  rcases bound : boundToken binding c v with ⟨outcome | ⟨⟩, t⟩
  · rw [boundToken] at bound
    rw [bound]
  · rw [boundToken] at bound
    rw [bound, rest]

/-- A bound literal is no boolean test. -/
theorem collapse_boundToken {binding : BindingContext} {t : Token} (d : Dialect)
    (bound : boundToken binding c v = (.ok (), t)) : t.collapse d = t := by
  obtain ⟨l, -, rfl⟩ := Token.resolve_bindTo_literal_ok.mp bound
  rfl

theorem Token.IsFixed.collapse_eq {t : Token} (h : t.IsFixed c) (d : Dialect) :
    t.collapse d = t := by
  rcases h with ⟨text, rfl⟩ | rfl <;> rfl

theorem MemberTest.fixed (test : MemberTest) (c : ColumnRef) :
    ∀ t ∈ test.front c ++ test.back c, t.IsFixed c := by
  rcases test with ⟨op, _ | _⟩ | _ <;> simp [front, back, Token.IsFixed]

theorem MemberTest.column_mem (test : MemberTest) (c : ColumnRef) :
    .column c ∈ test.front c ++ test.back c := by
  rcases test with ⟨op, _ | _⟩ | _ <;> simp [front, back]

/-- Binding what a test has written. -/
theorem bindSpan_test (test : MemberTest) (s u : Progress) (kept : u.buffer = s.buffer) :
    bindSpan context s.buffer.mark
      (u.write (test.front c ++ [.deferred v .none none] ++ test.back c)) =
      ((boundToken ⟨u.enums, context.settings⟩ c v).1,
        u.write (test.front c ++ [(boundToken ⟨u.enums, context.settings⟩ c v).2] ++
          test.back c)) := by
  rw [← kept, bindSpan_write, Token.bindSpan_around (test.fixed c) (test.column_mem c)]

/-- Binding and then writing out boolean tests, of which there are none. -/
theorem bindSpan_collapse_test (test : MemberTest) (s u : Progress) (kept : u.buffer = s.buffer) :
    (bindSpan context s.buffer.mark >>= fun _ => collapseBooleans context s.buffer.mark)
        (u.write (test.front c ++ [.deferred v .none none] ++ test.back c)) =
      ((boundToken ⟨u.enums, context.settings⟩ c v).1,
        u.write (test.front c ++ [(boundToken ⟨u.enums, context.settings⟩ c v).2] ++
          test.back c)) := by
  have run : bindSpan context s.buffer.mark
      (u.write (test.front c ++ [.deferred v .none none] ++ test.back c)) = _ :=
    bindSpan_test test s u kept
  rcases bound : boundToken ⟨u.enums, context.settings⟩ c v with ⟨outcome | ⟨⟩, t⟩
  · rw [bound] at run
    exact bind_run_of_error run
  · rw [bound] at run
    have whole : ∀ t' ∈ test.front c ++ [t] ++ test.back c, t'.collapse context.dialect = t' := by
      intro t' held
      have among : t' ∈ test.front c ++ test.back c ∨ t' = t := by
        simp only [List.mem_append, List.mem_singleton] at held ⊢
        tauto
      rcases among with among | rfl
      · exact (test.fixed c t' among).collapse_eq _
      · exact collapse_boundToken _ bound
    rw [bind_run_of_ok run, ← kept, collapseBooleans_write, List.map_congr_left whole, List.map_id']

theorem nullTested?_of_binds {mirrored : Bool} (binds : (MemberTest.compared op mirrored).Binds v)
    (onMember : member.strip = .member path)
    (given : PredicateSql.literal context literal = .ok v) :
    nullTested? context op member literal = .ok none ∧
      nullTested? context op literal member = .ok none := by
  cases test : nullTest? op with
  | none => simp [nullTested?, test]
  | some text =>
    have constant : isNullLiteral context literal = .ok false := by
      rw [isNullLiteral_of_literal given, binds.2 (nullTest?_isSome.mp ⟨text, test⟩)]
    have subject : isNullLiteral context member = .ok false := by
      rw [← isNullLiteral_strip, onMember]
      rfl
    exact ⟨nullTested?_eq_none subject constant, nullTested?_eq_none constant subject⟩

/-- A comparison that is no test for null writes both operands, and binds what it has written. -/
theorem predicate_comparison {left right : Expr} (comparator : op.isLogical = false)
    (untested : nullTested? context op left right = .ok none) :
    predicate context (.binary op left right) origin s =
      (do
        operand context origin left
        pushSql (" " ++ op.sql ++ " ")
        operand context origin right
        pushSql ")"
        bindSpan context s.buffer.mark
        collapseBooleans context s.buffer.mark) (s.write [.sql "("]) := by
  simp only [predicate, comparator, Bool.false_eq_true, if_false, comparison]
  rw [bind_run_of_ok (mark_ok.mpr ⟨rfl, rfl⟩), bind_run_of_ok (pushSql_run _ _), untested,
    bind_run_of_ok (attempt_ok.mpr ⟨rfl, rfl⟩)]

/-- Membership of a member is looked for in its column. -/
theorem predicate_within {items : List Value}
    (given : PredicateSql.literal context literal = .ok (.list items))
    (onMember : member.strip = .member path) :
    predicate context (.call .contains (some literal) [member]) origin =
      resolveColumn context origin path >>= fun c => membership context c items := by
  have sought (source : Expr) (value : PredicateSql.literal context source = .ok (.list items))
      (s : Progress) :
      inCollection context origin source member s =
        (resolveColumn context origin path >>= fun c => membership context c items) s := by
    rw [inCollection, bind_run_of_ok (attempt_ok.mpr ⟨value, rfl⟩)]
    simp only [onMember]
  funext s
  have value := (literal_strip context literal).trans given
  simp only [predicate, containsCall, singleArg]
  rw [bind_run_of_ok (attempt_ok.mpr ⟨rfl, rfl⟩)]
  rcases (literal_ok context).mp given with constant | ⟨name, captured, -⟩
  · rw [constant] at value
    simpa only [Option.map_some, constant] using sought _ value s
  · rw [captured] at value
    simpa only [Option.map_some, captured] using sought _ value s

theorem membership_run {items : List Value} (nonempty : items ≠ []) (u : Progress) :
    membership context c items u = ((boundToken ⟨u.enums, context.settings⟩ c (.list items)).1,
      u.write (MemberTest.within.front c ++
        [(boundToken ⟨u.enums, context.settings⟩ c (.list items)).2] ++
        MemberTest.within.back c)) := by
  have some : items.isEmpty = false := by simpa using nonempty
  simp only [membership, some, Bool.false_eq_true, if_false]
  rw [bind_run_of_ok (mark_ok.mpr ⟨rfl, rfl⟩), bind_run_of_ok (pushSql_run _ _),
    bind_run_of_ok (push_run _ _), bind_run_of_ok (pushSql_run _ _), bind_run_of_ok (push_run _ _),
    bind_run_of_ok (pushSql_run _ _)]
  simp only [Progress.write_write]
  exact bindSpan_test .within u u rfl

/-- A test of a member that is resolved ends as the binding of its literal does. -/
theorem predicate_test_of_ok {test : MemberTest} (binds : test.Binds v)
    (onMember : member.strip = .member path) (given : PredicateSql.literal context literal = .ok v)
    (resolved : resolveColumn context origin path s = (.ok c, u)) :
    predicate context (test.expr member literal) origin s =
      ((boundToken ⟨u.enums, context.settings⟩ c v).1,
        u.write (test.front c ++ [(boundToken ⟨u.enums, context.settings⟩ c v).2] ++
          test.back c)) := by
  have silent := resolveColumn_silent context origin path
  have kept : u.buffer = s.buffer := silent.buffer_eq resolved
  have read (ts : List Token) :
      operand context origin member (s.write ts) = (.ok (), u.write (ts ++ [.column c])) := by
    rw [operand_of_member onMember]
    have later : resolveColumn context origin path (s.write ts) = (.ok c, u.write ts) :=
      silent.write_ok.mpr ⟨u, resolved, rfl⟩
    rw [bind_run_of_ok later, push_ok.mpr rfl, Progress.write_write]
  cases test with
  | compared op mirrored =>
    obtain ⟨inOrder, exchanged⟩ := nullTested?_of_binds binds onMember given
    cases mirrored with
    | false =>
      refine (predicate_comparison binds.1 inOrder).trans ?_
      rw [bind_run_of_ok (read _), bind_run_of_ok (pushSql_run _ _),
        bind_run_of_ok (operand_of_literal given _), bind_run_of_ok (pushSql_run _ _)]
      simp only [Progress.write_write]
      exact bindSpan_collapse_test (.compared op false) s u kept
    | true =>
      refine (predicate_comparison binds.1 exchanged).trans ?_
      rw [bind_run_of_ok (operand_of_literal given _), bind_run_of_ok (pushSql_run _ _)]
      simp only [Progress.write_write]
      rw [bind_run_of_ok (read _), bind_run_of_ok (pushSql_run _ _)]
      simp only [Progress.write_write]
      exact bindSpan_collapse_test (.compared op true) s u kept
  | within =>
    obtain ⟨items, rfl, nonempty⟩ := binds
    rw [MemberTest.expr, predicate_within given onMember, bind_run_of_ok resolved,
      membership_run nonempty]

/-- A test of a member that is not resolved fails for the same reason. -/
theorem predicate_test_of_error {test : MemberTest} (binds : test.Binds v)
    (onMember : member.strip = .member path) (given : PredicateSql.literal context literal = .ok v)
    (failed : resolveColumn context origin path s = (.error err, u)) :
    ∃ b, predicate context (test.expr member literal) origin s = (.error err, u.withBuffer b) := by
  have read (ts : List Token) : ∃ b,
      operand context origin member (s.write ts) = (.error err, u.withBuffer b) := by
    refine ⟨⟨s.buffer.tokens ++ ts⟩, ?_⟩
    rw [operand_of_member onMember, Progress.write]
    refine bind_run_of_error ?_
    rw [resolveColumn_silent context origin path, failed]
  cases test with
  | compared op mirrored =>
    obtain ⟨inOrder, exchanged⟩ := nullTested?_of_binds binds onMember given
    cases mirrored with
    | false =>
      obtain ⟨b, stopped⟩ := read [.sql "("]
      refine ⟨b, (predicate_comparison binds.1 inOrder).trans ?_⟩
      exact bind_run_of_error stopped
    | true =>
      obtain ⟨b, stopped⟩ := read [.sql "(", .deferred v .none none, .sql (" " ++ op.sql ++ " ")]
      refine ⟨b, (predicate_comparison binds.1 exchanged).trans ?_⟩
      rw [bind_run_of_ok (operand_of_literal given _), bind_run_of_ok (pushSql_run _ _)]
      simp only [Progress.write_write]
      exact bind_run_of_error stopped
  | within =>
    obtain ⟨items, rfl, -⟩ := binds
    rw [MemberTest.expr, predicate_within given onMember]
    exact ⟨u.buffer, bind_run_of_error failed⟩

end Runs

section Names

variable {context : LoweringContext n} {origin : Origin n} {s u : Progress}
  {member literal literal' : Expr} {path : MemberPath} {v v' : Value} {c : ColumnRef} {key : String}
  {d : EnumDef} {test : MemberTest}

/-- Literals with the same names are bound alike. -/
theorem boundToken_agree {binding : BindingContext} (stringify : c.stringify = some key)
    (known : binding.enums.find? key = some d) (same : v'.resolveEnum d = v.resolveEnum d) :
    (boundToken binding c v').1 = (boundToken binding c v).1 ∧
      ((boundToken binding c v).1 = .ok () →
        (boundToken binding c v').2 = (boundToken binding c v).2) := by
  simp only [boundToken, Token.bindTo_literal, stringify, if_true, Token.resolve,
    Token.resolveStringify, known, same]
  cases v.resolveEnum d with
  | error e => exact ⟨rfl, fun accepted => by cases accepted⟩
  | ok w => cases c.cipher <;> exact ⟨rfl, fun _ => rfl⟩

/-- A literal with a scalar that stands for no name is not bound. -/
theorem boundToken_of_undeclared {binding : BindingContext} (stringify : c.stringify = some key)
    (known : binding.enums.find? key = some d) (undeclared : ∃ x ∈ v.scalars, d.nameFor? x = none) :
    ∃ cause, (boundToken binding c v).1 = .error (.unresolved cause) := by
  obtain ⟨cause, failed⟩ := Value.resolveEnum_of_undeclared undeclared
  refine ⟨cause, ?_⟩
  simp only [boundToken, Token.bindTo_literal, stringify, if_true, Token.resolve,
    Token.resolveStringify, known, failed]

end Names
end PredicateSql
