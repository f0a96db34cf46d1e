import PredicateSql.Proofs.Condition.Operand

/-!
The handlers of predicates, one by one: a handler succeeds exactly when its parts can be read, and
then it writes the pieces of what was read. Nothing here looks into the recursion over predicates.
-/
namespace PredicateSql

open Lowering

variable {n : Nat} (context : LoweringContext n)

/-- Writing is reading and then writing the pieces of what was read. -/
def Writes (d : Dialect) (write : Lowering Unit) (read : Lowering Operand) : Prop :=
  ∀ s t, write s = (.ok (), t) ↔ ∃ o u, read s = (.ok o, u) ∧ u.write (o.tokens d) = t

theorem nullOrEmpty_ok {origin : Origin n} {receiver : Option Expr} {args : List Expr}
    {s t : Progress} {x : Unit} :
    nullOrEmpty context origin receiver args s = (.ok x, t) ↔
      ∃ c u, emptinessColumn context origin receiver args s = (.ok c, u) ∧
        u.write ((Operand.nullOrEmpty c).tokens context.dialect) = t := by
  rcases receiver with _ | e <;> rcases args with _ | ⟨e', _ | ⟨e'', rest⟩⟩ <;>
    simp [nullOrEmpty, emptinessColumn, emptinessTarget?, bind_ok, Operand.tokens]

theorem nullOrEmpty_writes (origin : Origin n) (receiver : Option Expr) (args : List Expr) :
    Writes context.dialect (nullOrEmpty context origin receiver args) (do
      return .nullOrEmpty (← emptinessColumn context origin receiver args)) := by
  intro s t
  simp only [nullOrEmpty_ok, bind_ok, pure_ok]
  constructor
  · rintro ⟨c, u, run, rfl⟩
    exact ⟨_, u, ⟨c, u, run, rfl, rfl⟩, rfl⟩
  · rintro ⟨_, _, ⟨c, u, run, rfl, rfl⟩, rfl⟩
    exact ⟨c, u, run, rfl⟩

theorem operand_writes (origin : Origin n) (e : Expr) :
    Writes context.dialect (operand context origin e) (readOperand context origin e) := by
  fun_induction readOperand context origin e with
  | case1 e ih => exact ih
  | case2 path =>
    intro s t
    simp only [operand, bind_ok, push_ok, pure_ok]
    constructor
    · rintro ⟨c, u, run, rfl⟩
      exact ⟨_, u, ⟨c, u, run, rfl, rfl⟩, rfl⟩
    · rintro ⟨_, _, ⟨c, u, run, rfl, rfl⟩, rfl⟩
      exact ⟨c, u, run, rfl⟩
  | case3 value =>
    intro s t
    simp only [operand, push_ok, pure_ok]
    constructor
    · rintro rfl
      exact ⟨_, s, ⟨rfl, rfl⟩, rfl⟩
    · rintro ⟨_, _, ⟨rfl, rfl⟩, rfl⟩
      rfl
  | case4 name =>
    intro s t
    simp only [operand, bind_ok, push_ok, pure_ok, attempt_ok]
    constructor
    · rintro ⟨v, u, run, rfl⟩
      exact ⟨_, u, ⟨v, u, run, rfl, rfl⟩, rfl⟩
    · rintro ⟨_, _, ⟨v, u, run, rfl, rfl⟩, rfl⟩
      exact ⟨v, u, run, rfl⟩
  | case5 receiver args => exact nullOrEmpty_writes context origin receiver args
  | case6 e none_of_these =>
    intro s t
    have rejected : operand context origin e = reject (.notOperand e.text) := by
      unfold operand
      split <;> first | rfl | simp_all
    simp [rejected]

theorem booleanValue_writes (e : Expr) :
    Writes context.dialect (booleanValue context e) (readTruth context e) := by
  intro s t
  simp only [booleanValue, readTruth, bind_ok, attempt_ok]
  constructor
  · rintro ⟨v, _, ⟨value, rfl⟩, run⟩
    cases truth : v.bool? with
    | none => simp [truth] at run
    | some b =>
      simp only [truth, push_ok] at run
      subst run
      refine ⟨.literal (.unbound e v .none), s, ⟨v, s, ⟨value, rfl⟩, ?_⟩, rfl⟩
      simp [truth]
  · rintro ⟨_, _, ⟨v, _, ⟨value, rfl⟩, run⟩, rfl⟩
    refine ⟨v, s, ⟨value, rfl⟩, ?_⟩
    cases truth : v.bool? with
    | none => simp [truth] at run
    | some b =>
      simp only [truth, pure_ok] at run
      obtain ⟨rfl, rfl⟩ := run
      simp only [push_ok]
      rfl

theorem booleanOperand?_writes (origin : Origin n) (e : Expr) :
    (booleanOperand? context origin e = none ∧ readBoolean? context origin e = none) ∨
      ∃ write read, booleanOperand? context origin e = some write ∧
        readBoolean? context origin e = some read ∧ Writes context.dialect write read := by
  fun_induction readBoolean? context origin e with
  | case1 e ih => exact ih
  | case2 path =>
    refine .inr ⟨_, _, rfl, rfl, ?_⟩
    intro s t
    simp only [booleanMember, bind_ok]
    constructor
    · rintro ⟨c, u, run, tested⟩
      split at tested
      · next kind =>
        rw [push_ok] at tested
        exact ⟨.column c, u, ⟨c, u, run, by simp [kind]⟩, tested⟩
      · exact absurd tested reject_ok
    · rintro ⟨o, u, ⟨c, v, run, tested⟩, written⟩
      split at tested
      · next kind =>
        obtain ⟨rfl, rfl⟩ := pure_ok.mp tested
        exact ⟨c, v, run, by rw [if_pos kind, push_ok]; exact written⟩
      · exact absurd tested reject_ok
  | case3 value => exact .inr ⟨_, _, rfl, rfl, booleanValue_writes context _⟩
  | case4 name => exact .inr ⟨_, _, rfl, rfl, booleanValue_writes context _⟩
  | case5 receiver args => exact .inr ⟨_, _, rfl, rfl, nullOrEmpty_writes context origin _ _⟩
  | case6 e _ _ _ _ _ =>
    refine .inl ⟨?_, rfl⟩
    unfold booleanOperand?
    split <;> first | rfl | simp_all

/-- A column and a literal with some text around them: the literal is bound to the column. -/
theorem columnWithLiteral_ok {c : ColumnRef} {v : Value} {w : Wildcard}
    {before between after : String} {s t : Progress} {x : Unit} :
    (do
      let start ← mark
      pushSql before
      push (.column c)
      pushSql between
      push (.deferred v w none)
      pushSql after
      bindSpan context start : Lowering Unit) s = (.ok x, t) ↔
      ∃ l, bindLiteral ⟨s.enums, context.settings⟩ c v w = .ok l ∧
        s.write ([Token.sql before] ++ [Token.column c] ++ [Token.sql between] ++ [l.token] ++
          [Token.sql after]) = t := by
  have pair := fun ts => @Operand.bindSpan_pair_ok ⟨s.enums, context.settings⟩ context.dialect
    (.column c) (.literal (.unbound (.constant v) v w)) trivial rfl before between after ts
  simp only [bind_ok, mark_ok, pushSql_ok, push_ok]
  constructor
  · rintro ⟨_, _, ⟨rfl, rfl⟩, _, _, rfl, _, _, rfl, _, _, rfl, _, _, rfl, _, _, rfl, run⟩
    simp only [Progress.write_write] at run
    obtain ⟨ts, span, rfl⟩ := bindSpan_write_ok.mp run
    obtain ⟨_, _, leftBound, rightBound, rfl⟩ := (pair ts).mp span
    cases leftBound
    obtain ⟨l, form, rfl⟩ := Operand.bind_literal_eq_ok.mp rightBound
    exact ⟨l, form, rfl⟩
  · rintro ⟨l, form, rfl⟩
    refine ⟨_, _, ⟨rfl, rfl⟩, (), _, rfl, (), _, rfl, (), _, rfl, (), _, rfl, (), _, rfl, ?_⟩
    simp only [Progress.write_write]
    have rightBound : (Operand.literal (.unbound (.constant v) v w)).bind
        ⟨s.enums, context.settings⟩ (some c) = .ok (.literal ⟨.constant v, v, w, some c, l⟩) :=
      Operand.bind_literal_eq_ok.mpr ⟨l, form, rfl⟩
    exact bindSpan_write_ok.mpr ⟨_, (pair _).mpr ⟨_, _, rfl, rightBound, rfl⟩, rfl⟩

theorem like_ok {method : Method} {c : ColumnRef} {pattern : Expr} {w : Wildcard}
    {s t : Progress} {x : Unit} :
    like context method c pattern w s = (.ok x, t) ↔
      c.isTextual = true ∧ ∃ v l, literal context pattern = .ok v ∧
        bindLiteral ⟨s.enums, context.settings⟩ c v w = .ok l ∧
        s.write ([Token.sql "("] ++ [Token.column c] ++ [Token.sql " LIKE "] ++ [l.token] ++
          [Token.sql ")"]) = t := by
  unfold like
  cases textual : c.isTextual with
  | false => simp
  | true =>
    simp only [Bool.not_true, Bool.false_eq_true, if_false, true_and]
    rw [bind_ok]
    simp only [attempt_ok, columnWithLiteral_ok]
    constructor
    · rintro ⟨v, _, ⟨value, rfl⟩, l, form, written⟩
      exact ⟨v, l, value, form, written⟩
    · rintro ⟨v, l, value, form, written⟩
      exact ⟨v, s, ⟨value, rfl⟩, l, form, written⟩

theorem membership_ok {c : ColumnRef} {items : List Value} {s t : Progress} {x : Unit} :
    membership context c items s = (.ok x, t) ↔
      (items = [] ∧ s.write ([Token.sql "("] ++ [Token.column c] ++ [Token.sql " IN ("] ++
        [Token.sql (emptyListLiteral context c)] ++ [Token.sql "))"]) = t) ∨
      (items ≠ [] ∧ ∃ l, bindLiteral ⟨s.enums, context.settings⟩ c (.list items) .none = .ok l ∧
        s.write ([Token.sql "("] ++ [Token.column c] ++ [Token.sql " IN ("] ++ [l.token] ++
          [Token.sql "))"]) = t) := by
  unfold membership
  cases items with
  | nil =>
    have plain : Token.bindSpan ⟨s.enums, context.settings⟩ ([Token.sql "("] ++ [Token.column c] ++
        [Token.sql " IN ("] ++ [Token.sql (emptyListLiteral context c)] ++ [Token.sql "))"]) =
        (.ok (), _) := rfl
    simp only [List.isEmpty_nil, if_true, bind_ok, mark_ok, pushSql_ok, push_ok]
    constructor
    · rintro ⟨_, _, ⟨rfl, rfl⟩, _, _, rfl, _, _, rfl, _, _, rfl, _, _, rfl, _, _, rfl, run⟩
      simp only [Progress.write_write] at run
      obtain ⟨ts, span, rfl⟩ := bindSpan_write_ok.mp run
      rw [plain] at span
      cases span
      exact .inl ⟨trivial, rfl⟩
    · rintro (⟨-, rfl⟩ | ⟨nonempty, -⟩)
      · refine ⟨_, _, ⟨rfl, rfl⟩, (), _, rfl, (), _, rfl, (), _, rfl, (), _, rfl, (), _, rfl, ?_⟩
        simp only [Progress.write_write]
        exact bindSpan_write_ok.mpr ⟨_, plain, rfl⟩
      · exact absurd rfl nonempty
  | cons item rest =>
    simp only [List.isEmpty_cons, Bool.false_eq_true, if_false]
    rw [columnWithLiteral_ok]
    simp

theorem hasValueCall_ok {origin : Origin n} {receiver : Option Expr} {args : List Expr}
    {s t : Progress} {x : Unit} :
    hasValueCall context origin receiver args s = (.ok x, t) ↔
      args = [] ∧ ∃ c u, memberOperand context origin .hasValue receiver s = (.ok c, u) ∧
        u.write ([Token.sql "("] ++ [Token.column c] ++ [Token.sql " IS NOT NULL)"]) = t := by
  unfold hasValueCall
  cases args with
  | nil => simp [bind_ok]
  | cons e rest => simp

/-- The piece `o` after some others is what a silent reading writes there. -/
theorem Writes.after {d : Dialect} {write : Lowering Unit} {read : Lowering Operand}
    (writes : Writes d write read) (silent : Silent read) {s t : Progress} {ts : List Token}
    {x : Unit} :
    write (s.write ts) = (.ok x, t) ↔
      ∃ o u, read s = (.ok o, u) ∧ u.write (ts ++ o.tokens d) = t := by
  refine (writes _ t).trans ?_
  simp only [silent.write_ok]
  constructor
  · rintro ⟨o, _, ⟨u, run, rfl⟩, rfl⟩
    exact ⟨o, u, run, by rw [Progress.write_write]⟩
  · rintro ⟨o, u, run, rfl⟩
    exact ⟨o, _, ⟨u, run, rfl⟩, by rw [Progress.write_write]⟩

/-- What the pieces of a comparison become when it is closed. -/
theorem close_ok {start : Nat} {s t : Progress} {ts : List Token} {x : Unit}
    (opened : s.buffer.mark = start) :
    (do
      pushSql ")"
      bindSpan context start
      collapseBooleans context start : Lowering Unit) (s.write ts) = (.ok x, t) ↔
      ∃ ts', Token.bindSpan ⟨s.enums, context.settings⟩ (ts ++ [Token.sql ")"]) = (.ok (), ts') ∧
        s.write (ts'.map (Token.collapse context.dialect)) = t := by
  subst opened
  simp only [bind_ok, pushSql_ok]
  constructor
  · rintro ⟨_, _, rfl, _, _, bound, collapsed⟩
    rw [Progress.write_write] at bound
    obtain ⟨ts', span, rfl⟩ := bindSpan_write_ok.mp bound
    exact ⟨ts', span, collapseBooleans_write_ok.mp collapsed⟩
  · rintro ⟨ts', bound, rfl⟩
    refine ⟨(), _, rfl, (), s.write ts', ?_, collapseBooleans_write_ok.mpr rfl⟩
    rw [Progress.write_write]
    exact bindSpan_write_ok.mpr ⟨ts', bound, rfl⟩

/-- An equality with a literal null tests the other operand. -/
theorem comparison_nullTest_ok {origin : Origin n} {op : BinaryOp} {left right e : Expr}
    {test : String} {s t : Progress} {x : Unit}
    (tested : nullTested? context op left right = .ok (some (test, e))) :
    comparison context origin op left right s = (.ok x, t) ↔
      ∃ o u, readOperand context origin e s = (.ok o, u) ∧
        u.write ([Token.sql "("] ++ o.tokens context.dialect ++ [Token.sql test] ++
          [Token.sql ")"]) = t := by
  have silent := readOperand_silent context origin e
  have read := fun {u} =>
    @Writes.after _ _ _ (operand_writes context origin e) silent s u [.sql "("] ()
  simp only [comparison, bind_ok, mark_ok, pushSql_ok, attempt_ok]
  constructor
  · rintro ⟨_, _, ⟨rfl, rfl⟩, _, _, rfl, _, _, ⟨choice, rfl⟩, run⟩
    obtain rfl := Except.ok.inj (choice.symm.trans tested)
    obtain ⟨_, _, first, run⟩ := bind_ok.mp run
    obtain ⟨o, u, reading, rfl⟩ := read.mp first
    obtain ⟨_, _, test, closed⟩ := bind_ok.mp run
    obtain rfl := pushSql_ok.mp test
    rw [Progress.write_write] at closed
    have opened := congrArg TokenBuffer.mark (silent.buffer_eq reading)
    obtain ⟨ts, span, rfl⟩ := (close_ok context opened).mp closed
    rw [Operand.bindSpan_single] at span
    cases span
    refine ⟨o, u, reading, ?_⟩
    simp only [List.map_append, Operand.map_collapse_tokens, Token.map_collapse_sql]
  · rintro ⟨o, u, first, rfl⟩
    have opened := congrArg TokenBuffer.mark (silent.buffer_eq first)
    refine ⟨_, s, ⟨rfl, rfl⟩, (), _, rfl, some (test, e), _, ⟨tested, rfl⟩, ?_⟩
    refine bind_ok.mpr ⟨(), _, read.mpr ⟨o, u, first, rfl⟩, ?_⟩
    refine bind_ok.mpr ⟨(), _, pushSql_ok.mpr rfl, ?_⟩
    rw [Progress.write_write]
    refine (close_ok context opened).mpr ⟨_, Operand.bindSpan_single o _ _ _, ?_⟩
    simp only [List.map_append, Operand.map_collapse_tokens, Token.map_collapse_sql]

/-- Any other comparison binds both operands to the first column there is. -/
theorem comparison_pair_ok {origin : Origin n} {op : BinaryOp} {left right : Expr}
    {s t : Progress} {x : Unit} (untested : nullTested? context op left right = .ok none) :
    comparison context origin op left right s = (.ok x, t) ↔
      ∃ l u r v l' r', readOperand context origin left s = (.ok l, u) ∧
        readOperand context origin right u = (.ok r, v) ∧
        l.bind ⟨v.enums, context.settings⟩ (l.column?.or r.column?) = .ok l' ∧
        r.bind ⟨v.enums, context.settings⟩ (l.column?.or r.column?) = .ok r' ∧
        v.write ([Token.sql "("] ++ l'.tokens context.dialect ++
          [Token.sql (" " ++ op.sql ++ " ")] ++
          r'.tokens context.dialect ++ [Token.sql ")"]) = t := by
  have silent := fun e => readOperand_silent context origin e
  have read := fun e {s t ts} =>
    @Writes.after _ _ _ (operand_writes context origin e) (silent e) s t ts ()
  simp only [comparison, bind_ok, mark_ok, pushSql_ok, attempt_ok]
  constructor
  · rintro ⟨_, _, ⟨rfl, rfl⟩, _, _, rfl, _, _, ⟨choice, rfl⟩, run⟩
    obtain rfl := Except.ok.inj (choice.symm.trans untested)
    obtain ⟨_, _, first, run⟩ := bind_ok.mp run
    obtain ⟨l, u, leftRead, rfl⟩ := (read left).mp first
    obtain ⟨_, _, between, run⟩ := bind_ok.mp run
    obtain rfl := pushSql_ok.mp between
    rw [Progress.write_write] at run
    obtain ⟨_, _, second, closed⟩ := bind_ok.mp run
    obtain ⟨r, v, rightRead, rfl⟩ := (read right).mp second
    have kept := ((silent right).buffer_eq rightRead).trans ((silent left).buffer_eq leftRead)
    obtain ⟨ts, span, rfl⟩ := (close_ok context (congrArg TokenBuffer.mark kept)).mp closed
    obtain ⟨l', r', leftBound, rightBound, rfl⟩ := (Operand.bindSpan_pair_ok
      (readOperand_unbound context leftRead) (readOperand_unbound context rightRead) _ _ _).mp span
    refine ⟨l, u, r, v, l', r', leftRead, rightRead, leftBound, rightBound, ?_⟩
    simp only [List.map_append, Operand.map_collapse_tokens, Token.map_collapse_sql]
  · rintro ⟨l, u, r, v, l', r', leftRead, rightRead, leftBound, rightBound, rfl⟩
    have kept := ((silent right).buffer_eq rightRead).trans ((silent left).buffer_eq leftRead)
    refine ⟨_, s, ⟨rfl, rfl⟩, (), _, rfl, none, _, ⟨untested, rfl⟩, ?_⟩
    refine bind_ok.mpr ⟨(), _, (read left).mpr ⟨l, u, leftRead, rfl⟩, ?_⟩
    refine bind_ok.mpr ⟨(), _, pushSql_ok.mpr rfl, ?_⟩
    rw [Progress.write_write]
    refine bind_ok.mpr ⟨(), _, (read right).mpr ⟨r, v, rightRead, rfl⟩, ?_⟩
    refine (close_ok context (congrArg TokenBuffer.mark kept)).mpr ⟨_, (Operand.bindSpan_pair_ok
      (readOperand_unbound context leftRead) (readOperand_unbound context rightRead) _ _ _).mpr
      ⟨l', r', leftBound, rightBound, rfl⟩, ?_⟩
    simp only [List.map_append, Operand.map_collapse_tokens, Token.map_collapse_sql]

/-- The test for rows of a collection once it is known which rows these are. -/
def existenceOf (q : Subquery n) (condition : Option (Origin n → Lowering Unit)) :
    Lowering Unit := do
  let d := context.dialect
  let (joins, text) ← match condition with
    | none => pure ([], none)
    | some condition => do
      let (joins, buffer) ← isolated (condition q.child)
      let text ← attempt (buffer.finish d)
      pure (joins, some text)
  pushSql ((q.clause context.schema d joins text).sql d)

theorem existence_eq_bind (origin : Origin n) (path : MemberPath)
    (condition : Option (Origin n → Lowering Unit)) :
    existence context origin path condition = (do
      existenceOf context (← subquery context origin path) condition) := by
  unfold existence subquery
  rw [bind_assoc]
  congr 1
  funext outer
  dsimp only
  cases (context.schema.entity outer.entity).navigationFor? path.property with
  | none => rfl
  | some navigation =>
    cases many : navigation.many with
    | false =>
      simp only [many, Bool.not_false, if_true]
      rfl
    | true =>
      simp only [many, Bool.not_true, Bool.false_eq_true, if_false]
      cases (context.schema.entity navigation.target).foreignKeyTo?
          (context.schema.entity outer.entity) with
      | none => rfl
      | some fk =>
        simp only [bind_assoc, pure_bind]
        cases condition with
        | none => rfl
        | some condition =>
          simp only [existenceOf, pure_bind]
          rfl

theorem existence_none_ok {origin : Origin n} {path : MemberPath} {s t : Progress} {x : Unit} :
    existence context origin path none s = (.ok x, t) ↔
      ∃ q u, subquery context origin path s = (.ok q, u) ∧
        u.write [.sql ((q.clause context.schema context.dialect [] none).sql context.dialect)] =
          t := by
  rw [existence_eq_bind]
  simp [bind_ok, existenceOf]

/-- The condition on the rows of a collection is lowered with joins and a buffer of its own. -/
theorem existence_some_ok {origin : Origin n} {path : MemberPath}
    {condition : Origin n → Lowering Unit} {s t : Progress} {x : Unit} :
    existence context origin path (some condition) s = (.ok x, t) ↔
      ∃ q u v text, subquery context origin path s = (.ok q, u) ∧
        condition q.child { u with joins := [], buffer := .empty } = (.ok (), v) ∧
        v.buffer.finish context.dialect = .ok text ∧
        Progress.write { v with joins := u.joins, buffer := u.buffer } [.sql ((q.clause
          context.schema context.dialect v.joins (some text)).sql context.dialect)] = t := by
  rw [existence_eq_bind, bind_ok]
  constructor
  · rintro ⟨q, u, found, run⟩
    obtain ⟨⟨joins, buffer⟩, _, inner, run⟩ := bind_ok.mp run
    obtain ⟨v, nested, rfl, rfl, rfl⟩ := isolated_ok.mp inner
    obtain ⟨text, _, attempted, run⟩ := bind_ok.mp run
    obtain ⟨finished, rfl⟩ := attempt_ok.mp attempted
    exact ⟨q, u, v, text, found, nested, finished, pushSql_ok.mp run⟩
  · rintro ⟨q, u, v, text, found, nested, finished, rfl⟩
    have inner := isolated_ok.mpr ⟨v, nested, rfl, rfl, rfl⟩
    refine ⟨q, u, found, bind_ok.mpr ⟨(v.joins, v.buffer), _, inner, ?_⟩⟩
    exact bind_ok.mpr ⟨text, _, attempt_ok.mpr ⟨finished, rfl⟩, pushSql_ok.mpr rfl⟩

end PredicateSql
