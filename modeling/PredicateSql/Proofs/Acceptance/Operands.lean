import PredicateSql.Proofs.Acceptance.Members
import PredicateSql.Proofs.Scoping.Tests

/-!
The operands of a comparison are the values of the language. Which of them is a literal null shows
before they are read, and after that they can be bound to each other just where they fit.
-/
namespace PredicateSql

open Lowering

variable {n : Nat}

/-- The operand is what an expression for the subject is read as. -/
inductive Operand.Describes (r : EnumRegistry) : Operand → Subject → Prop
  | column {c m} (describes : c.Describes r m) : Describes r (.column c) (.member m)
  | nullOrEmpty {c m} (describes : c.Describes r m) : Describes r (.nullOrEmpty c) (.member m)
  | literal {source v} : Describes r (.literal (.unbound source v .none)) (.literal v)

namespace Operand.Describes

variable {schema : Schema n} {settings : Option Settings} {r r' : EnumRegistry} {o l : Operand}
  {a b : Subject}

theorem mono (h : o.Describes r a) (grown : r.Grows schema r') : o.Describes r' a := by
  cases h with
  | column describes => exact .column (describes.mono grown)
  | nullOrEmpty describes => exact .nullOrEmpty (describes.mono grown)
  | literal => exact .literal

/-- An operand with a column is about a member. -/
theorem column?_eq {c : ColumnRef} (h : o.Describes r a) (column : o.column? = some c) :
    ∃ m, a = .member m ∧ c.Describes r m := by
  cases h with
  | column describes | nullOrEmpty describes =>
    cases column
    exact ⟨_, rfl, describes⟩
  | literal => cases column

/-- An operand without a column is a literal. -/
theorem column?_eq_none (h : o.Describes r a) (absent : o.column? = none) :
    ∃ v, a = .literal v := by
  cases h with
  | column | nullOrEmpty => cases absent
  | literal => exact ⟨_, rfl⟩

/-- An operand for a member is not changed by being bound. -/
theorem bind_member {context : BindingContext} {m : Target} (h : o.Describes r (.member m))
    (c : Option ColumnRef) : o.bind context c = .ok o := by
  cases h with
  | column | nullOrEmpty => cases c <;> rfl

/-- A literal can be bound to the column of a member just where the member takes it. -/
theorem bind_literal_ok {c : ColumnRef} {m : Target} {v : Value} (column : c.Describes r m)
    (h : o.Describes r (.literal v)) :
    (∃ o', o.bind ⟨r, settings⟩ (some c) = .ok o') ↔ m.Takes settings v .none := by
  cases h with
  | literal =>
    rw [← column.bindLiteral_ok]
    simp [bind_literal_eq_ok, BoundLiteral.unbound]

/-- Two operands can be bound to the first of their columns just where their subjects fit. -/
theorem bind_ok (left : l.Describes r a) (right : o.Describes r b) :
    ((∃ l', l.bind ⟨r, settings⟩ (l.column?.or o.column?) = .ok l') ∧
      ∃ o', o.bind ⟨r, settings⟩ (l.column?.or o.column?) = .ok o') ↔ a.Fits settings b := by
  cases first : l.column? with
  | some c =>
    obtain ⟨m, rfl, column⟩ := left.column?_eq first
    have kept : ∃ l', l.bind ⟨r, settings⟩ (some c) = .ok l' := ⟨l, left.bind_member _⟩
    rw [Option.some_or]
    cases b with
    | member m' =>
      have kept' : ∃ o', o.bind ⟨r, settings⟩ (some c) = .ok o' := ⟨o, right.bind_member _⟩
      exact iff_of_true ⟨kept, kept'⟩ trivial
    | literal v =>
      have bound : (∃ o', o.bind ⟨r, settings⟩ (some c) = .ok o') ↔ m.Takes settings v .none :=
        bind_literal_ok column right
      exact ⟨fun h => bound.mp h.2, fun takes => ⟨kept, bound.mpr takes⟩⟩
  | none =>
    obtain ⟨v, rfl⟩ := left.column?_eq_none first
    rw [Option.none_or]
    cases second : o.column? with
    | some c =>
      obtain ⟨m, rfl, column⟩ := right.column?_eq second
      have kept : ∃ o', o.bind ⟨r, settings⟩ (some c) = .ok o' := ⟨o, right.bind_member _⟩
      have bound : (∃ l', l.bind ⟨r, settings⟩ (some c) = .ok l') ↔ m.Takes settings v .none :=
        bind_literal_ok column left
      exact ⟨fun h => bound.mp h.1, fun takes => ⟨bound.mpr takes, kept⟩⟩
    | none =>
      -- Without a column there is nothing to be bound to.
      obtain ⟨v', rfl⟩ := right.column?_eq_none second
      exact iff_of_true ⟨⟨l, by simp [Operand.bind]⟩, ⟨o, by simp [Operand.bind]⟩⟩ trivial

end Operand.Describes

namespace IsValue

variable {voc : Vocabulary n} {i : Fin n} {r r' : EnumRegistry} {e : Expr} {a : Subject}

theorem of_strip (h : IsValue voc i r e.strip a r') : IsValue voc i r e a r' := by
  fun_induction Expr.strip e with
  | case1 e ih => exact .convert (ih h)
  | case2 => exact h

theorem of_literal {v : Value} (h : e.IsLiteral voc.bindings v) :
    IsValue voc i r e (.literal v) r := by
  apply of_strip
  rcases h with constant | ⟨name, captured, bound⟩
  · rw [constant]
    exact .constant
  · rw [captured]
    exact .captured bound

/-- A literal makes no enumeration known. -/
theorem enums_of_isNull (h : IsValue voc i r e a r') (null : a.isNull = true) : r' = r := by
  induction h with
  | member => cases null
  | constant => rfl
  | captured => rfl
  | emptiness => cases null
  | convert _ ih => exact ih null

end IsValue

section Reading

variable (context : LoweringContext n) {origin : Origin n} {e : Expr} {s t : Progress}

theorem literal_iff {v : Value} :
    literal context e = .ok v ↔ e.IsLiteral context.vocabulary.bindings v :=
  literal_ok context

theorem emptinessColumn_resolves {receiver : Option Expr} {args : List Expr} {c : ColumnRef}
    (linked : Linked context.schema context.dialect origin s.joins)
    (run : emptinessColumn context origin receiver args s = (.ok c, t)) :
    ∃ e path m, emptinessTarget? receiver args = some e ∧ e.strip = .member path ∧
      context.schema.Resolves origin.entity s.enums path m t.enums ∧ c.Describes t.enums m := by
  obtain ⟨e, path, target, member, resolved⟩ := (emptinessColumn_ok context).mp run
  obtain ⟨m, resolves, describes⟩ := resolveColumn_resolves context linked resolved
  exact ⟨e, path, m, target, member, resolves, describes⟩

theorem emptinessColumn_of_resolves {i : Fin n} {r r' : EnumRegistry} {receiver : Option Expr}
    {args : List Expr} {path : MemberPath} {m : Target}
    (target : emptinessTarget? receiver args = some e) (member : e.strip = .member path)
    (resolves : context.schema.Resolves i r path m r') (entity : origin.entity = i)
    (enums : s.enums = r) :
    ∃ c t, emptinessColumn context origin receiver args s = (.ok c, t) ∧ t.enums = r' ∧
      c.Describes r' m := by
  obtain ⟨c, t, run, after, describes⟩ := resolveColumn_of_resolves context resolves entity enums
  exact ⟨c, t, (emptinessColumn_ok context).mpr ⟨e, path, target, member, run⟩, after, describes⟩

/-- What is read as an operand is a value. -/
theorem readOperand_isValue {o : Operand}
    (linked : Linked context.schema context.dialect origin s.joins)
    (run : readOperand context origin e s = (.ok o, t)) :
    ∃ a, IsValue context.vocabulary origin.entity s.enums e a t.enums ∧ o.Describes t.enums a := by
  rcases (readOperand_ok context).mp run with ⟨path, c, member, resolved, rfl⟩ |
    ⟨v, value, rfl, rfl⟩ | ⟨receiver, args, c, call, resolved, rfl⟩
  · obtain ⟨m, resolves, describes⟩ := resolveColumn_resolves context linked resolved
    refine ⟨.member m, .of_strip ?_, .column describes⟩
    rw [member]
    exact .member resolves
  · exact ⟨.literal v, .of_literal ((literal_iff context).mp value), .literal⟩
  · obtain ⟨e', path, m, target, member, resolves, describes⟩ :=
      emptinessColumn_resolves context linked resolved
    refine ⟨.member m, .of_strip ?_, .nullOrEmpty describes⟩
    rw [call]
    exact .emptiness target member resolves

/-- A value is read as an operand. -/
theorem readOperand_of_isValue {i : Fin n} {r r' : EnumRegistry} {a : Subject}
    (value : IsValue context.vocabulary i r e a r') (entity : origin.entity = i)
    (enums : s.enums = r) :
    ∃ o t, readOperand context origin e s = (.ok o, t) ∧ t.enums = r' ∧ o.Describes r' a := by
  induction value with
  | member resolves =>
    obtain ⟨c, t, run, after, describes⟩ := resolveColumn_of_resolves context resolves entity enums
    exact ⟨_, t, bind_ok.mpr ⟨c, t, run, pure_ok.mpr ⟨rfl, rfl⟩⟩, after, .column describes⟩
  | constant => exact ⟨_, s, pure_ok.mpr ⟨rfl, rfl⟩, enums, .literal⟩
  | @captured name v bound =>
    have found : context.bindings.resolve name = .ok v := by
      have known : context.bindings.get? name = some v := bound
      simp [Bindings.resolve, known]
    refine ⟨_, s, bind_ok.mpr ⟨v, s, attempt_ok.mpr ⟨found, rfl⟩, pure_ok.mpr ⟨rfl, rfl⟩⟩, enums,
      .literal⟩
  | emptiness target member resolves =>
    obtain ⟨c, t, run, after, describes⟩ :=
      emptinessColumn_of_resolves context target member resolves entity enums
    exact ⟨_, t, bind_ok.mpr ⟨c, t, run, pure_ok.mpr ⟨rfl, rfl⟩⟩, after, .nullOrEmpty describes⟩
  | convert _ ih => exact ih

/-- Whether a value is a literal null. -/
theorem isNullLiteral_of_isValue {i : Fin n} {r r' : EnumRegistry} {a : Subject}
    (value : IsValue context.vocabulary i r e a r') : isNullLiteral context e = .ok a.isNull := by
  induction value with
  | member => rfl
  | constant => rfl
  | @captured name v bound =>
    have known : context.bindings.get? name = some v := bound
    simp [isNullLiteral, Bindings.resolve, known, Subject.isNull, Except.map]
  | emptiness => rfl
  | convert _ ih => exact ih

/-- A literal null is a value. -/
theorem isValue_of_isNullLiteral (null : isNullLiteral context e = .ok true) (i : Fin n)
    (r : EnumRegistry) :
    ∃ a, IsValue context.vocabulary i r e a r ∧ a.isNull = true := by
  obtain ⟨v, value, isNull⟩ := (isNullLiteral_ok context).mp null
  exact ⟨.literal v, .of_literal ((literal_iff context).mp value), isNull⟩

theorem nullTest?_isSome {op : BinaryOp} :
    (∃ test, nullTest? op = some test) ↔ op = .equal ∨ op = .notEqual := by
  cases op <;> simp [nullTest?]

variable {op : BinaryOp} {left right : Expr} {i : Fin n} {r r₁ r₂ : EnumRegistry} {a b : Subject}

/-- A test for null takes the place of an equality just where one side is a literal null. -/
theorem nullTested?_of_isValue (first : IsValue context.vocabulary i r left a r₁)
    (second : IsValue context.vocabulary i r₁ right b r₂) :
    (op.TestsNull a b ∧ ∃ test e, nullTested? context op left right = .ok (some (test, e))) ∨
      (¬ op.TestsNull a b ∧ nullTested? context op left right = .ok none) := by
  have leftNull := isNullLiteral_of_isValue context first
  have rightNull := isNullLiteral_of_isValue context second
  cases test : nullTest? op with
  | none =>
    have other : ¬ (op = .equal ∨ op = .notEqual) := by simp [← nullTest?_isSome, test]
    exact .inr ⟨fun tests => other tests.1, by simp [nullTested?, test]⟩
  | some text =>
    have equality : op = .equal ∨ op = .notEqual := nullTest?_isSome.mp ⟨text, test⟩
    by_cases null : a.isNull = true ∨ b.isNull = true
    · refine .inl ⟨⟨equality, null⟩, ?_⟩
      by_cases isNull : b.isNull = true
      · exact ⟨text, left, by simp [nullTested?, test, rightNull, isNull, bind, Except.bind, pure,
          Except.pure]⟩
      · have isNull' : a.isNull = true := null.resolve_right isNull
        exact ⟨text, right, by simp [nullTested?, test, rightNull, isNull, leftNull, isNull', bind,
          Except.bind, pure, Except.pure]⟩
    · obtain ⟨notLeft, notRight⟩ := not_or.mp null
      refine .inr ⟨fun tests => null tests.2, ?_⟩
      simp [nullTested?, test, rightNull, notRight, leftNull, notLeft, bind, Except.bind, pure,
        Except.pure]

end Reading
end PredicateSql
