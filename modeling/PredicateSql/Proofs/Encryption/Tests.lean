import PredicateSql.Proofs.Acceptance.Operands
import PredicateSql.Proofs.Encryption.Literals

/-!
The literals in the tests of a condition. Wherever a literal meets a member, it is written for the
column of that member.
-/
namespace PredicateSql

open Lowering

variable {n : Nat}

/-- The path leads to these rows and this column of theirs, which holds these names. A column that
is to hold names holds those of the enumeration that is known for it; without an enumeration it
holds none. -/
structure Stored (schema : Schema n) (joins : List JoinClause) (origin : Origin n)
    (r : EnumRegistry) (path : MemberPath) (rows : Origin n) (column : Column)
    (names : Option EnumDef) : Prop where
  leads : Leads schema joins origin path.navigation rows
  declared : (schema.entity rows.entity).columnFor? path.property = some column
  named : ∀ d ∈ names, column.stringify = true ∧
    r.find? (EnumRegistry.keyOf (schema.entity rows.entity) path.property) = some d
  unnamed : names = none → column.stringify = true → column.enumType = none

theorem Stored.mono {schema : Schema n} {joins more : List JoinClause} {origin rows : Origin n}
    {r r' : EnumRegistry} {path : MemberPath} {column : Column} {names : Option EnumDef}
    (h : Stored schema joins origin r path rows column names) (kept : joins <+: more)
    (grown : r.Grows schema r') : Stored schema more origin r' path rows column names where
  leads := h.leads.mono kept
  declared := h.declared
  named d held := ⟨(h.named d held).1, grown.kept _ d (h.named d held).2⟩
  unnamed := h.unnamed

/-- The expression tests a member against a literal, other than for null. The last argument is the
text of the test, from those of the column and of the literal. -/
inductive Expr.Confronts (bindings : Bindings) :
    Expr → MemberPath → Value → Wildcard → (String → String → String) → Prop
  | memberFirst {op left right path v} (comparator : op.isLogical = false)
      (onMember : left.strip = .member path) (literal : right.IsLiteral bindings v)
      (notNull : op = .equal ∨ op = .notEqual → v.isNull = false) :
      Confronts bindings (.binary op left right) path v .none
        fun column literal => "(" ++ column ++ (" " ++ op.sql ++ " ") ++ literal ++ ")"
  | memberSecond {op left right path v} (comparator : op.isLogical = false)
      (literal : left.IsLiteral bindings v) (onMember : right.strip = .member path)
      (notNull : op = .equal ∨ op = .notEqual → v.isNull = false) :
      Confronts bindings (.binary op left right) path v .none
        fun column literal => "(" ++ literal ++ (" " ++ op.sql ++ " ") ++ column ++ ")"
  | like {method w receiver path pattern v} (opening : method.wildcard? = some w)
      (onMember : receiver.map Expr.strip = some (.member path))
      (literal : pattern.IsLiteral bindings v) :
      Confronts bindings (.call method receiver [pattern]) path v w
        fun column literal => "(" ++ column ++ " LIKE " ++ literal ++ ")"
  | membership {source arg path items} (collection : source.IsLiteral bindings (.list items))
      (onMember : arg.strip = .member path) (nonempty : items ≠ []) :
      Confronts bindings (.call .contains (some source) [arg]) path (.list items) .none
        fun column literal => "(" ++ column ++ " IN (" ++ literal ++ "))"

section Members

variable (context : LoweringContext n) {origin : Origin n} {s t : Progress}

/-- A member is read as its column. -/
theorem readOperand_of_member {e : Expr} {path : MemberPath} {o : Operand}
    (member : e.strip = .member path) (run : readOperand context origin e s = (.ok o, t)) :
    ∃ c, resolveColumn context origin path s = (.ok c, t) ∧ o = .column c := by
  rcases (readOperand_ok context).mp run with ⟨path', c, member', resolved, rfl⟩ |
    ⟨v, value, -, -⟩ | ⟨receiver, args, c, call, -, -⟩
  · cases member.symm.trans member'
    exact ⟨c, resolved, rfl⟩
  · rcases (literal_ok context).mp value with constant | ⟨name, captured, -⟩
    · cases member.symm.trans constant
    · cases member.symm.trans captured
  · cases member.symm.trans call

/-- A literal is read as itself. -/
theorem readOperand_of_literal {e : Expr} {v : Value} {o : Operand}
    (value : literal context e = .ok v) (run : readOperand context origin e s = (.ok o, t)) :
    o = .literal (.unbound e.strip v .none) ∧ s = t := by
  have literal := (literal_ok context).mp value
  rcases (readOperand_ok context).mp run with ⟨path, c, member, -, -⟩ |
    ⟨v', value', rfl, rfl⟩ | ⟨receiver, args, c, call, -, -⟩
  · simp [member] at literal
  · cases value.symm.trans value'
    exact ⟨rfl, rfl⟩
  · simp [call] at literal

end Members

section Tests

variable {context : LoweringContext n} {origin : Origin n} {s t : Progress} {k : Condition n}
  {op : BinaryOp} {e left right : Expr} {path : MemberPath} {v : Value}

theorem not_isNullLiteral_of_member (member : e.strip = .member path) :
    isNullLiteral context e ≠ .ok true := by
  intro null
  obtain ⟨v, value, -⟩ := (isNullLiteral_ok context).mp null
  have literal := (literal_ok context).mp value
  simp [member] at literal

theorem not_isNullLiteral_of_literal (value : literal context e = .ok v)
    (other : v.isNull = false) :
    isNullLiteral context e ≠ .ok true := by
  intro null
  obtain ⟨v', value', isNull⟩ := (isNullLiteral_ok context).mp null
  cases value.symm.trans value'
  rw [other] at isNull
  cases isNull

/-- A comparison that is no test for null is a comparison of its operands. -/
theorem Lowers.operands (h : Lowers context origin (.binary op left right) s k t)
    (comparator : op.isLogical = false)
    (notNull : op = .equal ∨ op = .notEqual →
      isNullLiteral context left ≠ .ok true ∧ isNullLiteral context right ≠ .ok true) :
    ∃ l r u l' r', readOperand context origin left s = (.ok l, u) ∧
      readOperand context origin right u = (.ok r, t) ∧
      l.bind ⟨t.enums, context.settings⟩ (l.column?.or r.column?) = .ok l' ∧
      r.bind ⟨t.enums, context.settings⟩ (l.column?.or r.column?) = .ok r' ∧
      k = .comparison op l' r' := by
  cases h with
  | logical connective =>
    rw [comparator] at connective
    cases connective
  | comparison _ _ leftRead rightRead leftBound rightBound =>
    exact ⟨_, _, _, _, _, leftRead, rightRead, leftBound, rightBound, rfl⟩
  | nullTest _ tested =>
    obtain ⟨found, side⟩ := nullTested?_some tested
    obtain ⟨leftOther, rightOther⟩ := notNull (nullTest?_isSome.mp ⟨_, found⟩)
    rcases side with ⟨-, null⟩ | ⟨-, null⟩
    · exact absurd null rightOther
    · exact absurd null leftOther
  | truth _ boolean => cases boolean

end Tests
end PredicateSql
