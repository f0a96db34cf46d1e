import PredicateSql.Proofs.Encryption.Tests
import PredicateSql.Proofs.Quoting.Literals

/-!
Comparisons with a truth value. The literal is bound to the column that the other side mentions, in
whatever way it does so, and becomes what that column makes of a truth value.
-/
namespace PredicateSql

open Lowering

variable {n : Nat}

/-- A comparison of the two in this order, or with the sides exchanged. -/
def Expr.compared (op : BinaryOp) (mirrored : Bool) (left right : Expr) : Expr :=
  if mirrored then .binary op right left else .binary op left right

def Condition.compared (op : BinaryOp) (mirrored : Bool) (left right : Operand) : Condition n :=
  if mirrored then .comparison op right left else .comparison op left right

/-- An operand that is no literal is not changed by being bound. -/
theorem Operand.bind_of_column? {context : BindingContext} {o : Operand} {c : ColumnRef}
    (column : o.column? = some c) (c' : Option ColumnRef) : o.bind context c' = .ok o := by
  cases o with
  | literal l => cases column
  | column | nullOrEmpty => cases c' <;> rfl

theorem Expr.compared_ne_modifier (op : BinaryOp) (mirrored : Bool) (left right : Expr)
    (m : Modifier) :
    compared op mirrored left right ≠ .modifier m := by
  cases mirrored <;> exact nofun

/-- Conversions make no difference to what is derived. -/
theorem lowers_strip {context : LoweringContext n} {origin : Origin n} {e : Expr} {s t : Progress}
    {k : Condition n} : Lowers context origin e.strip s k t ↔ Lowers context origin e s k t := by
  fun_induction Expr.strip e with
  | case1 e ih =>
    refine ih.trans ⟨.convert, fun h => ?_⟩
    cases h with
    | convert inner => exact inner
    | truth plain => exact absurd plain (e.strip_ne_convert e)
  | case2 => rfl

theorem Condition.compared_inj {op : BinaryOp} {mirrored : Bool} {o : Operand} {l l' : BoundLiteral}
    (same : (compared op mirrored o (.literal l) : Condition n) =
      compared op mirrored o (.literal l')) :
    l = l' := by
  cases mirrored <;> cases same <;> rfl

/-- The comparison that a predicate is short for is the predicate in parentheses, if the truth value
is written as the literal of the dialect. -/
theorem Condition.comparison_sql_eq {schema : Schema n} {d : Dialect} {o : Operand} {b : Bool}
    {l : BoundLiteral} (bare : l.written.sql d = d.boolLiteral b) :
    (comparison .equal o (.literal l) : Condition n).sql schema d =
      "(" ++ (truth o (!b) : Condition n).sql schema d ++ ")" := by
  simp only [sql, Operand.sql, bare, BinaryOp.sql, Bool.not_not, String.append_assoc]
  rfl

section Compared

variable {context : LoweringContext n} {origin : Origin n} {op : BinaryOp} {e other : Expr}
  {s t : Progress} {o : Operand} {c : ColumnRef} {v : Value}

theorem isNullLiteral_strip (e : Expr) :
    isNullLiteral context e.strip = isNullLiteral context e := by
  fun_induction Expr.strip e with
  | case1 e ih => exact ih
  | case2 => rfl

theorem isNullLiteral_of_literal (value : literal context e = .ok v) :
    isNullLiteral context e = .ok v.isNull := by
  rw [← isNullLiteral_strip]
  rcases (literal_ok context).mp value with constant | ⟨name, captured, bound⟩
  · rw [constant]
    rfl
  · rw [captured]
    simp [isNullLiteral, Bindings.resolve, bound, Except.map]

/-- What mentions a column is no literal null. -/
theorem isNullLiteral_of_column? (read : readOperand context origin e s = (.ok o, t))
    (column : o.column? = some c) : isNullLiteral context e = .ok false := by
  rw [← isNullLiteral_strip]
  rcases (readOperand_ok context).mp read with ⟨path, c', member, -, -⟩ | ⟨v, -, rfl, -⟩ |
    ⟨receiver, args, c', call, -, -⟩
  · rw [member]
    rfl
  · cases column
  · rw [call]
    rfl

theorem nullTested?_eq_none {left right : Expr} (leftOther : isNullLiteral context left = .ok false)
    (rightOther : isNullLiteral context right = .ok false) :
    nullTested? context op left right = .ok none := by
  cases test : nullTest? op with
  | none => simp [nullTested?, test]
  | some text =>
    simp [nullTested?, test, leftOther, rightOther, bind, Except.bind, pure, Except.pure]

theorem readOperand_literal (value : literal context e = .ok v) (s : Progress) :
    readOperand context origin e s = (.ok (.literal (.unbound e.strip v .none)), s) :=
  (readOperand_ok context).mpr (.inr (.inl ⟨v, value, rfl, rfl⟩))

/-- A comparison of something that mentions a column with a literal other than null is lowered just
where the literal can be bound to that column. -/
theorem lowers_compared_iff (comparator : op.isLogical = false)
    (read : readOperand context origin e s = (.ok o, t)) (column : o.column? = some c)
    (value : literal context other = .ok v) (present : v.isNull = false) (mirrored : Bool)
    {k : Condition n} {t' : Progress} :
    Lowers context origin (.compared op mirrored e other) s k t' ↔
      t = t' ∧ ∃ l, bindLiteral ⟨t.enums, context.settings⟩ c v .none = .ok l ∧
        .compared op mirrored o (.literal ⟨other.strip, v, .none, some c, l⟩) = k := by
  have subject := isNullLiteral_of_column? read column
  have constant : isNullLiteral context other = .ok false := by
    rw [isNullLiteral_of_literal value, present]
  have kept : ∀ binding, o.bind binding (some c) = .ok o :=
    fun _ => Operand.bind_of_column? column _
  have literal : (Operand.literal (.unbound other.strip v .none)).column? = none := rfl
  cases mirrored with
  | false =>
    constructor
    · intro h
      obtain ⟨l, r, u, l', r', leftRead, rightRead, leftBound, rightBound, rfl⟩ :=
        Lowers.operands h comparator fun _ => by simp [subject, constant]
      cases leftRead.symm.trans read
      obtain ⟨rfl, rfl⟩ := readOperand_of_literal context value rightRead
      rw [column, Option.some_or] at leftBound rightBound
      obtain rfl := Except.ok.inj (leftBound.symm.trans (kept _))
      obtain ⟨l, form, rfl⟩ := Operand.bind_literal_eq_ok.mp rightBound
      exact ⟨rfl, l, form, rfl⟩
    · rintro ⟨rfl, l, form, rfl⟩
      refine .comparison comparator (nullTested?_eq_none subject constant) read
        (readOperand_literal value t) ?_ ?_
      · rw [column, Option.some_or]
        exact kept _
      · rw [column, Option.some_or]
        exact Operand.bind_literal_eq_ok.mpr ⟨l, form, rfl⟩
  | true =>
    constructor
    · intro h
      obtain ⟨l, r, u, l', r', leftRead, rightRead, leftBound, rightBound, rfl⟩ :=
        Lowers.operands h comparator fun _ => by simp [subject, constant]
      obtain ⟨rfl, rfl⟩ := readOperand_of_literal context value leftRead
      cases rightRead.symm.trans read
      rw [literal, column, Option.none_or] at leftBound rightBound
      obtain rfl := Except.ok.inj (rightBound.symm.trans (kept _))
      obtain ⟨l, form, rfl⟩ := Operand.bind_literal_eq_ok.mp leftBound
      exact ⟨rfl, l, form, rfl⟩
    · rintro ⟨rfl, l, form, rfl⟩
      refine .comparison comparator (nullTested?_eq_none constant subject)
        (readOperand_literal value s) read ?_ ?_
      · rw [literal, column, Option.none_or]
        exact Operand.bind_literal_eq_ok.mpr ⟨l, form, rfl⟩
      · rw [literal, column, Option.none_or]
        exact kept _

end Compared

section Forms

variable {context : BindingContext} {c : ColumnRef} {b : Bool} {l : Literal}

/-- What a column makes of a truth value. A column of names takes none; any other column takes it as
it is, unless it is encrypted. -/
theorem bindLiteral_bool :
    bindLiteral context c (.bool b) .none = .ok l ↔ c.stringify = none ∧
      ((c.cipher = none ∧ l = ⟨.bool b, .none, some c.kind⟩) ∨
        ∃ spec key, c.cipher = some spec ∧ FieldCipher.ofSpec context.settings spec = .ok key ∧
          l = ⟨.string (key.encryptText (Value.bool b).text), .none, some .string⟩) := by
  rw [bindLiteral_eq_ok]
  cases names : c.stringify with
  | some key =>
    cases found : context.enums.find? key <;>
      simp [BindingContext.named, names, found, Value.resolveEnum]
  | none =>
    cases cipher : c.cipher with
    | none => simp [BindingContext.named, BindingContext.sealed, names, cipher, eq_comm]
    | some spec =>
      cases derived : FieldCipher.ofSpec context.settings spec <;>
        simp [BindingContext.named, BindingContext.sealed, names, cipher, derived, Except.map,
          Value.encrypt, Wildcard.apply, eq_comm]

/-- No literal in quotes is a literal of the dialect for a truth value. -/
theorem stringLiteral_ne_boolLiteral (d : Dialect) (text : String) (b : Bool) :
    d.stringLiteral text ≠ d.boolLiteral b := by
  intro same
  apply not_unquoted_stringLiteral d text
  rw [same]
  exact unquoted_boolLiteral d b

/-- A truth value is written as the literal of the dialect for it just where its column neither
holds names nor is encrypted. -/
theorem bindLiteral_bool_bare (d : Dialect) :
    (∃ l, bindLiteral context c (.bool b) .none = .ok l ∧ l.sql d = d.boolLiteral b) ↔
      c.stringify = none ∧ c.cipher = none := by
  constructor
  · rintro ⟨l, bound, text⟩
    obtain ⟨names, ⟨plain, -⟩ | ⟨spec, key, -, -, rfl⟩⟩ := bindLiteral_bool.mp bound
    · exact ⟨names, plain⟩
    · exact absurd text (stringLiteral_ne_boolLiteral d _ b)
  · rintro ⟨names, plain⟩
    exact ⟨_, bindLiteral_bool.mpr ⟨names, .inl ⟨plain, rfl⟩⟩, rfl⟩

/-- A column of names is one of a member with an enumeration. -/
theorem ColumnRef.Describes.names_eq_none {r : EnumRegistry} {m : Target} (h : c.Describes r m) :
    m.names = none ↔ c.stringify = none := by
  rw [h.names]
  cases names : c.stringify with
  | none => simp
  | some key =>
    obtain ⟨d, found⟩ := h.known key names
    simp [found]

/-- A column of names takes no truth value, and an encrypted one none if there is no key. -/
theorem bindLiteral_bool_ne_ok (untaken : c.stringify ≠ none ∨
    ∃ spec ∈ c.cipher, ¬ spec.Keyed context.settings) :
    bindLiteral context c (.bool b) .none ≠ .ok l := by
  intro bound
  obtain ⟨unnamed, form⟩ := bindLiteral_bool.mp bound
  rcases untaken with named | ⟨spec, encrypted, keyless⟩
  · exact named unnamed
  · rcases form with ⟨plain, -⟩ | ⟨spec', key, encrypted', derived, -⟩
    · simp [plain] at encrypted
    · cases encrypted.symm.trans encrypted'
      exact keyless (FieldCipher.ofSpec_ok.mp ⟨key, derived⟩)

end Forms
end PredicateSql
