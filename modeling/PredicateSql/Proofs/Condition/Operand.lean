import PredicateSql.Proofs.Condition.Binding

/-!
The parts of a predicate as data. Reading an operand or finding a subquery is silent; writing one is
reading it and then writing its pieces.
-/
namespace PredicateSql

open Lowering

variable {n : Nat} (context : LoweringContext n)

/-- The member that a test for null or empty is about. -/
def emptinessTarget? : Option Expr → List Expr → Option Expr
  | none, [e] => some e
  | some e, [] => some e
  | _, _ => none

def emptinessColumn (origin : Origin n) (receiver : Option Expr) (args : List Expr) :
    Lowering ColumnRef :=
  match emptinessTarget? receiver args with
  | some e => memberOperand context origin .isNullOrEmpty (some e)
  | none => reject .needsOneMember

/-- The operand of a comparison that an expression stands for. -/
def readOperand (origin : Origin n) : Expr → Lowering Operand
  | .convert e => readOperand origin e
  | .member path => do return .column (← resolveColumn context origin path)
  | .constant value => pure (.literal (.unbound (.constant value) value .none))
  | .captured name => do
    return .literal (.unbound (.captured name) (← attempt (context.bindings.resolve name)) .none)
  | .call .isNullOrEmpty receiver args => do
    return .nullOrEmpty (← emptinessColumn context origin receiver args)
  | e => reject (.notOperand e.text)

/-- The literal that a boolean constant or captured name stands for. -/
def readTruth (e : Expr) : Lowering Operand := do
  let value ← attempt (literal context e)
  match value.bool? with
  | some _ => return .literal (.unbound e value .none)
  | none => reject (.valueNotBoolean e.text)

/-- The boolean operand that an expression stands for, if it is one. -/
def readBoolean? (origin : Origin n) : Expr → Option (Lowering Operand)
  | .convert e => readBoolean? origin e
  | .member path => some do
    let column ← resolveColumn context origin path
    if column.kind = .bool then return .column column else reject (.memberNotBoolean path.text)
  | .constant value => some (readTruth context (.constant value))
  | .captured name => some (readTruth context (.captured name))
  | .call .isNullOrEmpty receiver args => some do
    return .nullOrEmpty (← emptinessColumn context origin receiver args)
  | _ => none

/-- The rows of the collection at a path, under two new aliases. -/
def subquery (origin : Origin n) (path : MemberPath) : Lowering (Subquery n) := do
  let outer ← walk context [] origin path.navigation
  let owner := context.schema.entity outer.entity
  match owner.navigationFor? path.property with
  | none => lacks (.navigation owner.typeName path.property)
  | some navigation =>
    if !navigation.many then reject (.singleValued path.text)
    else
      let child := context.schema.entity navigation.target
      match child.foreignKeyTo? owner with
      | none => lacks (.foreignKeyTo child.typeName owner.typeName path.text)
      | some fk =>
        let key ← attempt owner.primaryKey
        let childAlias ← freshAlias context
        let ownerAlias ← freshAlias context
        return ⟨path, outer, navigation, fk, key, childAlias, ownerAlias⟩

theorem emptinessColumn_silent (origin : Origin n) (receiver : Option Expr) (args : List Expr) :
    Silent (emptinessColumn context origin receiver args) := by
  unfold emptinessColumn
  split
  · exact memberOperand_silent context origin _ _
  · exact Silent.reject _

theorem readOperand_silent (origin : Origin n) (e : Expr) :
    Silent (readOperand context origin e) := by
  fun_induction readOperand context origin e with
  | case1 e ih => exact ih
  | case2 path => exact (resolveColumn_silent context origin path).bind fun _ => Silent.pure _
  | case3 value => exact Silent.pure _
  | case4 name => exact (Silent.attempt _).bind fun _ => Silent.pure _
  | case5 receiver args =>
    exact (emptinessColumn_silent context origin receiver args).bind fun _ => Silent.pure _
  | case6 e => exact Silent.reject _

theorem readTruth_silent (e : Expr) : Silent (readTruth context e) := by
  refine (Silent.attempt _).bind fun value => ?_
  split
  · exact Silent.pure _
  · exact Silent.reject _

theorem readBoolean?_silent (origin : Origin n) (e : Expr) :
    ∀ read ∈ readBoolean? context origin e, Silent read := by
  fun_induction readBoolean? context origin e with
  | case1 e ih => exact ih
  | case2 path =>
    rintro _ ⟨⟩
    refine (resolveColumn_silent context origin path).bind fun column => ?_
    split
    · exact Silent.pure _
    · exact Silent.reject _
  | case3 value =>
    rintro _ ⟨⟩
    exact readTruth_silent context _
  | case4 name =>
    rintro _ ⟨⟩
    exact readTruth_silent context _
  | case5 receiver args =>
    rintro _ ⟨⟩
    exact (emptinessColumn_silent context origin receiver args).bind fun _ => Silent.pure _
  | case6 e => nofun

theorem subquery_silent (origin : Origin n) (path : MemberPath) :
    Silent (subquery context origin path) := by
  refine (walk_silent context [] path.navigation origin).bind fun outer => ?_
  dsimp only
  split
  · exact Silent.lacks _
  · split
    · exact Silent.reject _
    · split
      · exact Silent.lacks _
      · refine (Silent.attempt _).bind fun key => ?_
        refine (Silent.freshAlias context).bind fun childAlias => ?_
        exact (Silent.freshAlias context).bind fun ownerAlias => Silent.pure _

variable {context} in
/-- The operand that is not the literal null is tested. -/
theorem nullTested?_some {op : BinaryOp} {left right e : Expr} {test : String}
    (tested : nullTested? context op left right = .ok (some (test, e))) :
    nullTest? op = some test ∧ ((e = left ∧ isNullLiteral context right = .ok true) ∨
      (e = right ∧ isNullLiteral context left = .ok true)) := by
  unfold nullTested? at tested
  cases known : nullTest? op with
  | none => simp [known] at tested
  | some test' =>
    rcases rightNull : isNullLiteral context right with _ | _ | _ <;>
      rcases leftNull : isNullLiteral context left with _ | _ | _ <;>
      simp_all [bind, Except.bind, pure, Except.pure]

/-- A collection of an entity, with the columns that link its rows to their owner. -/
theorem subquery_ok {origin : Origin n} {path : MemberPath} {q : Subquery n} {s t : Progress} :
    subquery context origin path s = (.ok q, t) ↔ ∃ u,
      walk context [] origin path.navigation s = (.ok q.outer, u) ∧ q.path = path ∧
      (context.schema.entity q.outer.entity).navigationFor? path.property = some q.navigation ∧
      q.navigation.many = true ∧
      (context.schema.entity q.navigation.target).foreignKeyTo?
        (context.schema.entity q.outer.entity) = some q.foreignKey ∧
      (context.schema.entity q.outer.entity).primaryKey = .ok q.key ∧
      q.childAlias = context.aliases u.issued ∧ q.ownerAlias = context.aliases (u.issued + 1) ∧
      { u with issued := u.issued + 2 } = t := by
  constructor
  · intro run
    obtain ⟨outer, u, walked, rest⟩ := bind_ok.mp run
    cases found : (context.schema.entity outer.entity).navigationFor? path.property with
    | none =>
      simp only [found] at rest
      exact absurd rest lacks_ok
    | some navigation =>
      cases many : navigation.many with
      | false =>
        simp only [found, many, Bool.not_false, if_true] at rest
        exact absurd rest reject_ok
      | true =>
        simp only [found, many, Bool.not_true, Bool.false_eq_true, if_false] at rest
        cases linked : (context.schema.entity navigation.target).foreignKeyTo?
            (context.schema.entity outer.entity) with
        | none =>
          simp only [linked] at rest
          exact absurd rest lacks_ok
        | some fk =>
          simp only [linked] at rest
          obtain ⟨key, _, keyed, rest⟩ := bind_ok.mp rest
          obtain ⟨key, rfl⟩ := attempt_ok.mp keyed
          obtain ⟨_, _, first, rest⟩ := bind_ok.mp rest
          obtain ⟨rfl, rfl⟩ := freshAlias_ok.mp first
          obtain ⟨_, _, second, rest⟩ := bind_ok.mp rest
          obtain ⟨rfl, rfl⟩ := freshAlias_ok.mp second
          obtain ⟨rfl, rfl⟩ := pure_ok.mp rest
          exact ⟨u, walked, rfl, found, many, linked, key, rfl, rfl, rfl⟩
  · rintro ⟨u, walked, rfl, found, many, linked, key, first, second, rfl⟩
    refine bind_ok.mpr ⟨q.outer, u, walked, ?_⟩
    simp only [found, many, Bool.not_true, Bool.false_eq_true, if_false, linked]
    refine bind_ok.mpr ⟨q.key, u, attempt_ok.mpr ⟨key, rfl⟩, ?_⟩
    refine bind_ok.mpr ⟨q.childAlias, _, freshAlias_ok.mpr ⟨first.symm, rfl⟩, ?_⟩
    refine bind_ok.mpr ⟨q.ownerAlias, _, freshAlias_ok.mpr ⟨second.symm, rfl⟩, ?_⟩
    exact pure_ok.mpr ⟨rfl, rfl⟩

section Read

variable {origin : Origin n} {receiver : Option Expr} {args : List Expr} {s t : Progress}

theorem literal_ok {e : Expr} {v : Value} :
    literal context e = .ok v ↔ e.strip = .constant v ∨
      ∃ name, e.strip = .captured name ∧ context.bindings.get? name = some v := by
  fun_induction literal context e with
  | case1 e ih => exact ih
  | case2 value => simp [Expr.strip]
  | case3 name =>
    cases bound : context.bindings.get? name <;> simp [Bindings.resolve, bound, Expr.strip]
  | case4 e => cases e <;> simp_all [Expr.strip]

theorem literal_strip (e : Expr) : literal context e.strip = literal context e := by
  fun_induction Expr.strip e with
  | case1 e ih => exact ih
  | case2 => rfl

theorem isNullLiteral_ok {e : Expr} :
    isNullLiteral context e = .ok true ↔ ∃ v, literal context e = .ok v ∧ v.isNull = true := by
  fun_induction isNullLiteral context e with
  | case1 e ih => exact ih
  | case2 value => simp [literal]
  | case3 name =>
    cases bound : context.bindings.get? name <;> simp [literal, Bindings.resolve, bound, Except.map]
  | case4 e => cases e <;> simp_all [literal]

theorem memberOperand_ok {method : Method} {c : ColumnRef} :
    memberOperand context origin method receiver s = (.ok c, t) ↔
      ∃ path, receiver.map Expr.strip = some (.member path) ∧
        resolveColumn context origin path s = (.ok c, t) := by
  cases member : receiver.map Expr.strip with
  | none => simp [memberOperand, member]
  | some e => cases e <;> simp [memberOperand, member]

theorem emptinessColumn_ok {c : ColumnRef} :
    emptinessColumn context origin receiver args s = (.ok c, t) ↔
      ∃ e path, emptinessTarget? receiver args = some e ∧ e.strip = .member path ∧
        resolveColumn context origin path s = (.ok c, t) := by
  cases target : emptinessTarget? receiver args with
  | none => simp [emptinessColumn, target]
  | some e => simp [emptinessColumn, target, memberOperand_ok]

/-- An operand is a member, a literal that has not been bound, or the test for null or empty. -/
theorem readOperand_ok {e : Expr} {o : Operand} :
    readOperand context origin e s = (.ok o, t) ↔
      (∃ path c, e.strip = .member path ∧ resolveColumn context origin path s = (.ok c, t) ∧
        o = .column c) ∨
      (∃ v, literal context e = .ok v ∧ o = .literal (.unbound e.strip v .none) ∧ s = t) ∨
      (∃ receiver args c, e.strip = .call .isNullOrEmpty receiver args ∧
        emptinessColumn context origin receiver args s = (.ok c, t) ∧ o = .nullOrEmpty c) := by
  fun_induction readOperand context origin e with
  | case1 e ih => exact ih
  | case2 path =>
    simp only [bind_ok, pure_ok]
    simp [literal, Expr.strip, eq_comm]
  | case3 value =>
    rw [pure_ok]
    simp [literal, Expr.strip, eq_comm]
  | case4 name =>
    simp only [bind_ok, pure_ok, attempt_ok, literal, Expr.strip, reduceCtorEq, false_and,
      exists_false, false_or, or_false]
    constructor
    · rintro ⟨v, _, ⟨value, rfl⟩, rfl, rfl⟩
      exact ⟨v, value, rfl, rfl⟩
    · rintro ⟨v, value, rfl, rfl⟩
      exact ⟨v, s, ⟨value, rfl⟩, rfl, rfl⟩
  | case5 receiver args =>
    simp only [bind_ok, pure_ok, literal, Expr.strip, reduceCtorEq, false_and, exists_false,
      false_or]
    constructor
    · rintro ⟨c, _, resolved, rfl, rfl⟩
      exact ⟨receiver, args, c, rfl, resolved, rfl⟩
    · rintro ⟨_, _, c, ⟨⟩, resolved, rfl⟩
      exact ⟨c, t, resolved, rfl, rfl⟩
  | case6 e => cases e <;> simp_all [literal, Expr.strip, reject_ok]

/-- A literal that was just read has not been bound. -/
theorem readOperand_unbound {e : Expr} {o : Operand}
    (run : readOperand context origin e s = (.ok o, t)) : o.Unbound := by
  rcases (readOperand_ok context).mp run with
    ⟨_, _, -, -, rfl⟩ | ⟨_, -, rfl, -⟩ | ⟨_, _, _, -, -, rfl⟩
  · trivial
  · rfl
  · trivial

theorem readTruth_ok {e : Expr} {o : Operand} :
    readTruth context e s = (.ok o, t) ↔ ∃ b, literal context e = .ok (.bool b) ∧
      .literal (.unbound e (.bool b) .none) = o ∧ s = t := by
  constructor
  · intro run
    obtain ⟨v, _, evaluated, rest⟩ := bind_ok.mp run
    obtain ⟨value, rfl⟩ := attempt_ok.mp evaluated
    cases v with
    | bool b =>
      obtain ⟨rfl, rfl⟩ := pure_ok.mp rest
      exact ⟨b, value, rfl, rfl⟩
    | _ => exact absurd rest reject_ok
  · rintro ⟨b, value, rfl, rfl⟩
    exact bind_ok.mpr ⟨_, s, attempt_ok.mpr ⟨value, rfl⟩, pure_ok.mpr ⟨rfl, rfl⟩⟩

/-- A boolean operand is a member, a literal or the test for null or empty. -/
theorem readBoolean?_cases {e : Expr} {read : Lowering Operand} {o : Operand}
    (boolean : readBoolean? context origin e = some read) (run : read s = (.ok o, t)) :
    (∃ path c, e.strip = .member path ∧ resolveColumn context origin path s = (.ok c, t) ∧
      c.kind = .bool ∧ o = .column c) ∨
    (((∃ v, e.strip = .constant v) ∨ ∃ name, e.strip = .captured name) ∧
      ∃ b, literal context e.strip = .ok (.bool b) ∧
        o = .literal (.unbound e.strip (.bool b) .none) ∧ s = t) ∨
    (∃ receiver args c, e.strip = .call .isNullOrEmpty receiver args ∧
      emptinessColumn context origin receiver args s = (.ok c, t) ∧ o = .nullOrEmpty c) := by
  fun_induction readBoolean? context origin e with
  | case1 e ih => exact ih boolean
  | case2 path =>
    cases boolean
    obtain ⟨c, u, resolved, rest⟩ := bind_ok.mp run
    split at rest
    next kind =>
      obtain ⟨rfl, rfl⟩ := pure_ok.mp rest
      exact .inl ⟨path, c, rfl, resolved, kind, rfl⟩
    · exact absurd rest reject_ok
  | case3 value =>
    cases boolean
    obtain ⟨b, literal, rfl, rfl⟩ := (readTruth_ok context).mp run
    exact .inr (.inl ⟨.inl ⟨value, rfl⟩, b, literal, rfl, rfl⟩)
  | case4 name =>
    cases boolean
    obtain ⟨b, literal, rfl, rfl⟩ := (readTruth_ok context).mp run
    exact .inr (.inl ⟨.inr ⟨name, rfl⟩, b, literal, rfl, rfl⟩)
  | case5 receiver args =>
    cases boolean
    obtain ⟨c, u, resolved, built⟩ := bind_ok.mp run
    obtain ⟨rfl, rfl⟩ := pure_ok.mp built
    exact .inr (.inr ⟨receiver, args, c, rfl, resolved, rfl⟩)
  | case6 e => cases boolean

/-- A boolean operand is an operand. -/
theorem readOperand_of_readBoolean? {e : Expr} {read : Lowering Operand} {o : Operand}
    (boolean : readBoolean? context origin e = some read) (run : read s = (.ok o, t)) :
    readOperand context origin e s = (.ok o, t) := by
  refine (readOperand_ok context).mpr ?_
  rcases readBoolean?_cases context boolean run with ⟨path, c, member, resolved, -, rfl⟩ |
    ⟨-, b, value, rfl, rfl⟩ | ⟨receiver, args, c, call, resolved, rfl⟩
  · exact .inl ⟨path, c, member, resolved, rfl⟩
  · exact .inr (.inl ⟨.bool b, (literal_strip context e).symm.trans value, rfl, rfl⟩)
  · exact .inr (.inr ⟨receiver, args, c, call, resolved, rfl⟩)

end Read

end PredicateSql
