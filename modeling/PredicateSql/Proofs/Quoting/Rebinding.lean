import PredicateSql.Proofs.Quoting.Uses

/-!
If a captured string is only ever compared with columns that take it as it is, then another string
in its place leads to a condition with the same pieces.
-/
namespace PredicateSql

open Lowering

variable {n : Nat} {context : LoweringContext n} {b : Bindings} {s t : Progress}

theorem literal_rebind (alike : context.bindings.Alike b) {e : Expr} {v : Value}
    (value : literal context e = .ok v) :
    ∃ v', literal (context.rebind b) e = .ok v' ∧ v'.outline = v.outline ∧
      (v' = v ∨ ∃ name, e.capturedName? = some name ∧ context.bindings.Varies b name) := by
  rcases (literal_ok context).mp value with constant | ⟨name, captured, bound⟩
  · exact ⟨v, (literal_ok _).mpr (.inl constant), rfl, .inl rfl⟩
  · have same := alike name
    rw [bound] at same
    obtain ⟨v', bound', same⟩ := Option.map_eq_some_iff.mp same
    refine ⟨v', (literal_ok _).mpr (.inr ⟨name, captured, bound'⟩), same, ?_⟩
    by_cases equal : v' = v
    · exact .inl equal
    · refine .inr ⟨name, Expr.capturedName?_eq_some.mpr captured, ?_⟩
      simpa [Bindings.Varies, bound, bound'] using equal

theorem isNullLiteral_rebind (alike : context.bindings.Alike b) (e : Expr) :
    isNullLiteral (context.rebind b) e = isNullLiteral context e := by
  fun_induction isNullLiteral context e with
  | case1 e ih => exact ih
  | case2 => rfl
  | case3 name =>
    have same := alike name
    simp only [isNullLiteral, LoweringContext.rebind, Bindings.resolve]
    cases bound : context.bindings.get? name with
    | none =>
      rw [bound] at same
      rw [Option.map_eq_none_iff.mp same]
    | some v =>
      rw [bound] at same
      obtain ⟨v', bound', same⟩ := Option.map_eq_some_iff.mp same
      have null : v'.isNull = v.isNull := by
        rw [← v'.isNull_outline, same, v.isNull_outline]
      simp only [bound', Except.map, null]
  | case4 e unfolded => cases e <;> first | rfl | simp_all

theorem nullTested?_rebind (alike : context.bindings.Alike b) (op : BinaryOp)
    (left right : Expr) :
    nullTested? (context.rebind b) op left right = nullTested? context op left right := by
  simp only [nullTested?, isNullLiteral_rebind alike]

/-- The operand stays the same, or it is a literal from a name that varies. -/
inductive Operand.Alike (b b' : Bindings) (e : Expr) : Operand → Operand → Prop
  | same (o : Operand) : Alike b b' e o o
  | literal {name v v'} (captured : e.capturedName? = some name) (varies : b.Varies b' name)
      (same : v'.outline = v.outline) :
      Alike b b' e (.literal (.unbound (.captured name) v .none))
        (.literal (.unbound (.captured name) v' .none))

theorem readOperand_rebind (alike : context.bindings.Alike b) {origin : Origin n} {e : Expr}
    {o : Operand} (run : readOperand context origin e s = (.ok o, t)) :
    ∃ o', readOperand (context.rebind b) origin e s = (.ok o', t) ∧
      Operand.Alike context.bindings b e o o' := by
  rcases (readOperand_ok context).mp run with ⟨path, c, member, resolved, rfl⟩ |
    ⟨v, value, rfl, rfl⟩ | ⟨receiver, args, c, call, resolved, rfl⟩
  · refine ⟨_, (readOperand_ok _).mpr (.inl ⟨path, c, member, ?_, rfl⟩), .same _⟩
    rw [resolveColumn_rebind]
    exact resolved
  · obtain ⟨v', value', same, equal⟩ := literal_rebind alike value
    refine ⟨_, (readOperand_ok _).mpr (.inr (.inl ⟨v', value', rfl, rfl⟩)), ?_⟩
    rcases equal with rfl | ⟨name, captured, varies⟩
    · exact .same _
    · rw [Expr.capturedName?_eq_some.mp captured]
      exact .literal captured varies same
  · refine ⟨_, (readOperand_ok _).mpr (.inr (.inr ⟨receiver, args, c, call, ?_, rfl⟩)), .same _⟩
    rw [emptinessColumn_rebind]
    exact resolved

theorem readTruth_rebind (alike : context.bindings.Alike b) {e : Expr} {o : Operand}
    (run : readTruth context e s = (.ok o, t)) : readTruth (context.rebind b) e s = (.ok o, t) := by
  obtain ⟨value, held, rfl, rfl⟩ := (readTruth_ok context).mp run
  obtain ⟨v', held', same, -⟩ := literal_rebind alike held
  obtain rfl := Value.eq_of_outline_eq_bool same
  exact (readTruth_ok _).mpr ⟨value, held', rfl, rfl⟩

/-- Whether an expression is written as a boolean operand does not depend on what is bound. -/
theorem readBoolean?_rebind_none {origin : Origin n} {e : Expr}
    (compound : readBoolean? context origin e = none) :
    readBoolean? (context.rebind b) origin e = none := by
  fun_induction readBoolean? context origin e with
  | case1 e ih => exact ih compound
  | case2 | case3 | case4 | case5 => cases compound
  | case6 e conversion member constant captured test =>
    cases e with
    | convert e => exact absurd rfl (conversion e)
    | member path => exact absurd rfl (member path)
    | constant value => exact absurd rfl (constant value)
    | captured name => exact absurd rfl (captured name)
    | call method receiver args =>
      cases method with
      | isNullOrEmpty => exact absurd rfl (test receiver args)
      | _ => rfl
    | _ => rfl

/-- Boolean operands do not vary: a string is none. -/
theorem readBoolean?_rebind (alike : context.bindings.Alike b) {origin : Origin n} {e : Expr}
    {read : Lowering Operand} {o : Operand} (boolean : readBoolean? context origin e = some read)
    (run : read s = (.ok o, t)) :
    ∃ read', readBoolean? (context.rebind b) origin e = some read' ∧ read' s = (.ok o, t) := by
  fun_induction readBoolean? context origin e with
  | case1 e ih => exact ih boolean
  | case2 path =>
    cases boolean
    refine ⟨_, rfl, ?_⟩
    rw [resolveColumn_rebind]
    exact run
  | case3 value =>
    cases boolean
    exact ⟨_, rfl, readTruth_rebind alike run⟩
  | case4 name =>
    cases boolean
    exact ⟨_, rfl, readTruth_rebind alike run⟩
  | case5 receiver args =>
    cases boolean
    refine ⟨_, rfl, ?_⟩
    rw [emptinessColumn_rebind]
    exact run
  | case6 => cases boolean

/-- The column of an operand is that of its subject in the schema. -/
theorem readOperand_subject? {origin : Origin n} {e : Expr} {o : Operand} {c : ColumnRef}
    (run : readOperand context origin e s = (.ok o, t)) (column : c ∈ o.column?) :
    ∃ path declared, e.subject? = some path ∧
      context.schema.column? origin.entity path = some declared ∧
      (declared.isVerbatim = true → c.isVerbatim = true) := by
  rcases (readOperand_ok context).mp run with ⟨path, c', member, resolved, rfl⟩ |
    ⟨v, -, rfl, -⟩ | ⟨receiver, args, c', call, resolved, rfl⟩
  · obtain rfl := Option.some.inj column
    obtain ⟨declared, found, verbatim⟩ := resolveColumn_column? resolved
    refine ⟨path, declared, ?_, found, verbatim⟩
    simp [Expr.subject?, member]
  · cases column
  · obtain rfl := Option.some.inj column
    obtain ⟨target, path, found, member, resolved⟩ := (emptinessColumn_ok context).mp resolved
    obtain ⟨declared, found', verbatim⟩ := resolveColumn_column? resolved
    refine ⟨path, declared, ?_, found', verbatim⟩
    simp [Expr.subject?, call, found, Expr.memberPath?, member]

/-- Every name that varies is used with columns that take literals as they are. -/
def Bindings.Confined (b b' : Bindings) (uses : List (String × Column)) : Prop :=
  ∀ name column, (name, column) ∈ uses → b.Varies b' name → column.isVerbatim = true

theorem Bindings.Confined.append {b b' : Bindings} {uses uses' : List (String × Column)} :
    b.Confined b' (uses ++ uses') ↔ b.Confined b' uses ∧ b.Confined b' uses' := by
  simp only [Confined, List.mem_append, or_imp, forall_and]

/-- A literal with another string in it has the same pieces. -/
theorem BoundLiteral.pieces_captured {d : Dialect} {name : String} {v v' : Value} {w : Wildcard}
    {c : Option ColumnRef} {hint : Option ColumnKind} (same : v'.outline = v.outline)
    (verbatim : c.all ColumnRef.isVerbatim = true) :
    (BoundLiteral.mk (.captured name) v' w c ⟨v', w, hint⟩).pieces d =
      (BoundLiteral.mk (.captured name) v w c ⟨v, w, hint⟩).pieces d := by
  simp only [pieces, isVerbatim, verbatim, if_true]
  rw [← v'.pieces_outline, same, v.pieces_outline]

/-- An operand with another string in it is bound to the same pieces. -/
theorem Operand.Alike.bind {b b' : Bindings} {e : Expr} {o o' p : Operand} {d : Dialect}
    {binding : BindingContext} {c : Option ColumnRef} (alike : Operand.Alike b b' e o o')
    (verbatim : ∀ name, e.capturedName? = some name → b.Varies b' name →
      ∀ column ∈ c, column.isVerbatim = true)
    (bound : o.bind binding c = .ok p) :
    ∃ p', o'.bind binding c = .ok p' ∧ p'.pieces d = p.pieces d := by
  cases alike with
  | same => exact ⟨p, bound, rfl⟩
  | literal captured varies same =>
    cases c with
    | none =>
      obtain rfl := Except.ok.inj bound
      exact ⟨_, rfl, BoundLiteral.pieces_captured (c := none) same rfl⟩
    | some column =>
      have plain := verbatim _ captured varies column rfl
      simp only [Operand.bind, BoundLiteral.unbound, bindLiteral_verbatim plain, Except.map,
        Except.ok.injEq] at bound ⊢
      subst bound
      exact ⟨_, rfl, BoundLiteral.pieces_captured same plain⟩

theorem Operand.Alike.column?_eq {b b' : Bindings} {e : Expr} {o o' : Operand}
    (alike : Operand.Alike b b' e o o') : o'.column? = o.column? := by
  cases alike <;> rfl

theorem Operand.Alike.pieces_eq {b b' : Bindings} {e : Expr} {o o' : Operand} (d : Dialect)
    (alike : Operand.Alike b b' e o o') : o'.pieces d = o.pieces d := by
  cases alike with
  | same => rfl
  | literal captured varies same => exact BoundLiteral.pieces_captured (c := none) same rfl

section Verbatim

variable {P : String → Prop} {origin : Origin n} {e : Expr} {name : String} {c : ColumnRef}

/-- The columns in a comparison take the literals of a name beside them as they are, if all columns
that the name is used with do. -/
theorem comparison_verbatim {left right : Expr} {l r : Operand} {u : Progress}
    (confined : ∀ name column,
      (name, column) ∈ Expr.usesAmong context.schema origin.entity [left, right] →
        P name → column.isVerbatim = true)
    (leftRead : readOperand context origin left s = (.ok l, u))
    (rightRead : readOperand context origin right u = (.ok r, t))
    (held : e ∈ [left, right]) (captured : e.capturedName? = some name) (free : P name)
    (column : c ∈ l.column?.or r.column?) : c.isVerbatim = true := by
  have subject : ∃ e' ∈ [left, right], ∃ path declared, e'.subject? = some path ∧
      context.schema.column? origin.entity path = some declared ∧
      (declared.isVerbatim = true → c.isVerbatim = true) := by
    rcases Option.or_eq_some_iff.mp column with first | ⟨-, second⟩
    · exact ⟨left, by simp, readOperand_subject? leftRead first⟩
    · exact ⟨right, by simp, readOperand_subject? rightRead second⟩
  obtain ⟨e', held', path, declared, subject, found, verbatim⟩ := subject
  exact verbatim (confined name declared
    (Expr.mem_usesAmong held captured held' subject found) free)

/-- The column of a member takes the literal of a name as it is, if all columns that the name is
used with do. -/
theorem member_verbatim {member : Expr} {operands : List Expr} {path : MemberPath}
    (confined : ∀ name column,
      (name, column) ∈ Expr.usesAmong context.schema origin.entity operands → P name →
        column.isVerbatim = true)
    (column : resolveColumn context origin path s = (.ok c, t)) (heldMember : member ∈ operands)
    (stripped : member.strip = .member path) (held : e ∈ operands)
    (captured : e.capturedName? = some name) (free : P name) : c.isVerbatim = true := by
  obtain ⟨declared, found, verbatim⟩ := resolveColumn_column? column
  have subject : member.subject? = some path := by simp [Expr.subject?, stripped]
  exact verbatim (confined name declared
    (Expr.mem_usesAmong held captured heldMember subject found) free)

end Verbatim

/-- Binding a literal with another string succeeds as well, and leads to the same pieces. -/
theorem bindLiteral_rebind {binding : BindingContext} {c : ColumnRef} {v v' : Value}
    {w : Wildcard} {l : Literal} {source : Expr} (d : Dialect) (same : v'.outline = v.outline)
    (kept : v' = v ∨ ∃ name, source = .captured name ∧ c.isVerbatim = true)
    (bound : bindLiteral binding c v w = .ok l) :
    ∃ l', bindLiteral binding c v' w = .ok l' ∧
      (BoundLiteral.mk source v' w (some c) l').pieces d =
        (BoundLiteral.mk source v w (some c) l).pieces d := by
  rcases kept with rfl | ⟨name, rfl, verbatim⟩
  · exact ⟨l, bound, rfl⟩
  · rw [bindLiteral_verbatim verbatim] at bound ⊢
    obtain rfl := Except.ok.inj bound
    exact ⟨_, rfl, BoundLiteral.pieces_captured same verbatim⟩

theorem like_rebind (alike : context.bindings.Alike b) {origin : Origin n} {method : Method}
    {w : Wildcard} {receiver : Option Expr} {path : MemberPath} {pattern : Expr} {c : ColumnRef}
    {v : Value} {l : Literal} (opening : method.wildcard? = some w)
    (member : receiver.map Expr.strip = some (.member path))
    (column : resolveColumn context origin path s = (.ok c, t)) (textual : c.isTextual = true)
    (value : literal context pattern = .ok v)
    (bound : bindLiteral ⟨t.enums, context.settings⟩ c v w = .ok l)
    (confined : context.bindings.Confined b
      (Expr.uses context.schema (.call method receiver [pattern]) origin.entity)) :
    ∃ k', Lowers (context.rebind b) origin (.call method receiver [pattern]) s k' t ∧
      k'.pieces context.schema context.dialect =
        (Condition.like c ⟨pattern.strip, v, w, some c, l⟩).pieces context.schema
          context.dialect := by
  have other : method ≠ .any := by
    rintro rfl
    cases opening
  rw [Expr.uses_call _ _ other] at confined
  obtain ⟨e, rfl, stripped⟩ := Option.map_eq_some_iff.mp member
  obtain ⟨v', value', same, kept⟩ := literal_rebind alike value
  have source : v' = v ∨ ∃ name, pattern.strip = .captured name ∧ c.isVerbatim = true := by
    refine kept.imp_right ?_
    rintro ⟨name, captured, varies⟩
    exact ⟨name, Expr.capturedName?_eq_some.mp captured,
      member_verbatim confined column (by simp) stripped (by simp) captured varies⟩
  obtain ⟨l', bound', pieces⟩ := bindLiteral_rebind context.dialect same source bound
  rw [← resolveColumn_rebind b] at column
  refine ⟨_, .like opening member column textual value' bound', ?_⟩
  simp only [Condition.pieces, pieces]

theorem membership_rebind (alike : context.bindings.Alike b) {origin : Origin n}
    {receiver : Option Expr} {source arg : Expr} {path : MemberPath} {items : List Value}
    {c : ColumnRef} {l : Literal} (collection : receiver.map Expr.strip = some source)
    (value : literal context source = .ok (.list items)) (member : arg.strip = .member path)
    (column : resolveColumn context origin path s = (.ok c, t)) (nonempty : items ≠ [])
    (bound : bindLiteral ⟨t.enums, context.settings⟩ c (.list items) .none = .ok l)
    (confined : context.bindings.Confined b
      (Expr.uses context.schema (.call .contains receiver [arg]) origin.entity)) :
    ∃ k', Lowers (context.rebind b) origin (.call .contains receiver [arg]) s k' t ∧
      k'.pieces context.schema context.dialect =
        (Condition.membership c ⟨source, .list items, .none, some c, l⟩).pieces context.schema
          context.dialect := by
  have other : Method.contains ≠ .any := by decide
  rw [Expr.uses_call _ _ other] at confined
  obtain ⟨e, rfl, rfl⟩ := Option.map_eq_some_iff.mp collection
  obtain ⟨v', value', same, kept⟩ := literal_rebind alike value
  obtain ⟨items', rfl, outlines⟩ := Value.exists_items same
  have nonempty' : items' ≠ [] := by
    rintro rfl
    exact nonempty (List.map_eq_nil_iff.mp outlines.symm)
  have captured : Value.list items' = .list items ∨
      ∃ name, e.strip = .captured name ∧ c.isVerbatim = true := by
    refine kept.imp_right ?_
    rintro ⟨name, captured, varies⟩
    rw [Expr.capturedName?_eq_some, e.strip_strip, ← Expr.capturedName?_eq_some] at captured
    exact ⟨name, Expr.capturedName?_eq_some.mp captured,
      member_verbatim confined column (by simp) member (by simp) captured varies⟩
  obtain ⟨l', bound', pieces⟩ := bindLiteral_rebind context.dialect same captured bound
  rw [← resolveColumn_rebind b] at column
  refine ⟨_, .membership collection value' member column nonempty' bound', ?_⟩
  simp only [Condition.pieces, pieces]

/-- With other strings behind names that vary, what is derived has the same pieces. -/
theorem Lowers.rebind (alike : context.bindings.Alike b) {origin : Origin n} {e : Expr}
    {k : Condition n} (h : Lowers context origin e s k t)
    (confined : context.bindings.Confined b (e.uses context.schema origin.entity)) :
    ∃ k', Lowers (context.rebind b) origin e s k' t ∧
      k'.pieces context.schema context.dialect = k.pieces context.schema context.dialect := by
  induction h with
  | logical connective _ _ firstIh secondIh =>
    simp only [Expr.uses, connective, if_true, Bindings.Confined.append] at confined
    obtain ⟨l, first, left⟩ := firstIh confined.1
    obtain ⟨r, second, right⟩ := secondIh confined.2
    refine ⟨_, .logical connective first second, ?_⟩
    simp only [Condition.pieces, left, right]
  | comparison comparator untested leftRead rightRead leftBound rightBound =>
    simp only [Expr.uses, comparator, Bool.false_eq_true, if_false] at confined
    obtain ⟨l, leftRead', leftAlike⟩ := readOperand_rebind alike leftRead
    obtain ⟨r, rightRead', rightAlike⟩ := readOperand_rebind alike rightRead
    obtain ⟨l', leftBound', left⟩ := leftAlike.bind (d := context.dialect)
      (fun _ captured varies _ column =>
        comparison_verbatim confined leftRead rightRead (by simp) captured varies column) leftBound
    obtain ⟨r', rightBound', right⟩ := rightAlike.bind (d := context.dialect)
      (fun _ captured varies _ column =>
        comparison_verbatim confined leftRead rightRead (by simp) captured varies column) rightBound
    rw [← leftAlike.column?_eq, ← rightAlike.column?_eq] at leftBound' rightBound'
    rw [← nullTested?_rebind alike] at untested
    refine ⟨_, .comparison comparator untested leftRead' rightRead' leftBound' rightBound', ?_⟩
    simp only [Condition.pieces, left, right]
  | nullTest comparator tested read =>
    obtain ⟨o, read', operand⟩ := readOperand_rebind alike read
    rw [← nullTested?_rebind alike] at tested
    refine ⟨_, .nullTest comparator tested read', ?_⟩
    simp only [Condition.pieces, operand.pieces_eq]
  | inverted boolean run =>
    obtain ⟨read, boolean', run'⟩ := readBoolean?_rebind alike boolean run
    exact ⟨_, .inverted boolean' run', rfl⟩
  | truth plain boolean run =>
    obtain ⟨read, boolean', run'⟩ := readBoolean?_rebind alike boolean run
    exact ⟨_, .truth plain boolean' run', rfl⟩
  | not compound _ ih =>
    obtain ⟨k', inner, same⟩ := ih confined
    refine ⟨_, .not (readBoolean?_rebind_none compound) inner, ?_⟩
    simp only [Condition.pieces, same]
  | convert _ ih =>
    obtain ⟨k', inner, same⟩ := ih confined
    exact ⟨k', .convert inner, same⟩
  | like opening member column textual value bound =>
    exact like_rebind alike opening member column textual value bound confined
  | membership collection value member column nonempty bound =>
    exact membership_rebind alike collection value member column nonempty bound confined
  | emptyMembership collection value member column =>
    obtain ⟨v', value', same, -⟩ := literal_rebind alike value
    obtain ⟨items', rfl, outlines⟩ := Value.exists_items same
    obtain rfl : items' = [] := by simpa using outlines
    rw [← resolveColumn_rebind b] at column
    exact ⟨_, .emptyMembership collection value' member column, rfl⟩
  | hasValue member column =>
    rw [← resolveColumn_rebind b] at column
    exact ⟨_, .hasValue member column, rfl⟩
  | any collection rows =>
    rw [← subquery_rebind b] at rows
    exact ⟨_, .any collection rows, rfl⟩
  | anyWhere collection rows _ ih =>
    rw [Expr.uses_any collection (subquery_rows? rows)] at confined
    obtain ⟨k', inner, same⟩ := ih confined
    rw [← subquery_rebind b] at rows
    refine ⟨_, .anyWhere collection rows inner, ?_⟩
    simp only [Condition.pieces, same]

end PredicateSql
