import PredicateSql.Proofs.Acceptance.Operands

/-!
What is lowered is just the language of predicates. The joins that are there already do not matter,
as long as they were added by walks along member paths.
-/
namespace PredicateSql

open Lowering

variable {n : Nat}

theorem IsPredicate.of_strip {voc : Vocabulary n} {i : Fin n} {r r' : EnumRegistry} {e : Expr}
    (h : IsPredicate voc i r e.strip r') : IsPredicate voc i r e r' := by
  fun_induction Expr.strip e with
  | case1 e ih => exact .convert (ih h)
  | case2 => exact h

section Sound

variable (context : LoweringContext n) {origin : Origin n} {e left right : Expr} {op : BinaryOp}
  {s u t : Progress}

theorem isPredicate_of_readBoolean? {read : Lowering Operand} {o : Operand}
    (linked : Linked context.schema context.dialect origin s.joins)
    (boolean : readBoolean? context origin e = some read) (run : read s = (.ok o, t)) :
    IsPredicate context.vocabulary origin.entity s.enums e t.enums := by
  apply IsPredicate.of_strip
  rcases readBoolean?_cases context boolean run with ⟨path, c, member, resolved, kind, -⟩ |
    ⟨-, b, value, -, rfl⟩ | ⟨receiver, args, c, call, resolved, -⟩
  · obtain ⟨m, resolves, describes⟩ := resolveColumn_resolves context linked resolved
    rw [member]
    exact .member resolves (describes.kind.symm.trans kind)
  · rcases (literal_iff context).mp value with constant | ⟨name, captured, bound⟩
    · rw [e.strip_strip] at constant
      rw [constant]
      exact .constant
    · rw [e.strip_strip] at captured
      rw [captured]
      exact .captured bound
  · obtain ⟨e', path, m, target, member, resolves, -⟩ :=
      emptinessColumn_resolves context linked resolved
    rw [call]
    exact .emptiness target member resolves

theorem isPredicate_of_pair {l r l' r' : Operand} (comparator : op.isLogical = false)
    (linked : Linked context.schema context.dialect origin s.joins)
    (leftRead : readOperand context origin left s = (.ok l, u))
    (rightRead : readOperand context origin right u = (.ok r, t))
    (leftBound : l.bind ⟨t.enums, context.settings⟩ (l.column?.or r.column?) = .ok l')
    (rightBound : r.bind ⟨t.enums, context.settings⟩ (l.column?.or r.column?) = .ok r') :
    IsPredicate context.vocabulary origin.entity s.enums (.binary op left right) t.enums := by
  have linked' := (readOperand_denotes context linked leftRead).1
  have grown := (readOperand_grows context rightRead).enums
  obtain ⟨a, first, describes⟩ := readOperand_isValue context linked leftRead
  obtain ⟨b, second, describes'⟩ := readOperand_isValue context linked' rightRead
  have fits : a.Fits context.settings b :=
    ((describes.mono grown).bind_ok describes').mp ⟨⟨l', leftBound⟩, r', rightBound⟩
  exact .comparison comparator first second (.inr fits)

theorem isPredicate_of_nullTest {test : String} {o : Operand} (comparator : op.isLogical = false)
    (linked : Linked context.schema context.dialect origin s.joins)
    (tested : nullTested? context op left right = .ok (some (test, e)))
    (read : readOperand context origin e s = (.ok o, t)) :
    IsPredicate context.vocabulary origin.entity s.enums (.binary op left right) t.enums := by
  obtain ⟨found, side⟩ := nullTested?_some tested
  have equality : op = .equal ∨ op = .notEqual := nullTest?_isSome.mp ⟨test, found⟩
  obtain ⟨a, value, -⟩ := readOperand_isValue context linked read
  rcases side with ⟨rfl, null⟩ | ⟨rfl, null⟩
  · obtain ⟨b, literal, isNull⟩ := isValue_of_isNullLiteral context null origin.entity t.enums
    exact .comparison comparator value literal (.inl ⟨equality, .inr isNull⟩)
  · obtain ⟨b, literal, isNull⟩ := isValue_of_isNullLiteral context null origin.entity s.enums
    exact .comparison comparator literal value (.inl ⟨equality, .inl isNull⟩)

theorem isPredicate_of_collection {receiver : Option Expr} {source arg : Expr} {path : MemberPath}
    {items : List Value} {c : ColumnRef}
    (linked : Linked context.schema context.dialect origin s.joins)
    (collection : receiver.map Expr.strip = some source)
    (value : literal context source = .ok (.list items)) (member : arg.strip = .member path)
    (column : resolveColumn context origin path s = (.ok c, t))
    (bound : items ≠ [] → ∃ l,
      bindLiteral ⟨t.enums, context.settings⟩ c (.list items) .none = .ok l) :
    IsPredicate context.vocabulary origin.entity s.enums (.call .contains receiver [arg])
      t.enums := by
  obtain ⟨m, resolves, describes⟩ := resolveColumn_resolves context linked column
  obtain ⟨e, rfl, rfl⟩ := Option.map_eq_some_iff.mp collection
  rw [literal_strip] at value
  exact .membership ((literal_iff context).mp value) member resolves
    fun nonempty => describes.bindLiteral_ok.mp (bound nonempty)

end Sound

/-- What is lowered is a predicate. -/
theorem Lowers.isPredicate {context : LoweringContext n} {origin : Origin n} {e : Expr}
    {s t : Progress} {k : Condition n} (h : Lowers context origin e s k t)
    (linked : Linked context.schema context.dialect origin s.joins) :
    IsPredicate context.vocabulary origin.entity s.enums e t.enums := by
  induction h with
  | logical connective left _ first second =>
    exact .logical connective (first linked) (second (left.linked linked))
  | comparison comparator untested leftRead rightRead leftBound rightBound =>
    exact isPredicate_of_pair _ comparator linked leftRead rightRead leftBound rightBound
  | nullTest comparator tested read =>
    exact isPredicate_of_nullTest _ comparator linked tested read
  | inverted boolean run => exact .not (isPredicate_of_readBoolean? _ linked boolean run)
  | not _ _ inner => exact .not (inner linked)
  | convert _ inner => exact .convert (inner linked)
  | truth _ boolean run => exact isPredicate_of_readBoolean? _ linked boolean run
  | like opening member column textual value bound =>
    obtain ⟨m, resolves, describes⟩ := resolveColumn_resolves _ linked column
    have textual' := describes.isTextual_eq.symm.trans textual
    exact .like opening member resolves textual' ((literal_iff _).mp value)
      (describes.bindLiteral_ok.mp ⟨_, bound⟩)
  | membership collection value member column nonempty bound =>
    exact isPredicate_of_collection _ linked collection value member column fun _ => ⟨_, bound⟩
  | emptyMembership collection value member column =>
    exact isPredicate_of_collection _ linked collection value member column
      fun nonempty => absurd rfl nonempty
  | hasValue member column =>
    obtain ⟨m, resolves, -⟩ := resolveColumn_resolves _ linked column
    exact .hasValue member resolves
  | any collection rows =>
    obtain ⟨leads, kept⟩ := subquery_collection _ linked rows
    rw [kept]
    exact .any collection leads
  | anyWhere collection rows _ inner =>
    obtain ⟨leads, kept⟩ := subquery_collection _ linked rows
    have condition := inner (.nil _ _ _)
    rw [kept] at condition
    exact .anyWhere collection leads condition

section Complete

variable (context : LoweringContext n) {origin : Origin n} {e left right : Expr} {op : BinaryOp}
  {s t : Progress}

/-- A boolean operand that is lowered can be read. -/
theorem Lowers.readBoolean?_ok {context : LoweringContext n} {k : Condition n}
    {read : Lowering Operand} (h : Lowers context origin e s k t)
    (boolean : readBoolean? context origin e = some read) : ∃ o, read s = (.ok o, t) := by
  induction h with
  | convert _ inner => exact inner boolean
  | truth _ boolean' run =>
    obtain rfl := Option.some.inj (boolean.symm.trans boolean')
    exact ⟨_, run⟩
  | @like _ method _ _ _ _ _ _ _ _ _ opening => cases method <;> cases opening <;> cases boolean
  | logical | comparison | nullTest | inverted | not | membership | emptyMembership | hasValue | any
  | anyWhere => cases boolean

theorem not_lowers {k : Condition n} (h : Lowers context origin e s k t) :
    ∃ k', Lowers context origin (.not e) s k' t := by
  cases boolean : readBoolean? context origin e with
  | none => exact ⟨_, .not boolean h⟩
  | some read =>
    obtain ⟨o, run⟩ := h.readBoolean?_ok boolean
    exact ⟨_, .inverted boolean run⟩

variable {i : Fin n} {r r₁ r₂ : EnumRegistry}

theorem comparison_lowers {a b : Subject} (comparator : op.isLogical = false)
    (first : IsValue context.vocabulary i r left a r₁)
    (second : IsValue context.vocabulary i r₁ right b r₂)
    (fits : op.TestsNull a b ∨ a.Fits context.settings b) (entity : origin.entity = i)
    (enums : s.enums = r) :
    ∃ k t, Lowers context origin (.binary op left right) s k t ∧ t.enums = r₂ := by
  rcases nullTested?_of_isValue context first second with ⟨-, test, e, tested⟩ |
    ⟨untestable, untested⟩
  · -- The operand that is not tested is a literal, so that only the tested one makes anything
    -- known.
    rcases (nullTested?_some tested).2 with ⟨same, null⟩ | ⟨same, null⟩ <;> rw [same] at tested
    · have isNull : b.isNull = true :=
        Except.ok.inj ((isNullLiteral_of_isValue context second).symm.trans null)
      obtain ⟨o, t, read, after, -⟩ := readOperand_of_isValue context first entity enums
      exact ⟨_, t, .nullTest comparator tested read,
        after.trans (second.enums_of_isNull isNull).symm⟩
    · have isNull : a.isNull = true :=
        Except.ok.inj ((isNullLiteral_of_isValue context first).symm.trans null)
      have enums' : s.enums = r₁ := enums.trans (first.enums_of_isNull isNull).symm
      obtain ⟨o, t, read, after, -⟩ := readOperand_of_isValue context second entity enums'
      exact ⟨_, t, .nullTest comparator tested read, after⟩
  · obtain ⟨l, u, leftRead, middle, describes⟩ := readOperand_of_isValue context first entity enums
    obtain ⟨r, t, rightRead, after, describes'⟩ :=
      readOperand_of_isValue context second entity middle
    have grown := (readOperand_grows context rightRead).enums
    rw [middle, after] at grown
    have bound := ((describes.mono grown).bind_ok describes').mpr (fits.resolve_left untestable)
    rw [← after] at bound
    obtain ⟨⟨l', leftBound⟩, r', rightBound⟩ := bound
    exact ⟨_, t, .comparison comparator untested leftRead rightRead leftBound rightBound, after⟩

theorem collection_lowers {source arg : Expr} {path : MemberPath} {m : Target}
    {items : List Value} (collection : source.IsLiteral context.bindings (.list items))
    (onMember : arg.strip = .member path) (resolves : context.schema.Resolves i r path m r₁)
    (takes : items ≠ [] → m.Takes context.settings (.list items) .none) (entity : origin.entity = i)
    (enums : s.enums = r) :
    ∃ k t, Lowers context origin (.call .contains (some source) [arg]) s k t ∧ t.enums = r₁ := by
  obtain ⟨c, t, column, after, describes⟩ := resolveColumn_of_resolves context resolves entity enums
  have value : literal context source.strip = .ok (.list items) := by
    rw [literal_strip]
    exact (literal_iff context).mpr collection
  by_cases empty : items = []
  · subst empty
    exact ⟨_, t, .emptyMembership rfl value onMember column, after⟩
  · obtain ⟨l, bound⟩ := describes.bindLiteral_ok.mpr (takes empty)
    rw [← after] at bound
    exact ⟨_, t, .membership rfl value onMember column empty bound, after⟩

theorem readTruth_lowers {b : Bool} (plain : e.strip = e)
    (boolean : readBoolean? context origin e = some (readTruth context e))
    (value : e.IsLiteral context.bindings (.bool b)) (s : Progress) :
    Lowers context origin e s (.truth (.literal (.unbound e (.bool b) .none)) false) s :=
  .truth plain boolean
    ((readTruth_ok context).mpr ⟨b, (literal_iff context).mpr value, rfl, rfl⟩)

/-- A predicate is lowered, whatever joins there are. -/
theorem lowers_of_isPredicate {r' : EnumRegistry}
    (h : IsPredicate context.vocabulary i r e r') (entity : origin.entity = i)
    (enums : s.enums = r) : ∃ k t, Lowers context origin e s k t ∧ t.enums = r' := by
  induction h generalizing origin s with
  | logical connective _ _ first second =>
    obtain ⟨l, u, left, middle⟩ := first entity enums
    obtain ⟨r, t, right, after⟩ := second entity middle
    exact ⟨_, t, .logical connective left right, after⟩
  | not _ ih =>
    obtain ⟨k, t, inner, after⟩ := ih entity enums
    obtain ⟨k', negated⟩ := not_lowers context inner
    exact ⟨k', t, negated, after⟩
  | convert _ ih =>
    obtain ⟨k, t, inner, after⟩ := ih entity enums
    exact ⟨k, t, .convert inner, after⟩
  | member resolves boolean =>
    obtain ⟨c, t, column, after, describes⟩ :=
      resolveColumn_of_resolves context resolves entity enums
    have kind : c.kind = .bool := describes.kind.trans boolean
    refine ⟨.truth (.column c) false, t, .truth rfl rfl (bind_ok.mpr ⟨c, t, column, ?_⟩), after⟩
    rw [if_pos kind]
    exact pure_ok.mpr ⟨rfl, rfl⟩
  | constant => exact ⟨_, s, readTruth_lowers context rfl rfl (.inl rfl) s, enums⟩
  | captured bound =>
    exact ⟨_, s, readTruth_lowers context rfl rfl (.inr ⟨_, rfl, bound⟩) s, enums⟩
  | comparison comparator first second fits =>
    exact comparison_lowers context comparator first second fits entity enums
  | like opening onMember resolves textual pattern takes =>
    obtain ⟨c, t, column, after, describes⟩ :=
      resolveColumn_of_resolves context resolves entity enums
    have textual' := describes.isTextual_eq.trans textual
    obtain ⟨l, bound⟩ := describes.bindLiteral_ok.mpr takes
    rw [← after] at bound
    exact ⟨_, t, .like opening onMember column textual' ((literal_iff context).mpr pattern) bound,
      after⟩
  | membership collection onMember resolves takes =>
    exact collection_lowers context collection onMember resolves takes entity enums
  | hasValue onMember resolves =>
    obtain ⟨c, t, column, after, -⟩ := resolveColumn_of_resolves context resolves entity enums
    exact ⟨_, t, .hasValue onMember column, after⟩
  | emptiness target onMember resolves =>
    obtain ⟨c, t, column, after, -⟩ :=
      emptinessColumn_of_resolves context target onMember resolves entity enums
    exact ⟨_, t, .truth rfl rfl (bind_ok.mpr ⟨c, t, column, pure_ok.mpr ⟨rfl, rfl⟩⟩), after⟩
  | any onMember collection =>
    obtain ⟨q, t, rows, -, kept⟩ := subquery_of_collection context collection entity s
    exact ⟨_, t, .any onMember rows, kept.trans enums⟩
  | anyWhere onMember collection _ ih =>
    obtain ⟨q, u, rows, child, kept⟩ := subquery_of_collection context collection entity s
    have start : ({ u with joins := [] } : Progress).enums = _ := kept.trans enums
    obtain ⟨k, v, inner, after⟩ := ih child start
    exact ⟨_, _, .anyWhere onMember rows inner, after⟩

end Complete

/-- From joins of member paths, the expressions that can be lowered are the predicates. -/
theorem lowers_iff {context : LoweringContext n} {origin : Origin n} {e : Expr} {s : Progress}
    {r' : EnumRegistry} (linked : Linked context.schema context.dialect origin s.joins) :
    (∃ k t, Lowers context origin e s k t ∧ t.enums = r') ↔
      IsPredicate context.vocabulary origin.entity s.enums e r' := by
  constructor
  · rintro ⟨k, t, derived, rfl⟩
    exact derived.isPredicate linked
  · exact fun h => lowers_of_isPredicate context h rfl rfl

end PredicateSql
