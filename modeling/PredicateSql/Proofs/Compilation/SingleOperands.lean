import PredicateSql.Proofs.Compilation.NestedLists
import PredicateSql.Proofs.Compilation.Patterns

/-!
Literals where one operand is to stand: at the sides of a comparison, before a test for null and
behind `LIKE`. Whether a literal is a list is not asked there, so it is written with as many
literals as there are items in it.
-/
namespace PredicateSql

open Lowering

variable {n : Nat}

/-- The operands of a test. -/
def Condition.operands : Condition n → List Operand
  | truth operand _ | nullTest operand _ => [operand]
  | comparison _ left right => [left, right]
  | like column pattern => [.column column, .literal pattern]
  | membership column _ | emptyMembership column _ | hasValue column => [.column column]
  | _ => []

/-- The operand is one column, one case distinction or one literal. -/
def Operand.IsSingle (d : Dialect) : Operand → Prop
  | literal l => IsOneLiteral (l.written.sql d)
  | column _ | nullOrEmpty _ => True

/-- The value is that of a literal where one operand is to stand. -/
inductive Expr.GivesOperand (bindings : Bindings) (v : Value) : Expr → Prop
  | left {op left right} (comparator : op.isLogical = false) (literal : left.IsLiteral bindings v) :
      GivesOperand bindings v (.binary op left right)
  | right {op left right} (comparator : op.isLogical = false)
      (literal : right.IsLiteral bindings v) :
      GivesOperand bindings v (.binary op left right)
  | pattern {method w receiver path pattern} (opening : method.wildcard? = some w)
      (onMember : receiver.map Expr.strip = some (.member path))
      (literal : pattern.IsLiteral bindings v) :
      GivesOperand bindings v (.call method receiver [pattern])
  | convert {e} (inner : GivesOperand bindings v e) : GivesOperand bindings v (.convert e)

/-- Each operand of the test is single exactly if each literal that is given for one is no list, or
a list of one item that is so. -/
def GivesSingleOperands (bindings : Bindings) (d : Dialect) : ScopeProperty n :=
  fun _ _ e k => (∀ o ∈ k.operands, o.IsSingle d) ↔ ∀ v, e.GivesOperand bindings v → v.IsOne

section Given

variable {context : LoweringContext n} {bindings : Bindings} {origin : Origin n}
  {e left right : Expr} {op : BinaryOp} {v v' : Value} {s t : Progress} {o o' : Operand}
  {k : Condition n}

theorem Expr.IsLiteral.unique (h : e.IsLiteral bindings v) (h' : e.IsLiteral bindings v') :
    v = v' := by
  rcases h with constant | ⟨name, captured, bound⟩ <;>
    rcases h' with constant' | ⟨name', captured', bound'⟩
  · cases constant.symm.trans constant'
    rfl
  · cases constant.symm.trans captured'
  · cases captured.symm.trans constant'
  · cases captured.symm.trans captured'
    exact Option.some.inj (bound.symm.trans bound')

theorem Expr.IsLiteral.forall_iff (h : e.IsLiteral bindings v) {p : Value → Prop} :
    (∀ v', e.IsLiteral bindings v' → p v') ↔ p v := by
  constructor
  · exact fun all => all v h
  · intro holds v' h'
    rwa [← h.unique h']

theorem Expr.forall_givesOperand_binary (comparator : op.isLogical = false) {p : Value → Prop} :
    (∀ v, (Expr.binary op left right).GivesOperand bindings v → p v) ↔
      (∀ v, left.IsLiteral bindings v → p v) ∧ ∀ v, right.IsLiteral bindings v → p v := by
  constructor
  · exact fun all => ⟨fun v literal => all v (.left comparator literal),
      fun v literal => all v (.right comparator literal)⟩
  · rintro ⟨first, second⟩ v (⟨-, literal⟩ | ⟨-, literal⟩)
    · exact first v literal
    · exact second v literal

theorem Expr.forall_givesOperand_pattern {method : Method} {w : Wildcard} {receiver : Option Expr}
    {path : MemberPath} {pattern : Expr} (opening : method.wildcard? = some w)
    (onMember : receiver.map Expr.strip = some (.member path)) {p : Value → Prop} :
    (∀ v, (Expr.call method receiver [pattern]).GivesOperand bindings v → p v) ↔
      ∀ v, pattern.IsLiteral bindings v → p v := by
  constructor
  · exact fun all v literal => all v (.pattern opening onMember literal)
  · rintro all v (_ | _ | ⟨-, -, literal⟩)
    exact all v literal

/-- What is a truth value by itself is given no operand. -/
theorem Expr.not_givesOperand_of_isTruth (truth : e.isTruth = true) :
    ¬ e.GivesOperand bindings v := by
  intro gives
  cases gives with
  | left | right | convert => cases truth
  | @pattern method w receiver path pattern opening =>
    cases method with
    | isNullOrEmpty => cases opening
    | _ => cases truth

/-- A list that a member is sought in is no operand. -/
theorem Expr.not_givesOperand_of_collection {receiver : Option Expr} {source : Expr} {arg : Expr}
    {items : List Value} (collection : receiver.map Expr.strip = some source)
    (value : literal context source = .ok (.list items)) :
    ¬ (Expr.call .contains receiver [arg]).GivesOperand bindings v := by
  rintro (_ | _ | ⟨-, onMember, -⟩)
  cases collection.symm.trans onMember
  cases value

/-- An operand that was read is single exactly if it is no literal, or one whose value is written as
one. -/
theorem isSingle_of_readOperand (read : readOperand context origin e s = (.ok o, t))
    {binding : BindingContext} {c : Option ColumnRef} (bound : o.bind binding c = .ok o')
    (d : Dialect) :
    o'.IsSingle d ↔ ∀ v, e.IsLiteral context.bindings v → v.IsOne := by
  rcases (readOperand_ok context).mp read with ⟨path, c', member, -, rfl⟩ | ⟨v, value, rfl, -⟩ |
    ⟨receiver, args, c', call, -, rfl⟩
  · obtain rfl := Except.ok.inj ((Operand.bind_of_column? rfl c).symm.trans bound)
    exact iff_of_true trivial fun v literal => by simp [Expr.IsLiteral, member] at literal
  · have literal : e.IsLiteral context.bindings v := (literal_iff context).mp value
    rw [literal.forall_iff]
    rcases Operand.bind_cases bound with rfl | ⟨column, l, written, -, same, form, rfl⟩
    · exact isOneLiteral_unbound_iff _ _ _ d
    · cases same
      exact isOneLiteral_bindLiteral_iff form d
  · obtain rfl := Except.ok.inj ((Operand.bind_of_column? rfl c).symm.trans bound)
    exact iff_of_true trivial fun v literal => by simp [Expr.IsLiteral, call] at literal

/-- A null literal is one literal. -/
theorem isOne_of_isNullLiteral (null : isNullLiteral context e = .ok true) :
    ∀ v, e.IsLiteral context.bindings v → v.IsOne := by
  obtain ⟨v, value, isNull⟩ := (isNullLiteral_ok context).mp null
  have literal : e.IsLiteral context.bindings v := (literal_iff context).mp value
  refine literal.forall_iff.mpr ?_
  cases v with
  | null => exact .single nofun
  | _ => cases isNull

/-- A boolean operand is single. -/
theorem isSingle_of_readBoolean? {read : Lowering Operand}
    (boolean : readBoolean? context origin e = some read) (run : read s = (.ok o, t))
    (d : Dialect) : o.IsSingle d := by
  rcases readBoolean?_cases context boolean run with
    ⟨_, _, -, -, -, rfl⟩ | ⟨-, b, -, rfl, -⟩ | ⟨_, _, _, -, -, rfl⟩
  · trivial
  · exact isOneLiteral_boolLiteral d b
  · trivial

/-- What a predicate is lowered to has as many literals for an operand as its values have items. -/
theorem Lowers.givesSingleOperands (derived : Lowers context origin e s k t)
    (joins : List JoinClause) (d : Dialect) :
    GivesSingleOperands context.bindings d origin joins e k := by
  unfold GivesSingleOperands
  -- Where no operand is given, the only operand is a column or a truth value.
  have without {e : Expr} {k : Condition n} (single : ∀ o ∈ k.operands, o.IsSingle d)
      (none : ∀ v, ¬ e.GivesOperand context.bindings v) :
      (∀ o ∈ k.operands, o.IsSingle d) ↔ ∀ v, e.GivesOperand context.bindings v → v.IsOne :=
    iff_of_true single fun v gives => absurd gives (none v)
  have nothing : ∀ o ∈ ([] : List Operand), o.IsSingle d := List.forall_mem_nil _
  have column (c : ColumnRef) : ∀ o ∈ [Operand.column c], o.IsSingle d := by
    simp [Operand.IsSingle]
  induction derived with
  | logical connective =>
    refine without nothing fun v gives => ?_
    cases gives with
    | left comparator | right comparator => simp [connective] at comparator
  | comparison comparator _ leftRead rightRead leftBound rightBound =>
    rw [Expr.forall_givesOperand_binary comparator, ← isSingle_of_readOperand leftRead leftBound d,
      ← isSingle_of_readOperand rightRead rightBound d]
    simp [Condition.operands]
  | @nullTest _ _ _ _ _ t _ _ operand comparator tested read =>
    rw [Expr.forall_givesOperand_binary comparator]
    have unbound : operand.bind ⟨t.enums, context.settings⟩ none = .ok operand := rfl
    have same := isSingle_of_readOperand read unbound d
    obtain ⟨-, ⟨rfl, null⟩ | ⟨rfl, null⟩⟩ := nullTested?_some tested
    · rw [and_iff_left (isOne_of_isNullLiteral null), ← same]
      simp [Condition.operands]
    · rw [and_iff_right (isOne_of_isNullLiteral null), ← same]
      simp [Condition.operands]
  | inverted boolean run =>
    have single := isSingle_of_readBoolean? boolean run d
    exact without (List.forall_mem_singleton.mpr single) fun v gives => nomatch gives
  | not => exact without nothing fun v gives => nomatch gives
  | convert _ ih =>
    refine ih.trans (forall_congr' fun v => imp_congr_left ⟨.convert, fun gives => ?_⟩)
    cases gives with
    | convert inner => exact inner
  | truth plain boolean run =>
    have single := isSingle_of_readBoolean? boolean run d
    have truth := isTruth_of_readBoolean? context boolean
    rw [plain] at truth
    exact without (List.forall_mem_singleton.mpr single) fun v =>
      Expr.not_givesOperand_of_isTruth truth
  | @like _ _ _ _ _ pattern _ _ _ v _ opening member _ _ value bound =>
    have literal : pattern.IsLiteral context.bindings v := (literal_iff context).mp value
    rw [Expr.forall_givesOperand_pattern opening member, literal.forall_iff,
      ← isOneLiteral_bindLiteral_iff bound d]
    simp [Condition.operands, Operand.IsSingle]
  | membership collection value | emptyMembership collection value =>
    exact without (column _) fun v => Expr.not_givesOperand_of_collection collection value
  | hasValue => exact without (column _) fun v gives => nomatch gives
  | any => exact without nothing fun v gives => nomatch gives
  | anyWhere =>
    refine without nothing fun v gives => ?_
    cases gives with
    | pattern opening => cases opening

end Given

theorem Expr.Confronts.ne_modifier {bindings : Bindings} {e : Expr} {path : MemberPath} {v : Value}
    {w : Wildcard} {test : String → String → String} (h : e.Confronts bindings path v w test)
    (m : Modifier) : e ≠ .modifier m := by
  rintro rfl
  cases h

/-- Whether a literal meets a member as an operand, as a pattern or as a list, it is accepted
exactly if it can be bound to the column of the member, which has to be textual for a pattern. -/
theorem Expr.Confronts.lowers_iff {context : LoweringContext n} {origin : Origin n} {s t : Progress}
    {e : Expr} {path : MemberPath} {c : ColumnRef} {v : Value} {w : Wildcard}
    {test : String → String → String} (confronts : e.Confronts context.bindings path v w test)
    (present : v.isNull = false) (column : resolveColumn context origin path s = (.ok c, t)) :
    (∃ k t', Lowers context origin e s k t') ↔
      (w ≠ .none → c.isTextual = true) ∧
        ∃ l, bindLiteral ⟨t.enums, context.settings⟩ c v w = .ok l := by
  have read {e : Expr} (onMember : e.strip = .member path) :
      readOperand context origin e s = (.ok (.column c), t) :=
    (readOperand_ok context).mpr (.inl ⟨path, c, onMember, column, rfl⟩)
  have compared (mirrored : Bool) {op : BinaryOp} {e other : Expr}
      (comparator : op.isLogical = false)
      (onMember : e.strip = .member path) (literal : other.IsLiteral context.bindings v) :
      (∃ k t', Lowers context origin (.compared op mirrored e other) s k t') ↔
        ∃ l, bindLiteral ⟨t.enums, context.settings⟩ c v .none = .ok l := by
    have value := (literal_iff context).mpr literal
    simp only [lowers_compared_iff comparator (read onMember) rfl value present mirrored]
    simp
  cases confronts with
  | memberFirst comparator onMember literal =>
    rw [and_iff_right (absurd rfl)]
    exact compared false comparator onMember literal
  | memberSecond comparator literal onMember =>
    rw [and_iff_right (absurd rfl)]
    exact compared true comparator onMember literal
  | like opening onMember literal =>
    have value := (literal_iff context).mpr literal
    constructor
    · rintro ⟨k, t', derived⟩
      obtain ⟨c', l, column', textual, bound, -⟩ := derived.of_pattern opening onMember value
      cases column.symm.trans column'
      exact ⟨fun _ => textual, l, bound⟩
    · rintro ⟨textual, l, bound⟩
      exact ⟨_, t, .like opening onMember column (textual (Method.wildcard?_ne_none opening))
        value bound⟩
  | @membership source arg _ items collection onMember nonempty =>
    have seeks : (Expr.call .contains (some source) [arg]).Seeks context.bindings items path :=
      ⟨_, _, _, rfl, rfl, by rwa [Expr.IsLiteral, source.strip_strip], onMember⟩
    rw [and_iff_right (absurd rfl)]
    constructor
    · rintro ⟨k, t', derived⟩
      obtain ⟨c', column', ⟨none, -⟩ | ⟨l, bound, -⟩⟩ := seeks.lowers_cases derived
      · exact absurd none nonempty
      · cases column.symm.trans column'
        exact ⟨_, bound⟩
    · rintro ⟨l, bound⟩
      obtain ⟨l', -, derived⟩ := lowers_of_seeks seeks nonempty column bound
      exact ⟨_, t, derived⟩

/-- An accepted predicate adds a condition. In each of its tests, at any depth and in any subquery,
a comparison stands between single operands, a test for null or for truth is behind one and a
pattern is one literal, exactly if no literal that is given for an operand is a list, other than one
of a single item that is no list itself. And lists are accepted there: beside a comparison operator
or as a pattern just as behind `IN`, wherever the member takes what is in them. -/
theorem operands_are_single_iff {c : Compiler n} (reached : c.Reachable) (bindings : Bindings) :
    (∀ e c', e.isModifier = false → c.add bindings e = (.ok (), c') →
      ∃ k : Condition n, c'.fragments = c.fragments ++ [c.input.fragment k] ∧
        Throughout (GivesSingleOperands bindings c.input.dialect) c.origin c'.joins e k) ∧
    ∀ e path items w test m r, e.Confronts bindings path (.list items) w test →
      c.input.schema.Resolves c.input.root c.registry.enums path m r →
      ((c.add bindings e).1 = .ok () ↔
        (w ≠ .none → m.isTextual = true) ∧ m.Takes c.input.settings (.list items) w) := by
  constructor
  · intro e c' unmodified accepted
    refine reached.throughout unmodified accepted ?_
    rintro origin joins e k ⟨s, t, derived, -⟩
    exact derived.givesSingleOperands joins c.input.dialect
  · intro e path items w test m r confronts resolves
    obtain ⟨column, t, resolved, rfl, describes⟩ := Compiler.resolved_column resolves bindings
    rw [Compiler.add_ok_iff_lowers confronts.ne_modifier, confronts.lowers_iff rfl resolved,
      describes.isTextual_eq]
    exact and_congr_right fun _ => describes.bindLiteral_ok

namespace Bookshelf

def notNumbered : Expr :=
  .not (.and (.binary .notEqual (.member (.ofText "Number")) (.convert (.captured "number")))
    (.binary .notEqual (.constant .null) (.member (.ofText "Number"))))

end Bookshelf

theorem numbers_are_single_operands :
    let bindings := Bindings.empty.bind "number" (.list [.int 7])
    let c' := (Bookshelf.copies.add bindings Bookshelf.notNumbered).2
    let compared :=
      Expr.binary .lessThan (.member (.ofText "Number")) (.constant (.list [.int 1, .int 2]))
    Bookshelf.copies.add bindings Bookshelf.notNumbered = (.ok (), c') ∧
      (∃ k : Condition 1, c'.fragments = [Bookshelf.copies.input.fragment k] ∧
        Throughout (GivesSingleOperands bindings .postgreSql) Bookshelf.copies.origin c'.joins
          Bookshelf.notNumbered k) ∧
      (Bookshelf.copies.add bindings compared).1 = .ok () := by
  intro bindings c' compared
  have reached : Bookshelf.copies.Reachable := .start _ _
  have accepted : Bookshelf.copies.add bindings Bookshelf.notNumbered = (.ok (), c') :=
    Compiler.accepted_of_toBool (by decide +kernel)
  have confronts : ∃ test,
      compared.Confronts bindings (.ofText "Number") (.list [.int 1, .int 2]) .none test :=
    ⟨_, .memberFirst rfl rfl (.inl rfl) (fun _ => rfl)⟩
  obtain ⟨single, lists⟩ := operands_are_single_iff reached bindings
  obtain ⟨test, confronts⟩ := confronts
  refine ⟨accepted, single _ _ rfl accepted, ?_⟩
  exact (lists _ _ _ _ _ _ _ confronts Bookshelf.number_resolves).mpr
    ⟨fun other => absurd rfl other, nofun, nofun⟩

/-- Two numbers stand behind one equals sign, and nothing stands behind `LIKE`. -/
theorem lists_are_written_as_operands :
    let equal :=
  Expr.binary .equal (.member (.ofText "Number")) (.constant (.list [.int 1, .int 2]))
    let like := Expr.startsWith Bookshelf.title (.constant (.list []))
    (Bookshelf.copies.add .empty equal).2.fragments = ["(Copies.\"Number\" = 1,2)"] ∧
      ¬ IsOneLiteral "1,2" ∧
      (Bookshelf.books.add .empty like).2.fragments = ["(Books.\"Title\" LIKE )"] ∧
      ¬ IsOneLiteral "" := by
  decide +kernel

end PredicateSql
