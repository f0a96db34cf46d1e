import PredicateSql.Proofs.Lowering.Trail
import PredicateSql.Proofs.Meaning.Formula
import PredicateSql.Proofs.Scoping.Rows

/-!
The tests of a condition and the scopes they stand in. Connectives, negations and conversions keep
the scope; the condition of a subquery has a scope of its own. What a predicate is lowered to is
lowered test by test, so a property that each test has in its own scope is a property of the whole
condition.
-/
namespace PredicateSql

open Lowering

variable {n : Nat}

/-- Neither a connective, a negation nor a subquery with a condition. -/
def Condition.isTest : Condition n → Bool
  | logical .. | not _ | anyWhere .. => false
  | _ => true

def Expr.isTest : Expr → Bool
  | call .any _ args => args.isEmpty
  | e => e.isLeaf

/-- What is a truth value by itself: a member, a literal or the test for null or empty. -/
def Expr.isTruth : Expr → Bool
  | member _ | constant _ | captured _ | call .isNullOrEmpty .. => true
  | _ => false

theorem Expr.isTest_of_isTruth {e : Expr} (truth : e.isTruth = true) : e.isTest = true := by
  cases e with
  | call method receiver args => cases method <;> first | rfl | cases truth
  | _ => first | rfl | cases truth

theorem Expr.isTest_of_like {method : Method} {w : Wildcard} (opening : method.wildcard? = some w)
    (receiver : Option Expr) (args : List Expr) : (call method receiver args).isTest = true := by
  cases method <;> first | rfl | cases opening

/-- A property of an expression and the condition that it became, where paths start from some rows
and have led to some joins. -/
abbrev ScopeProperty (n : Nat) :=
  Origin n → List JoinClause → Expr → Condition n → Prop

/-- Every test and every subquery has the property, each in its own scope. -/
inductive Throughout (P : ScopeProperty n) : ScopeProperty n
  | logical {origin joins op left right l r} (connective : op.isLogical = true)
      (first : Throughout P origin joins left l) (second : Throughout P origin joins right r) :
      Throughout P origin joins (.binary op left right) (.logical op l r)
  | not {origin joins e k} (inner : Throughout P origin joins e k) :
      Throughout P origin joins (.not e) (.not k)
  | convert {origin joins e k} (inner : Throughout P origin joins e k) :
      Throughout P origin joins (.convert e) k
  | inverted {origin joins e o} (truth : e.strip.isTruth = true)
      (here : P origin joins (.not e) (.truth o true)) :
      Throughout P origin joins (.not e) (.truth o true)
  | test {origin joins e k} (leaf : e.isTest = true) (test : k.isTest = true)
      (here : P origin joins e k) : Throughout P origin joins e k
  | anyWhere {origin joins receiver e q nested k}
      (here : P origin joins (.call .any receiver [e]) (.anyWhere q nested k))
      (inner : Throughout P q.child nested e k) :
      Throughout P origin joins (.call .any receiver [e]) (.anyWhere q nested k)

namespace Throughout

variable {P Q : ScopeProperty n} {origin : Origin n} {joins : List JoinClause} {e : Expr}
  {k : Condition n}

/-- A property that follows at each test, and at each subquery from what is known of its
condition. -/
theorem imp (h : Throughout P origin joins e k)
    (test : ∀ origin joins e k, k.isTest = true → P origin joins e k → Q origin joins e k)
    (anyWhere : ∀ origin joins receiver e q nested k,
      P origin joins (.call .any receiver [e]) (.anyWhere q nested k) →
        Throughout P q.child nested e k →
          Q origin joins (.call .any receiver [e]) (.anyWhere q nested k)) :
    Throughout Q origin joins e k := by
  induction h with
  | logical connective _ _ first second => exact .logical connective first second
  | not _ inner => exact .not inner
  | convert _ inner => exact .convert inner
  | inverted truth here => exact .inverted truth (test _ _ _ _ rfl here)
  | test leaf kind here => exact .test leaf kind (test _ _ _ _ kind here)
  | anyWhere here inner innerIh => exact .anyWhere (anyWhere _ _ _ _ _ _ _ here inner) innerIh

end Throughout

def Operand.columns (o : Operand) : List ColumnRef :=
  o.column?.toList

/-- The columns of a condition without those in its subqueries. -/
def Condition.columns : Condition n → List ColumnRef
  | logical _ left right => left.columns ++ right.columns
  | not operand => operand.columns
  | truth operand _ => operand.columns
  | comparison _ left right => left.columns ++ right.columns
  | nullTest operand _ => operand.columns
  | like column _ | membership column _ | emptyMembership column _ | hasValue column => [column]
  | any _ | anyWhere .. => []

/-- The subquery is about the collection at the path: its rows refer to the primary key of the rows
that the navigation of the path leads to. -/
structure Subquery.Stands (schema : Schema n) (joins : List JoinClause) (origin : Origin n)
    (path : MemberPath) (q : Subquery n) : Prop where
  same : q.path = path
  outer : Leads schema joins origin path.navigation q.outer
  found : (schema.entity q.outer.entity).navigationFor? path.property = some q.navigation
  many : q.navigation.many = true
  foreignKey : (schema.entity q.navigation.target).foreignKeyTo? (schema.entity q.outer.entity) =
    some q.foreignKey
  key : (schema.entity q.outer.entity).primaryKey = .ok q.key

theorem Subquery.Stands.mono {schema : Schema n} {joins more : List JoinClause}
    {origin : Origin n} {path : MemberPath} {q : Subquery n}
    (h : q.Stands schema joins origin path) (kept : joins <+: more) :
    q.Stands schema more origin path :=
  { h with outer := h.outer.mono kept }

section Reading

variable (context : LoweringContext n) {origin : Origin n} {s t : Progress}

/-- The column of an operand is the one of its member. -/
theorem readOperand_denotes {e : Expr} {o : Operand}
    (linked : Linked context.schema context.dialect origin s.joins)
    (run : readOperand context origin e s = (.ok o, t)) :
    Linked context.schema context.dialect origin t.joins ∧
      List.Forall₂ (Denotes context.schema t.joins origin) e.references o.columns := by
  rcases (readOperand_ok context).mp run with ⟨path, c, member, resolved, rfl⟩ |
    ⟨v, value, rfl, rfl⟩ | ⟨receiver, args, c, call, resolved, rfl⟩
  · obtain ⟨linked', denotes⟩ := resolveColumn_denotes context linked resolved
    rw [Expr.references_of_member member]
    exact ⟨linked', .cons denotes .nil⟩
  · rw [literal_references context value]
    exact ⟨linked, .nil⟩
  · obtain ⟨e', path, target, member, resolved⟩ := (emptinessColumn_ok context).mp resolved
    obtain ⟨linked', denotes⟩ := resolveColumn_denotes context linked resolved
    rw [← Expr.references_strip, call, Expr.references_of_emptiness target member]
    exact ⟨linked', .cons denotes .nil⟩

theorem subquery_stands {path : MemberPath} {q : Subquery n}
    (linked : Linked context.schema context.dialect origin s.joins)
    (run : subquery context origin path s = (.ok q, t)) :
    Linked context.schema context.dialect origin t.joins ∧
      q.Stands context.schema t.joins origin path := by
  obtain ⟨u, walked, same, found, many, foreignKey, key, -, -, rfl⟩ := (subquery_ok context).mp run
  obtain ⟨linked', outer⟩ := navigation_leads context linked walked
  exact ⟨linked', same, outer, found, many, foreignKey, key⟩

/-- What can be read as a boolean operand is a truth value below its conversions. -/
theorem isTruth_of_readBoolean? {e : Expr} {read : Lowering Operand}
    (boolean : readBoolean? context origin e = some read) : e.strip.isTruth = true := by
  fun_induction readBoolean? context origin e with
  | case1 e ih => exact ih boolean
  | case2 path => rfl
  | case3 value => rfl
  | case4 name => rfl
  | case5 receiver args => rfl
  | case6 e => cases boolean

end Reading

namespace Lowers

variable {context : LoweringContext n} {origin : Origin n} {e : Expr} {s t : Progress}
  {k : Condition n}

/-- The joins that a predicate adds continue those that were there. -/
theorem linked (h : Lowers context origin e s k t)
    (start : Linked context.schema context.dialect origin s.joins) :
    Linked context.schema context.dialect origin t.joins := by
  induction h with
  | logical _ _ _ first second => exact second (first start)
  | comparison _ _ leftRead rightRead =>
    have middle := (readOperand_denotes _ start leftRead).1
    exact (readOperand_denotes _ middle rightRead).1
  | nullTest _ _ read => exact (readOperand_denotes _ start read).1
  | inverted boolean run | truth _ boolean run =>
    have read := readOperand_of_readBoolean? _ boolean run
    exact (readOperand_denotes _ start read).1
  | not _ _ inner => exact inner start
  | convert _ inner => exact inner start
  | like _ _ column | membership _ _ _ column | emptyMembership _ _ _ column
  | hasValue _ column => exact (resolveColumn_denotes _ start column).1
  | any _ rows => exact (subquery_stands _ start rows).1
  | anyWhere _ rows => exact (subquery_stands _ start rows).1

end Lowers

/-- The expression became the condition in this scope: the joins before were linked, and those after
are among `joins`. The enumerations that were known then are still in `r`. -/
def Lowered (context : LoweringContext n) (r : EnumRegistry) : ScopeProperty n :=
  fun origin joins e k => ∃ s t, Lowers context origin e s k t ∧
    Linked context.schema context.dialect origin s.joins ∧ t.joins <+: joins ∧
    t.enums.Grows context.schema r

/-- A predicate is lowered test by test. What is true of the joins where paths start, and stays so
when a predicate is lowered there, is true wherever one of its tests is lowered. -/
theorem Lowers.testwise {context : LoweringContext n} {I : Origin n → List JoinClause → Prop}
    (fresh : ∀ origin, I origin [])
    (preserved : ∀ {origin e s k t},
      Lowers context origin e s k t → I origin s.joins → I origin t.joins)
    {r : EnumRegistry} {origin : Origin n} {e : Expr} {s t : Progress} {k : Condition n}
    {joins : List JoinClause} (h : Lowers context origin e s k t) (start : I origin s.joins)
    (kept : t.joins <+: joins) (known : t.enums.Grows context.schema r) :
    Throughout (fun origin joins e k => ∃ s t, Lowers context origin e s k t ∧ I origin s.joins ∧
      t.joins <+: joins ∧ t.enums.Grows context.schema r) origin joins e k := by
  induction h generalizing joins with
  | logical connective left right first second =>
    have grown := right.grows
    have front := first start (grown.joins.trans kept) (grown.enums.trans known)
    exact .logical connective front (second (preserved left start) kept known)
  | not compound _ inner => exact .not (inner start kept known)
  | convert _ inner => exact .convert (inner start kept known)
  | inverted boolean run =>
    have truth := isTruth_of_readBoolean? context boolean
    exact .inverted truth ⟨_, _, .inverted boolean run, start, kept, known⟩
  | truth plain boolean run =>
    have truth := isTruth_of_readBoolean? context boolean
    rw [plain] at truth
    exact .test (Expr.isTest_of_isTruth truth) rfl ⟨_, _, .truth plain boolean run, start,
      kept, known⟩
  | comparison comparator untested leftRead rightRead leftBound rightBound =>
    have derived := Lowers.comparison comparator untested leftRead rightRead leftBound rightBound
    exact .test (by simp [Expr.isTest, Expr.isLeaf, comparator]) rfl ⟨_, _, derived, start,
      kept, known⟩
  | nullTest comparator tested read =>
    have derived := Lowers.nullTest comparator tested read
    exact .test (by simp [Expr.isTest, Expr.isLeaf, comparator]) rfl ⟨_, _, derived, start,
      kept, known⟩
  | like opening member column textual value bound =>
    have derived := Lowers.like opening member column textual value bound
    exact .test (Expr.isTest_of_like opening _ _) rfl ⟨_, _, derived, start, kept, known⟩
  | membership collection value member column nonempty bound =>
    have derived := Lowers.membership collection value member column nonempty bound
    exact .test rfl rfl ⟨_, _, derived, start, kept, known⟩
  | emptyMembership collection value member column =>
    have derived := Lowers.emptyMembership collection value member column
    exact .test rfl rfl ⟨_, _, derived, start, kept, known⟩
  | hasValue member column =>
    exact .test rfl rfl ⟨_, _, .hasValue member column, start, kept, known⟩
  | any collection rows =>
    exact .test rfl rfl ⟨_, _, .any collection rows, start, kept, known⟩
  | anyWhere collection rows inner innerIh =>
    have own := innerIh (fresh _) List.prefix_rfl known
    exact .anyWhere ⟨_, _, .anyWhere collection rows inner, start, kept, known⟩ own

theorem Lowers.throughout {context : LoweringContext n} {r : EnumRegistry} {origin : Origin n}
    {e : Expr} {s t : Progress} {k : Condition n} {joins : List JoinClause}
    (h : Lowers context origin e s k t)
    (start : Linked context.schema context.dialect origin s.joins) (kept : t.joins <+: joins)
    (known : t.enums.Grows context.schema r) :
    Throughout (Lowered context r) origin joins e k :=
  h.testwise (Linked.nil _ _) (fun derived => derived.linked) start kept known

end PredicateSql
