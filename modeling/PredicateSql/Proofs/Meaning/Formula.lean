import PredicateSql.Proofs.Condition.Derivation
import PredicateSql.Proofs.Meaning.Reading

/-!
Predicates as formulas of three-valued logic over labelled leaves. Negation is taken off or written
out; both forms of a formula have the same value and the same leaves.
-/
namespace PredicateSql

variable {α : Type}

namespace Expr

/-- Neither a connective, a negation nor a conversion. -/
def isLeaf : Expr → Bool
  | binary op _ _ => !op.isLogical
  | not _ | convert _ | modifier _ => false
  | _ => true

/-- The leaves that are written with a test: their text is a value and no condition. -/
def isOperand : Expr → Bool
  | member _ | call .isNullOrEmpty _ _ => true
  | _ => false

theorem isOperand_call {method : Method} {w : Wildcard} (opening : method.wildcard? = some w)
    {receiver : Option Expr} {args : List Expr} :
    (call method receiver args).isOperand = false := by
  cases method <;> first | rfl | cases opening

/-- The value of a boolean constant or a captured boolean. -/
def bool? (bindings : Bindings) : Expr → Option Bool
  | constant value => value.bool?
  | captured name => (bindings.get? name).bind (·.bool?)
  | _ => none

end Expr

/-- A predicate whose leaves are labelled. -/
inductive Formula (α : Type) where
  | leaf (label : α) (e : Expr) (isLeaf : e.isLeaf = true)
  | and (left right : Formula α)
  | or (left right : Formula α)
  | not (operand : Formula α)
  /-- The negation that takes another one off. -/
  | negate (operand : Formula α)
  | convert (operand : Formula α)

namespace Formula

def expr : Formula α → Expr
  | leaf _ e _ => e
  | and left right => .and left.expr right.expr
  | or left right => .or left.expr right.expr
  | not f => .not f.expr
  | negate f => f.expr.negate
  | convert f => .convert f.expr

/-- The truth value: literals have their own, the other leaves those of `ν`. -/
def value (bindings : Bindings) (ν : α → Truth) : Formula α → Truth
  | leaf label e _ => (e.bool? bindings).elim (ν label) some
  | and left right => (left.value bindings ν).conjunction (right.value bindings ν)
  | or left right => (left.value bindings ν).disjunction (right.value bindings ν)
  | not f => (f.value bindings ν).negation
  | negate f => (f.value bindings ν).negation
  | convert f => f.value bindings ν

/-- The leaves that are no literals, from left to right. -/
def openLeaves (bindings : Bindings) : Formula α → List (α × Expr)
  | leaf label e _ => if (e.bool? bindings).isSome then [] else [(label, e)]
  | and left right | or left right => left.openLeaves bindings ++ right.openLeaves bindings
  | not f | negate f | convert f => f.openLeaves bindings

/-- Negations are all written out. -/
def Plain : Formula α → Prop
  | leaf _ _ _ => True
  | and left right | or left right => left.Plain ∧ right.Plain
  | not f | convert f => f.Plain
  | negate _ => False

def invert : Formula α → Formula α
  | not f => f
  | f => not f

/-- The same predicate with its negations written out. -/
def plain : Formula α → Formula α
  | leaf label e isLeaf => leaf label e isLeaf
  | and left right => and left.plain right.plain
  | or left right => or left.plain right.plain
  | not f => not f.plain
  | negate f => f.plain.invert
  | convert f => convert f.plain

theorem plain_plain (f : Formula α) : f.plain.Plain := by
  induction f with
  | leaf label e isLeaf => trivial
  | and left right leftIh rightIh => exact ⟨leftIh, rightIh⟩
  | or left right leftIh rightIh => exact ⟨leftIh, rightIh⟩
  | not f ih => exact ih
  | negate f ih =>
    rw [plain]
    generalize f.plain = g at ih ⊢
    cases g <;> exact ih
  | convert f ih => exact ih

theorem plain_expr (f : Formula α) : f.plain.expr = f.expr := by
  induction f with
  | leaf label e isLeaf => rfl
  | and left right leftIh rightIh => simp only [plain, expr, leftIh, rightIh]
  | or left right leftIh rightIh => simp only [plain, expr, leftIh, rightIh]
  | not f ih => simp only [plain, expr, ih]
  | negate f ih =>
    rw [plain, expr, ← ih]
    have written := f.plain_plain
    generalize f.plain = g at written ⊢
    cases g with
    | leaf label e isLeaf => cases e <;> first | rfl | cases isLeaf
    | negate g => exact written.elim
    | _ => rfl
  | convert f ih => simp only [plain, expr, ih]

theorem plain_value (bindings : Bindings) (ν : α → Truth) (f : Formula α) :
    f.plain.value bindings ν = f.value bindings ν := by
  induction f with
  | leaf label e isLeaf => rfl
  | and left right leftIh rightIh => simp only [plain, value, leftIh, rightIh]
  | or left right leftIh rightIh => simp only [plain, value, leftIh, rightIh]
  | not f ih => simp only [plain, value, ih]
  | negate f ih =>
    rw [plain, value, ← ih]
    cases f.plain <;> simp only [invert, value, Truth.negation_negation]
  | convert f ih => simp only [plain, value, ih]

theorem plain_openLeaves (bindings : Bindings) (f : Formula α) :
    f.plain.openLeaves bindings = f.openLeaves bindings := by
  induction f with
  | leaf label e isLeaf => rfl
  | and left right leftIh rightIh => simp only [plain, openLeaves, leftIh, rightIh]
  | or left right leftIh rightIh => simp only [plain, openLeaves, leftIh, rightIh]
  | not f ih => simp only [plain, openLeaves, ih]
  | negate f ih =>
    rw [plain, openLeaves, ← ih]
    cases f.plain <;> rfl
  | convert f ih => simp only [plain, openLeaves, ih]

end Formula

end PredicateSql
