import Mathlib.Data.List.Forall2
import PredicateSql.Proofs.Compilation.Calls
import PredicateSql.Proofs.Lowering.Trail
import PredicateSql.Proofs.Meaning.Formula

/-!
Predicates mean what their texts mean. The text of a predicate, read by the precedence of SQL, has
the truth value of the predicate in three-valued logic, whatever the values of its leaves.
-/
namespace PredicateSql

open Lowering

variable {n : Nat} {α : Type}

variable (context : LoweringContext n) (origin : Origin n)

/-- Somewhere between `s` and `t` the expression by itself is lowered to the text. -/
def CompilesTo (s t : Progress) (e : Expr) (sql : String) : Prop :=
  ∃ s' t', s.Grows context.schema s' ∧
    Compiler.predicateText context origin e s' = (.ok sql, t') ∧ t'.Grows context.schema t

/-- The symbol is what the labelled leaf is written as. A boolean operand by itself is written with
the test that it is true. -/
inductive Depicts (s t : Progress) : Symbol α → α × Expr → Prop
  | operand {label e text} (boolean : e.isOperand = true)
      (alone : CompilesTo context origin s t e
        (text ++ (" = " ++ context.dialect.boolLiteral true))) :
      Depicts s t (.operand label text) (label, e)
  | condition {label e text} (other : e.isOperand = false)
      (alone : CompilesTo context origin s t e text) :
      Depicts s t (.condition label text) (label, e)

/-- A word that stands for a formula: its text, its variables and its truth value. -/
structure Spells (s t : Progress) (f : Formula α) (sql : String) (w : List (Symbol α)) : Prop where
  text : Symbol.text context.dialect w = sql
  leaves : List.Forall₂ (Depicts context origin s t) (w.filter Symbol.isVariable)
    (f.openLeaves context.bindings)
  reads : ∀ ν, Reads ν .negation w (f.value context.bindings ν)

variable {context origin}

theorem Depicts.mono {s s' t t' : Progress} {a : Symbol α} {leaf : α × Expr}
    (h : Depicts context origin s t a leaf) (before : s'.Grows context.schema s)
    (after : t.Grows context.schema t') : Depicts context origin s' t' a leaf := by
  have wider : ∀ {e sql}, CompilesTo context origin s t e sql →
      CompilesTo context origin s' t' e sql := by
    rintro e sql ⟨u, v, start, run, finish⟩
    exact ⟨u, v, before.trans start, run, finish.trans after⟩
  cases h with
  | operand boolean alone => exact .operand boolean (wider alone)
  | condition other alone => exact .condition other (wider alone)

/-- What is derived for an expression is what it by itself is lowered to. -/
theorem Lowers.compilesTo {e : Expr} {s t : Progress} {k : Condition n}
    (h : Lowers context origin e s k t) :
    CompilesTo context origin s t e (k.sql context.schema context.dialect) := by
  refine ⟨s.withBuffer .empty, _, ⟨List.prefix_rfl, Nat.le_refl _, .refl _ _⟩,
    (Compiler.predicateText_ok rfl).mpr ⟨k, _, h.withBuffer .empty, rfl, rfl⟩,
    ⟨List.prefix_rfl, Nat.le_refl _, .refl _ _⟩⟩

namespace Spells

variable {s s' t t' : Progress} {f : Formula α} {sql : String} {w : List (Symbol α)}

theorem mono (h : Spells context origin s t f sql w) (before : s'.Grows context.schema s)
    (after : t.Grows context.schema t') : Spells context origin s' t' f sql w :=
  ⟨h.text, h.leaves.imp fun _ _ depicts => depicts.mono before after, h.reads⟩

end Spells

/-- A leaf that is no literal is a variable. -/
theorem leaves_leaf {label : α} {e : Expr} {isLeaf : e.isLeaf = true} {s t : Progress}
    {a : Symbol α} (open' : e.bool? context.bindings = none) (variable' : a.isVariable = true)
    (depicts : Depicts context origin s t a (label, e)) :
    List.Forall₂ (Depicts context origin s t) ([a].filter Symbol.isVariable)
      ((Formula.leaf label e isLeaf).openLeaves context.bindings) := by
  have single : (Formula.leaf label e isLeaf).openLeaves context.bindings = [(label, e)] := by
    simp [Formula.openLeaves, open']
  rw [single, List.filter_cons_of_pos variable']
  exact .cons depicts .nil

/-- A boolean operand is one symbol, with the value of its leaf. -/
theorem operand_symbol (label : α) {e : Expr} (isLeaf : e.isLeaf = true)
    {read : Lowering Operand} {o : Operand} {s t : Progress}
    (boolean : readBoolean? context origin e = some read) (run : read s = (.ok o, t)) :
    ∃ a : Symbol α, a.sql context.dialect = o.sql context.dialect ∧
      List.Forall₂ (Depicts context origin s t) ([a].filter Symbol.isVariable)
        ((Formula.leaf label e isLeaf).openLeaves context.bindings) ∧
      ∀ ν, a.value? ν = some ((Formula.leaf label e isLeaf).value context.bindings ν) := by
  have plain : e.strip = e := by
    cases e <;> first | rfl | cases isLeaf
  have alone := (Lowers.truth plain boolean run).compilesTo
  rcases readBoolean?_cases context boolean run with ⟨path, c, member, -, -, rfl⟩ |
    ⟨-, b, value, rfl, -⟩ | ⟨receiver, args, c, call, -, rfl⟩
  · obtain rfl := plain.symm.trans member
    refine ⟨.operand label (c.render context.dialect), rfl, ?_, fun ν => rfl⟩
    exact leaves_leaf rfl rfl (.operand rfl alone)
  · have known : e.bool? context.bindings = some b := by
      rcases (literal_ok context).mp value with same | ⟨name, same, bound⟩
      · obtain rfl := plain.symm.trans (e.strip_strip.symm.trans same)
        rfl
      · obtain rfl := plain.symm.trans (e.strip_strip.symm.trans same)
        simp [Expr.bool?, bound, Value.bool?]
    refine ⟨.literal b, rfl, ?_, fun ν => ?_⟩
    · simp [Formula.openLeaves, known, Symbol.isVariable]
    · simp [Formula.value, known, Symbol.value?]
  · obtain rfl := plain.symm.trans call
    refine ⟨.operand label ((Operand.nullOrEmpty c).sql context.dialect), rfl, ?_, fun ν => rfl⟩
    exact leaves_leaf rfl rfl (.operand rfl alone)

/-- A formula that is written as a boolean operand is a leaf below its conversions. -/
theorem Formula.exists_leaf {f : Formula α} {read : Lowering Operand} (plain : f.Plain)
    (boolean : readBoolean? context origin f.expr = some read) :
    ∃ label e, ∃ isLeaf : e.isLeaf = true, readBoolean? context origin e = some read ∧
      f.openLeaves context.bindings = (leaf label e isLeaf).openLeaves context.bindings ∧
      ∀ ν, f.value context.bindings ν = (leaf label e isLeaf).value context.bindings ν := by
  induction f with
  | leaf label e isLeaf => exact ⟨label, e, isLeaf, boolean, rfl, fun ν => rfl⟩
  | and left right leftIh rightIh => cases boolean
  | or left right leftIh rightIh => cases boolean
  | not f ih => cases boolean
  | negate f ih => exact plain.elim
  | convert f ih => exact ih plain boolean

/-- The test of a boolean operand, read as an equality. -/
theorem truth_word {f : Formula α} {read : Lowering Operand} {o : Operand} {s t : Progress}
    (plain : f.Plain) (boolean : readBoolean? context origin f.expr = some read)
    (run : read s = (.ok o, t)) (invert : Bool) :
    ∃ w : List (Symbol α), Symbol.text context.dialect w =
        o.sql context.dialect ++ (" = " ++ context.dialect.boolLiteral !invert) ∧
      List.Forall₂ (Depicts context origin s t) (w.filter Symbol.isVariable)
        (f.openLeaves context.bindings) ∧
      ∀ ν, Reads ν .negation w ((f.value context.bindings ν).equality (some !invert)) := by
  obtain ⟨label, e, isLeaf, operand, leaves, value⟩ := Formula.exists_leaf plain boolean
  obtain ⟨a, text, depicts, valued⟩ := operand_symbol label isLeaf operand run
  refine ⟨[a, .equals, .literal !invert], ?_, ?_, fun ν => ?_⟩
  · simp only [Symbol.text_cons, Symbol.text_nil, text, String.append_empty]
    rfl
  · have tested : [a, .equals, .literal !invert].filter Symbol.isVariable =
        [a].filter Symbol.isVariable :=
      (List.filter_append [a] _).trans (List.append_nil _)
    rw [tested, leaves]
    exact depicts
  · rw [value ν]
    exact .ofComparison (.equality (valued ν) rfl)

/-- Two words around a connective, in parentheses. -/
theorem text_connective (d : Dialect) (between : Symbol α) (w w' : List (Symbol α)) :
    Symbol.text d (Symbol.enclosed (w ++ between :: w')) =
      "(" ++ Symbol.text d w ++ between.sql d ++ Symbol.text d w' ++ ")" := by
  simp only [Symbol.text_enclosed, Symbol.text_append, Symbol.text_cons, String.append_assoc]

theorem leaves_connective {f g : Formula α} {s u t : Progress} {left right : String}
    {w w' : List (Symbol α)} {between : Symbol α} (connective : between.isVariable = false)
    (first : Spells context origin s u f left w) (second : Spells context origin u t g right w')
    (before : s.Grows context.schema u) (after : u.Grows context.schema t) :
    List.Forall₂ (Depicts context origin s t)
      ((Symbol.enclosed (w ++ between :: w')).filter Symbol.isVariable)
      (f.openLeaves context.bindings ++ g.openLeaves context.bindings) := by
  have kept : (Symbol.enclosed (w ++ between :: w')).filter Symbol.isVariable =
      w.filter Symbol.isVariable ++ w'.filter Symbol.isVariable := by
    rw [Symbol.filter_enclosed, List.filter_append, List.filter_cons_of_neg (by simp [connective])]
  rw [kept]
  exact List.rel_append (first.mono (.refl _ _) after).leaves
    (second.mono before (.refl _ _)).leaves

/-- What is derived for a leaf is spelled by one symbol, or by a boolean operand and its test. -/
theorem Lowers.leaf_spells {label : α} {e : Expr} {isLeaf : e.isLeaf = true} {s t : Progress}
    {k : Condition n} (h : Lowers context origin e s k t) :
    ∃ w, Spells context origin s t (.leaf label e isLeaf)
      (k.sql context.schema context.dialect) w := by
  have alone := h.compilesTo
  have condition : e.bool? context.bindings = none → e.isOperand = false →
      ∃ w, Spells context origin s t (.leaf label e isLeaf)
        (k.sql context.schema context.dialect) w := by
    intro unknown other
    refine ⟨[.condition label (k.sql context.schema context.dialect)], ?_, ?_, fun ν => ?_⟩
    · simp only [Symbol.text_cons, Symbol.text_nil, Symbol.sql, String.append_empty]
    · exact leaves_leaf unknown rfl (.condition other alone)
    · have value : (Formula.leaf label e isLeaf).value context.bindings ν = ν label := by
        simp only [Formula.value, unknown, Option.elim_none]
      rw [value]
      exact .ofComparison .condition
  cases h with
  | truth plain boolean run =>
    obtain ⟨w, text, leaves, reads⟩ :=
      truth_word (f := .leaf label e isLeaf) trivial boolean run false
    refine ⟨w, text, leaves, fun ν => ?_⟩
    have reading := reads ν
    rwa [Bool.not_false, Truth.equality_true] at reading
  | logical connective => simp [Expr.isLeaf, connective] at isLeaf
  | inverted | not | convert => cases isLeaf
  | like opening => exact condition rfl (Expr.isOperand_call opening)
  | comparison | nullTest | membership | emptyMembership | hasValue | any | anyWhere =>
    exact condition rfl rfl

/-- The condition that a formula becomes is spelled by a word with the value of the formula. -/
theorem Lowers.spells {f : Formula α} (plain : f.Plain) {s t : Progress} {k : Condition n}
    (h : Lowers context origin f.expr s k t) :
    ∃ w, Spells context origin s t f (k.sql context.schema context.dialect) w := by
  induction f generalizing s t k with
  | leaf label e isLeaf => exact h.leaf_spells
  | and left right leftIh rightIh =>
    cases h with
    | logical connective first second =>
      obtain ⟨w, left⟩ := leftIh plain.1 first
      obtain ⟨w', right⟩ := rightIh plain.2 second
      refine ⟨Symbol.enclosed (w ++ .and :: w'), ?_, ?_, fun ν => ?_⟩
      · rw [text_connective, left.text, right.text]
        rfl
      · exact leaves_connective rfl left right first.grows second.grows
      · exact .ofComparison (.enclosed (.ofConjunction
          (.and (left.reads ν) (.ofNegation (right.reads ν)))))
    | comparison comparator | nullTest comparator => cases comparator
    | truth _ boolean => cases boolean
  | or left right leftIh rightIh =>
    cases h with
    | logical connective first second =>
      obtain ⟨w, left⟩ := leftIh plain.1 first
      obtain ⟨w', right⟩ := rightIh plain.2 second
      refine ⟨Symbol.enclosed (w ++ .or :: w'), ?_, ?_, fun ν => ?_⟩
      · rw [text_connective, left.text, right.text]
        rfl
      · exact leaves_connective rfl left right first.grows second.grows
      · exact .ofComparison (.enclosed (.or (.ofNegation (left.reads ν))
          (.ofConjunction (.ofNegation (right.reads ν)))))
    | comparison comparator | nullTest comparator => cases comparator
    | truth _ boolean => cases boolean
  | not f ih =>
    cases h with
    | inverted boolean run =>
      obtain ⟨w, text, leaves, reads⟩ := truth_word (f := f) plain boolean run true
      refine ⟨w, text, leaves, fun ν => ?_⟩
      have reading := reads ν
      rwa [Bool.not_true, Truth.equality_false] at reading
    | not compound inner =>
      obtain ⟨w, operand⟩ := ih plain inner
      refine ⟨.not :: w, ?_, ?_, fun ν => .not (operand.reads ν)⟩
      · rw [Symbol.text_cons, operand.text]
        rfl
      · exact operand.leaves
    | truth _ boolean => cases boolean
  | negate f => exact plain.elim
  | convert f ih =>
    cases h with
    | convert inner =>
      obtain ⟨w, operand⟩ := ih plain inner
      exact ⟨w, operand.text, operand.leaves, operand.reads⟩
    | truth stripped => exact absurd stripped (Expr.strip_ne_convert _ _)

/-- What is derived for a formula is what is derived for it with its negations written out. -/
theorem exists_word {f : Formula α} {s t : Progress} {k : Condition n}
    (h : Lowers context origin f.expr s k t) :
    ∃ w : List (Symbol α), Symbol.text context.dialect w = k.sql context.schema context.dialect ∧
      List.Forall₂ (Depicts context origin s t) (w.filter Symbol.isVariable)
        (f.openLeaves context.bindings) ∧
      ∀ ν, Reads ν .negation w (f.value context.bindings ν) := by
  rw [← f.plain_expr] at h
  obtain ⟨w, text, leaves, reads⟩ := h.spells f.plain_plain
  simp only [f.plain_openLeaves, f.plain_value] at leaves reads
  exact ⟨w, text, leaves, reads⟩

/-- The pair of parentheses that a condition may get is none of its symbols. -/
theorem exists_parenthesized {f : Formula α} {s t : Progress} {k : Condition n}
    (h : Lowers context origin f.expr s k t) :
    ∃ w : List (Symbol α), Symbol.text context.dialect w =
        parenthesize (k.sql context.schema context.dialect) ∧
      List.Forall₂ (Depicts context origin s t) (w.filter Symbol.isVariable)
        (f.openLeaves context.bindings) ∧
      ∀ ν, Reads ν .negation w (f.value context.bindings ν) := by
  obtain ⟨w, text, leaves, reads⟩ := exists_word h
  unfold parenthesize
  split
  · exact ⟨w, text, leaves, reads⟩
  · refine ⟨Symbol.enclosed w, ?_, ?_, fun ν => ?_⟩
    · rw [Symbol.text_enclosed, text]
    · rwa [Symbol.filter_enclosed]
    · exact .ofComparison (.enclosed (.ofConjunction (.ofNegation (reads ν))))

end PredicateSql
