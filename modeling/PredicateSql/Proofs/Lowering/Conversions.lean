import PredicateSql.Proofs.Condition.Operand
import PredicateSql.Proofs.Lowering.Growth
import PredicateSql.Proofs.Parallel.Expressions

/-!
Conversions. An expression is lowered as the one without its conversions, wherever they stand: each
part of the lowering that looks at the form of an expression looks below the conversions, and
messages do not show them.
-/
namespace PredicateSql

namespace Expr

mutual

/-- The expression without its conversions. -/
def unconverted : Expr → Expr
  | binary op left right => binary op left.unconverted right.unconverted
  | not e => not e.unconverted
  | convert e => e.unconverted
  | call method receiver args => call method (unconvertedReceiver receiver) (unconvertedArgs args)
  | member path => member path
  | constant value => constant value
  | captured name => captured name
  | modifier m => modifier m

def unconvertedReceiver : Option Expr → Option Expr
  | none => none
  | some e => some e.unconverted

def unconvertedArgs : List Expr → List Expr
  | [] => []
  | e :: rest => e.unconverted :: unconvertedArgs rest

end

mutual

/-- How many conversions there are in an expression. -/
def conversions : Expr → Nat
  | binary _ left right => left.conversions + right.conversions
  | not e => e.conversions
  | convert e => e.conversions + 1
  | call _ receiver args => receiverConversions receiver + argConversions args
  | member _ | constant _ | captured _ | modifier _ => 0

def receiverConversions : Option Expr → Nat
  | none => 0
  | some e => e.conversions

def argConversions : List Expr → Nat
  | [] => 0
  | e :: rest => e.conversions + argConversions rest

end

theorem unconvertedReceiver_eq_map (receiver : Option Expr) :
    unconvertedReceiver receiver = receiver.map unconverted := by
  cases receiver <;> rfl

theorem unconvertedArgs_eq_map (args : List Expr) :
    unconvertedArgs args = args.map unconverted := by
  induction args with
  | nil => rfl
  | cons e rest ih => rw [unconvertedArgs, ih, List.map_cons]

theorem unconverted_call (method : Method) (receiver : Option Expr) (args : List Expr) :
    (call method receiver args).unconverted =
      call method (receiver.map unconverted) (args.map unconverted) := by
  rw [unconverted, unconvertedReceiver_eq_map, unconvertedArgs_eq_map]

theorem receiverConversions_eq_zero {receiver : Option Expr}
    (none : ∀ e ∈ receiver, e.conversions = 0) :
    receiverConversions receiver = 0 := by
  cases receiver with
  | none => rfl
  | some e => exact none e rfl

theorem argConversions_eq_zero {args : List Expr} (none : ∀ e ∈ args, e.conversions = 0) :
    argConversions args = 0 := by
  induction args with
  | nil => rfl
  | cons e rest ih =>
    rw [argConversions, none e List.mem_cons_self,
      ih fun e held => none e (List.mem_cons_of_mem _ held)]

/-- No conversion is left. -/
theorem conversions_unconverted (e : Expr) : e.unconverted.conversions = 0 := by
  induction e using inductionThrough with
  | binary op left right first second => rw [unconverted, conversions, first, second]
  | not e inner => exact inner
  | convert e inner => exact inner
  | call method receiver args receivers operands =>
    rw [unconverted_call, conversions, receiverConversions_eq_zero, argConversions_eq_zero]
    · simpa using operands
    · simpa using receivers
  | _ => rfl

theorem receiverText_congr {f : Expr → Expr} {receiver : Option Expr}
    (same : ∀ e ∈ receiver, (f e).text = e.text) :
    receiverText (receiver.map f) = receiverText receiver := by
  cases receiver with
  | none => rfl
  | some e => rw [Option.map_some, receiverText, receiverText, same e rfl]

theorem argTexts_congr {f : Expr → Expr} {args : List Expr}
    (same : ∀ e ∈ args, (f e).text = e.text) :
    argTexts (args.map f) = argTexts args := by
  induction args with
  | nil => rfl
  | cons e rest ih =>
    rw [List.map_cons, argTexts, argTexts, same e List.mem_cons_self,
      ih fun e held => same e (List.mem_cons_of_mem _ held)]

/-- Messages show no conversions. -/
theorem text_unconverted (e : Expr) : e.unconverted.text = e.text := by
  induction e using inductionThrough with
  | binary op left right first second => rw [unconverted, text, text, first, second]
  | not e inner => rw [unconverted, text, text, inner]
  | convert e inner => exact inner
  | call method receiver args receivers operands =>
    rw [unconverted_call, text, text, receiverText_congr receivers, argTexts_congr operands]
  | _ => rfl

/-- Below the outer conversions the others are taken away as they are elsewhere. -/
theorem strip_unconverted (e : Expr) : e.unconverted.strip = e.strip.unconverted := by
  fun_induction strip e with
  | case1 e ih => exact ih
  | case2 e other =>
    cases e with
    | convert e => exact absurd rfl (other e)
    | _ => rfl

theorem map_strip_unconverted (receiver : Option Expr) :
    (receiver.map unconverted).map strip = (receiver.map strip).map unconverted := by
  cases receiver with
  | none => rfl
  | some e => exact congrArg some e.strip_unconverted

/-- A receiver below its conversions is no conversion. -/
theorem map_strip_ne_convert (receiver : Option Expr) (e : Expr) :
    receiver.map strip ≠ some (convert e) := by
  cases receiver with
  | none => exact nofun
  | some source => exact fun same => source.strip_ne_convert e (Option.some.inj same)

end Expr

open Lowering

theorem Lowering.attempt_map_bind {α β γ : Type} (outcome : Except Error α) (f : α → β)
    (k : β → Lowering γ) :
    (attempt (outcome.map f) >>= k) = attempt outcome >>= fun a => k (f a) := by
  cases outcome <;> rfl

variable {n : Nat} (context : LoweringContext n)

section Handlers

variable (origin : Origin n)

theorem literal_unconverted (e : Expr) : literal context e.unconverted = literal context e := by
  fun_induction literal context e with
  | case1 e ih => exact ih
  | case2 value => rfl
  | case3 name => rfl
  | case4 e other constant captured =>
    cases e with
    | convert e => exact absurd rfl (other e)
    | constant value => exact absurd rfl (constant value)
    | captured name => exact absurd rfl (captured name)
    | _ =>
      rw [← Expr.text_unconverted]
      rfl

theorem isNullLiteral_unconverted (e : Expr) :
    isNullLiteral context e.unconverted = isNullLiteral context e := by
  fun_induction isNullLiteral context e with
  | case1 e ih => exact ih
  | case2 value => rfl
  | case3 name => rfl
  | case4 e other constant captured =>
    cases e with
    | convert e => exact absurd rfl (other e)
    | constant value => exact absurd rfl (constant value)
    | captured name => exact absurd rfl (captured name)
    | _ => rfl

theorem singleArg_unconverted (method : Method) (args : List Expr) :
    singleArg method (args.map Expr.unconverted) =
      (singleArg method args).map Expr.unconverted := by
  rcases args with _ | ⟨e, _ | ⟨e', rest⟩⟩
  · rfl
  · rfl
  · simp only [singleArg, List.map_cons, List.length_cons, List.length_map]
    rfl

theorem memberOperand_unconverted (method : Method) (receiver : Option Expr) :
    memberOperand context origin method (receiver.map Expr.unconverted) =
      memberOperand context origin method receiver := by
  unfold memberOperand
  rw [Expr.map_strip_unconverted]
  rcases stripped : receiver.map Expr.strip with _ | source
  · rfl
  · cases source with
    | convert e => exact absurd stripped (Expr.map_strip_ne_convert receiver e)
    | _ => rfl

theorem nullOrEmpty_unconverted (receiver : Option Expr) (args : List Expr) :
    nullOrEmpty context origin (receiver.map Expr.unconverted) (args.map Expr.unconverted) =
      nullOrEmpty context origin receiver args := by
  have member : ∀ e : Expr, memberOperand context origin .isNullOrEmpty (some e.unconverted) =
      memberOperand context origin .isNullOrEmpty (some e) :=
    fun e => memberOperand_unconverted context origin _ (some e)
  rcases receiver with _ | e <;> rcases args with _ | ⟨e', _ | ⟨e'', rest⟩⟩
  · rfl
  · simp only [nullOrEmpty, Option.map_none, List.map_cons, List.map_nil, pure_bind, member]
  · rfl
  · simp only [nullOrEmpty, Option.map_some, List.map_nil, pure_bind, member]
  · rfl
  · rfl

theorem booleanOperand?_unconverted (e : Expr) :
    booleanOperand? context origin e.unconverted = booleanOperand? context origin e := by
  fun_induction booleanOperand? context origin e with
  | case1 e ih => exact ih
  | case2 path => rfl
  | case3 value => rfl
  | case4 name => rfl
  | case5 receiver args =>
    rw [Expr.unconverted_call, booleanOperand?, nullOrEmpty_unconverted]
  | case6 e other member constant captured emptiness =>
    cases e with
    | convert e => exact absurd rfl (other e)
    | member path => exact absurd rfl (member path)
    | constant value => exact absurd rfl (constant value)
    | captured name => exact absurd rfl (captured name)
    | call method receiver args =>
      cases method with
      | isNullOrEmpty => exact absurd rfl (emptiness receiver args)
      | _ => rfl
    | _ => rfl

theorem operand_unconverted (e : Expr) :
    operand context origin e.unconverted = operand context origin e := by
  fun_induction operand context origin e with
  | case1 e ih => exact ih
  | case2 path => rfl
  | case3 value => rfl
  | case4 name => rfl
  | case5 receiver args =>
    rw [Expr.unconverted_call, operand, nullOrEmpty_unconverted]
  | case6 e other member constant captured emptiness =>
    cases e with
    | convert e => exact absurd rfl (other e)
    | member path => exact absurd rfl (member path)
    | constant value => exact absurd rfl (constant value)
    | captured name => exact absurd rfl (captured name)
    | call method receiver args =>
      cases method with
      | isNullOrEmpty => exact absurd rfl (emptiness receiver args)
      | _ =>
        rw [← Expr.text_unconverted]
        rfl
    | _ =>
      rw [← Expr.text_unconverted]
      rfl

theorem nullTested?_unconverted (op : BinaryOp) (left right : Expr) :
    nullTested? context op left.unconverted right.unconverted =
      (nullTested? context op left right).map
        (·.map fun tested => (tested.1, tested.2.unconverted)) := by
  unfold nullTested?
  rw [isNullLiteral_unconverted, isNullLiteral_unconverted]
  cases nullTest? op with
  | none => rfl
  | some test =>
    rcases isNullLiteral context right with _ | _ | _
    · rfl
    · rcases isNullLiteral context left with _ | _ | _ <;> rfl
    · rfl

theorem comparison_unconverted (op : BinaryOp) (left right : Expr) :
    comparison context origin op left.unconverted right.unconverted =
      comparison context origin op left right := by
  unfold comparison
  rw [nullTested?_unconverted]
  simp only [attempt_map_bind]
  refine congrArg (mark >>= ·) (funext fun start => ?_)
  refine congrArg (pushSql "(" >>= ·) (funext fun _ => ?_)
  refine congrArg (attempt (nullTested? context op left right) >>= ·) (funext fun tested => ?_)
  cases tested with
  | none => simp only [Option.map_none, operand_unconverted]
  | some tested => simp only [Option.map_some, operand_unconverted]

theorem like_unconverted (method : Method) (column : ColumnRef) (pattern : Expr)
    (wildcard : Wildcard) :
    like context method column pattern.unconverted wildcard =
      like context method column pattern wildcard := by
  simp only [like, literal_unconverted]

theorem inCollection_unconverted (collection arg : Expr) :
    inCollection context origin collection.unconverted arg.unconverted =
      inCollection context origin collection arg := by
  unfold inCollection
  rw [literal_unconverted, Expr.strip_unconverted, Expr.text_unconverted, Expr.text_unconverted]
  refine congrArg (attempt (literal context collection) >>= ·) (funext fun value => ?_)
  cases value with
  | list items =>
    cases stripped : arg.strip with
    | convert e => exact absurd stripped (arg.strip_ne_convert e)
    | _ => rfl
  | _ => rfl

theorem containsCall_unconverted (receiver : Option Expr) (args : List Expr) :
    containsCall context origin (receiver.map Expr.unconverted) (args.map Expr.unconverted) =
      containsCall context origin receiver args := by
  unfold containsCall
  rw [singleArg_unconverted, Expr.map_strip_unconverted, attempt_map_bind]
  refine congrArg (attempt (singleArg .contains args) >>= ·) (funext fun arg => ?_)
  rcases stripped : receiver.map Expr.strip with _ | source
  · rfl
  · cases source with
    | convert e => exact absurd stripped (Expr.map_strip_ne_convert receiver e)
    | member path => simp only [Option.map_some, Expr.unconverted, like_unconverted]
    | constant value => exact inCollection_unconverted context origin (.constant value) arg
    | captured name => exact inCollection_unconverted context origin (.captured name) arg
    | _ => rfl

theorem affixCall_unconverted (method : Method) (wildcard : Wildcard) (receiver : Option Expr)
    (args : List Expr) :
    affixCall context origin method wildcard (receiver.map Expr.unconverted)
        (args.map Expr.unconverted) = affixCall context origin method wildcard receiver args := by
  unfold affixCall
  simp only [memberOperand_unconverted, singleArg_unconverted, attempt_map_bind, like_unconverted]

theorem hasValueCall_unconverted (receiver : Option Expr) (args : List Expr) :
    hasValueCall context origin (receiver.map Expr.unconverted) (args.map Expr.unconverted) =
      hasValueCall context origin receiver args := by
  simp only [hasValueCall, memberOperand_unconverted, List.isEmpty_map]

theorem anyPath_unconverted (receiver : Option Expr) :
    anyPath (receiver.map Expr.unconverted) = anyPath receiver := by
  unfold anyPath
  rw [Expr.map_strip_unconverted]
  rcases stripped : receiver.map Expr.strip with _ | source
  · rfl
  · cases source with
    | convert e => exact absurd stripped (Expr.map_strip_ne_convert receiver e)
    | _ => rfl

end Handlers

/-- A predicate is lowered as the one without its conversions. -/
theorem predicate_unconverted (e : Expr) (origin : Origin n) :
    predicate context e.unconverted origin = predicate context e origin := by
  induction e using Expr.inductionOn generalizing origin with
  | binary op left right first second =>
    simp only [Expr.unconverted, predicate, first, second, comparison_unconverted]
  | not e inner => simp only [Expr.unconverted, predicate, booleanOperand?_unconverted, inner]
  | convert e inner =>
    rw [predicate_convert]
    exact inner origin
  | call method receiver args inner =>
    rw [Expr.unconverted_call]
    cases method with
    | contains => simp only [predicate, containsCall_unconverted]
    | startsWith => simp only [predicate, affixCall_unconverted]
    | endsWith => simp only [predicate, affixCall_unconverted]
    | isNullOrEmpty => simp only [predicate, nullOrEmpty_unconverted]
    | hasValue => simp only [predicate, hasValueCall_unconverted]
    | any =>
      rcases args with _ | ⟨condition, _ | ⟨second, rest⟩⟩
      · simp only [List.map_nil, predicate, anyPath_unconverted]
      · have same : predicate context condition.unconverted = predicate context condition :=
          funext (inner condition List.mem_cons_self)
        simp only [List.map_cons, List.map_nil, predicate, anyPath_unconverted, same]
      · simp only [List.map_cons, predicate, anyPath_unconverted]
  | _ => rfl

end PredicateSql
