import PredicateSql.Proofs.Lowering.Run

/-!
Relations between the progress before and after a run. One that holds along every single step that a
lowering can take (to write, to draw an alias, to join, to look up an enumeration) holds along every
run, whether it succeeds or not.
-/
namespace PredicateSql

variable {n : Nat} {α β : Type}

/-- A relation that the single steps of a lowering lead along. -/
structure Stepwise (schema : Schema n) where
  holds : Progress → Progress → Prop
  trans {s t u : Progress} : holds s t → holds t u → holds s u
  buffer (s : Progress) (b : TokenBuffer) : holds s (s.withBuffer b)
  freshAlias (s : Progress) : holds s { s with issued := s.issued + 1 }
  addJoin (s : Progress) (join : JoinClause) : holds s { s with joins := s.joins ++ [join] }
  enumFor (s : Progress) (i : Fin n) {property : String} (named : IsSegment property) :
    holds s { s with enums := (s.enums.enumFor (schema.entity i) property).2 }
  isolated {s t : Progress} :
    holds { s with joins := [], buffer := .empty } t →
      holds s { t with joins := s.joins, buffer := s.buffer }

/-- Every run of the lowering, successful or not, leads along the relation. -/
def Along {schema : Schema n} (R : Stepwise schema) (x : Lowering α) : Prop :=
  ∀ s : Progress, R.holds s (x s).2

namespace Along

open Lowering

variable {schema : Schema n} {R : Stepwise schema}

theorem bind {x : Lowering α} {f : α → Lowering β} (first : Along R x)
    (second : ∀ a, Along R (f a)) :
    Along R (x >>= f) := by
  intro s
  have start := first s
  rw [bind_run]
  rcases run : x s with ⟨e | a, t⟩
  · rw [run] at start
    exact start
  · rw [run] at start
    exact R.trans start (second a t)

/-- What touches nothing but the buffer. -/
theorem of_kept {x : Lowering α} (kept : ∀ s, ∃ b, (x s).2 = s.withBuffer b) : Along R x := by
  intro s
  obtain ⟨b, buffer⟩ := kept s
  rw [buffer]
  exact R.buffer s b

theorem pure (a : α) : Along R (pure a : Lowering α) :=
  .of_kept fun s => ⟨s.buffer, rfl⟩

theorem attempt (outcome : Except Error α) : Along R (Lowering.attempt outcome) :=
  .of_kept fun s => ⟨s.buffer, rfl⟩

theorem reject (cause : Unsupported) : Along R (Lowering.reject cause : Lowering α) :=
  .attempt _

theorem lacks (cause : MissingMetadata) : Along R (Lowering.lacks cause : Lowering α) :=
  .attempt _

theorem mark : Along R Lowering.mark :=
  .of_kept fun s => ⟨s.buffer, rfl⟩

theorem push (t : Token) : Along R (Lowering.push t) :=
  .of_kept fun _ => ⟨_, rfl⟩

theorem pushSql (text : String) : Along R (Lowering.pushSql text) :=
  .push _

theorem bindSpan (context : LoweringContext n) (start : Nat) :
    Along R (Lowering.bindSpan context start) :=
  .of_kept fun _ => ⟨_, rfl⟩

theorem collapseBooleans (context : LoweringContext n) (start : Nat) :
    Along R (Lowering.collapseBooleans context start) :=
  .of_kept fun _ => ⟨_, rfl⟩

theorem freshAlias (context : LoweringContext n) : Along R (Lowering.freshAlias context) :=
  R.freshAlias

theorem findJoin (path : String) : Along R (Lowering.findJoin path) :=
  .of_kept fun s => ⟨s.buffer, rfl⟩

theorem addJoin (join : JoinClause) : Along R (Lowering.addJoin join) :=
  fun s => R.addJoin s join

theorem enumFor (i : Fin n) {property : String} (named : IsSegment property) :
    Along R (Lowering.enumFor (schema.entity i) property) :=
  fun s => R.enumFor s i named

theorem isolated {x : Lowering Unit} (inner : Along R x) : Along R (Lowering.isolated x) :=
  fun s => R.isolated (inner { s with joins := [], buffer := .empty })

end Along

section Handlers

open Lowering

variable (context : LoweringContext n) {R : Stepwise context.schema}

theorem step_along (owner : Origin n) (path segment : String) :
    Along R (step context owner path segment) := by
  unfold step
  dsimp only
  split
  · exact .lacks _
  · split
    · exact .reject _
    · refine .bind (.findJoin path) fun found => ?_
      cases found with
      | some join => exact .pure _
      | none =>
        refine .bind ?_ fun join => .bind (.addJoin join) fun _ => .pure _
        exact .bind (.attempt _) fun _ => .bind (.freshAlias context) fun _ => .pure _

theorem walk_along (walked segments : List String) (owner : Origin n) :
    Along R (walk context walked owner segments) := by
  induction segments generalizing walked owner with
  | nil => exact .pure _
  | cons segment rest ih => exact .bind (step_along context owner _ segment) fun next => ih _ next

theorem resolveColumn_along (origin : Origin n) (path : MemberPath) :
    Along R (resolveColumn context origin path) := by
  unfold resolveColumn
  split
  · exact .reject _
  next nonempty =>
    have named := MemberPath.property_isSegment (Bool.eq_false_iff.mpr nonempty)
    refine .bind (walk_along context [] path.navigation origin) fun owner => ?_
    dsimp only
    split
    · split
      · exact .reject _
      · exact .lacks _
    · split
      · exact .bind (.enumFor owner.entity named) fun _ => .pure _
      · exact .bind (.pure _) fun _ => .pure _

theorem memberOperand_along (origin : Origin n) (method : Method) (receiver : Option Expr) :
    Along R (memberOperand context origin method receiver) := by
  unfold memberOperand
  split
  · exact resolveColumn_along context origin _
  · exact .reject _

theorem nullOrEmpty_along (origin : Origin n) (receiver : Option Expr) (args : List Expr) :
    Along R (nullOrEmpty context origin receiver args) := by
  have member := memberOperand_along (R := R) context origin .isNullOrEmpty
  have written : ∀ column, Along R (do
      pushSql "(CASE WHEN "
      push (.column column)
      pushSql " IS NULL OR "
      push (.column column)
      pushSql (" = '' THEN " ++ context.dialect.boolLiteral true ++ " ELSE " ++
        context.dialect.boolLiteral false ++ " END)")) := fun column =>
    .bind (.pushSql _) fun _ => .bind (.push _) fun _ => .bind (.pushSql _) fun _ =>
      .bind (.push _) fun _ => .pushSql _
  unfold nullOrEmpty
  split
  · exact .bind (.pure _) fun e => .bind (member (some e)) written
  · exact .bind (.pure _) fun e => .bind (member (some e)) written
  · exact .bind (.reject _) fun e => .bind (member (some e)) written

theorem booleanOperand?_along (origin : Origin n) (e : Expr) :
    ∀ write ∈ booleanOperand? context origin e, Along R write := by
  have value : ∀ e, Along R (booleanValue context e) := by
    intro e
    refine .bind (.attempt _) fun value => ?_
    split
    · exact .push _
    · exact .reject _
  fun_induction booleanOperand? context origin e with
  | case1 e ih => exact ih
  | case2 path =>
    rintro _ ⟨⟩
    refine .bind (resolveColumn_along context origin path) fun column => ?_
    split
    · exact .push _
    · exact .reject _
  | case3 v =>
    rintro _ ⟨⟩
    exact value _
  | case4 name =>
    rintro _ ⟨⟩
    exact value _
  | case5 receiver args =>
    rintro _ ⟨⟩
    exact nullOrEmpty_along context origin receiver args
  | case6 e => nofun

theorem operand_along (origin : Origin n) (e : Expr) :
    Along R (operand context origin e) := by
  fun_induction operand context origin e with
  | case1 e ih => exact ih
  | case2 path => exact .bind (resolveColumn_along context origin path) fun _ => .push _
  | case3 value => exact .push _
  | case4 name => exact .bind (.attempt _) fun _ => .push _
  | case5 receiver args => exact nullOrEmpty_along context origin receiver args
  | case6 e => exact .reject _

theorem comparison_along (origin : Origin n) (op : BinaryOp) (left right : Expr) :
    Along R (comparison context origin op left right) := by
  have close : ∀ start, Along R (do
      pushSql ")"
      bindSpan context start
      collapseBooleans context start) := fun start =>
    .bind (.pushSql _) fun _ => .bind (.bindSpan context start) fun _ => .collapseBooleans context _
  have read := operand_along (R := R) context origin
  refine .bind .mark fun start => .bind (.pushSql _) fun _ => .bind (.attempt _) fun tested => ?_
  rcases tested with _ | ⟨test, e⟩
  · exact .bind (read left) fun _ => .bind (.pushSql _) fun _ => .bind (read right) fun _ => close _
  · exact .bind (read e) fun _ => .bind (.pushSql _) fun _ => close _

theorem like_along (method : Method) (column : ColumnRef) (pattern : Expr) (w : Wildcard) :
    Along R (like context method column pattern w) := by
  unfold like
  split
  · exact .reject _
  · exact .bind (.attempt _) fun _ => .bind .mark fun _ => .bind (.pushSql _) fun _ =>
      .bind (.push _) fun _ => .bind (.pushSql _) fun _ => .bind (.push _) fun _ =>
      .bind (.pushSql _) fun _ => .bindSpan context _

theorem membership_along (column : ColumnRef) (items : List Value) :
    Along R (membership context column items) := by
  refine .bind .mark fun _ => .bind (.pushSql _) fun _ => .bind (.push _) fun _ =>
    .bind (.pushSql _) fun _ => ?_
  dsimp only
  split
  · exact .bind (.pushSql _) fun _ => .bind (.pushSql _) fun _ => .bindSpan context _
  · exact .bind (.push _) fun _ => .bind (.pushSql _) fun _ => .bindSpan context _

theorem inCollection_along (origin : Origin n) (collection arg : Expr) :
    Along R (inCollection context origin collection arg) := by
  refine .bind (.attempt _) fun value => ?_
  split
  · split
    · exact .bind (resolveColumn_along context origin _) fun _ => membership_along context _ _
    · exact .reject _
  · exact .reject _

theorem containsCall_along (origin : Origin n) (receiver : Option Expr) (args : List Expr) :
    Along R (containsCall context origin receiver args) := by
  refine .bind (.attempt _) fun arg => ?_
  split
  · exact .bind (resolveColumn_along context origin _) fun _ => like_along context _ _ _ _
  · exact inCollection_along context origin _ _
  · exact inCollection_along context origin _ _
  · exact .reject _

theorem affixCall_along (origin : Origin n) (method : Method) (w : Wildcard)
    (receiver : Option Expr) (args : List Expr) :
    Along R (affixCall context origin method w receiver args) :=
  .bind (memberOperand_along context origin method receiver) fun _ =>
    .bind (.attempt _) fun _ => like_along context _ _ _ _

theorem hasValueCall_along (origin : Origin n) (receiver : Option Expr) (args : List Expr) :
    Along R (hasValueCall context origin receiver args) := by
  unfold hasValueCall
  split
  · exact .reject _
  · exact .bind (memberOperand_along context origin _ receiver) fun _ =>
      .bind (.pushSql _) fun _ => .bind (.push _) fun _ => .pushSql _

theorem existence_along (origin : Origin n) (path : MemberPath)
    (condition : Option (Origin n → Lowering Unit))
    (inner : ∀ x ∈ condition, ∀ origin, Along R (x origin)) :
    Along R (existence context origin path condition) := by
  refine .bind (walk_along context [] path.navigation origin) fun outer => ?_
  dsimp only
  split
  · exact .lacks _
  · split
    · exact .reject _
    · split
      · exact .lacks _
      · refine .bind (.attempt _) fun _ => .bind (.freshAlias context) fun _ =>
          .bind (.freshAlias context) fun _ => ?_
        cases condition with
        | none => exact .bind (.pure _) fun _ => .pushSql _
        | some x =>
          exact .bind (.isolated (inner x rfl _)) fun _ => .bind (.attempt _) fun _ =>
            .bind (.pure _) fun _ => .pushSql _

/-- What holds along every step holds along a predicate, also when it is rejected. -/
theorem predicate_along (e : Expr) (origin : Origin n) :
    Along R (predicate context e origin) := by
  induction e using Expr.inductionOn generalizing origin with
  | binary op left right leftIh rightIh =>
    unfold predicate
    split
    · exact .bind .mark fun _ => .bind (.pushSql _) fun _ => .bind (leftIh origin) fun _ =>
        .bind (.pushSql _) fun _ => .bind (rightIh origin) fun _ => .bind (.pushSql _) fun _ =>
        .collapseBooleans context _
    · exact comparison_along context origin op left right
  | not e ih =>
    unfold predicate
    split
    next write operand =>
      exact .bind (booleanOperand?_along context origin e write operand) fun _ => .push _
    · exact .bind (.pushSql _) fun _ => ih origin
  | convert e ih =>
    unfold predicate
    exact ih origin
  | member path =>
    unfold predicate
    exact .bind (booleanOperand?_along context origin (.member path) _ rfl) fun _ => .push _
  | constant value =>
    unfold predicate
    exact .bind (booleanOperand?_along context origin (.constant value) _ rfl) fun _ => .push _
  | captured name =>
    unfold predicate
    exact .bind (booleanOperand?_along context origin (.captured name) _ rfl) fun _ => .push _
  | call method receiver args ih =>
    cases method with
    | contains =>
      unfold predicate
      exact containsCall_along context origin receiver args
    | startsWith =>
      unfold predicate
      exact affixCall_along context origin _ _ receiver args
    | endsWith =>
      unfold predicate
      exact affixCall_along context origin _ _ receiver args
    | isNullOrEmpty =>
      unfold predicate
      exact .bind (nullOrEmpty_along context origin receiver args) fun _ => .push _
    | hasValue =>
      unfold predicate
      exact hasValueCall_along context origin receiver args
    | any =>
      rcases args with _ | ⟨e, _ | ⟨e', rest⟩⟩ <;> unfold predicate
      · exact .bind (.attempt _) fun path => existence_along context origin path none nofun
      · refine .bind (.attempt _) fun path => existence_along context origin path _ ?_
        rintro _ ⟨⟩
        exact ih e (by simp)
      · exact .bind (.attempt _) fun _ => .reject _
  | modifier m =>
    unfold predicate
    exact .reject _

end Handlers
end PredicateSql
