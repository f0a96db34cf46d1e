import PredicateSql.Proofs.Lowering.Growth

/-!
Lowering behind other pieces. What a lowering writes stands at the end of the buffer, and of what
stands there it changes only what is behind a mark that it took itself. So it runs behind any pieces
as it runs without them, also where it fails.
-/
namespace PredicateSql

variable {n : Nat} {α β : Type}

def Progress.behind (s : Progress) (ts : List Token) : Progress :=
  s.withBuffer ⟨ts ++ s.buffer.tokens⟩

/-- The lowering runs behind other pieces as it runs without them, and leaves those pieces as they
are. -/
def Appending (x : Lowering α) : Prop :=
  ∀ s ts, x (s.behind ts) = ((x s).1, (x s).2.behind ts)

/-- The same for a lowering that goes back to a mark, which is further on behind other pieces. -/
def AppendingFrom (x : Nat → Lowering α) : Prop :=
  ∀ start s ts, x (ts.length + start) (s.behind ts) = ((x start s).1, (x start s).2.behind ts)

namespace AppendingFrom

theorem of_appending {x : Lowering α} (h : Appending x) : AppendingFrom fun _ => x :=
  fun _ => h

theorem bind {x : Nat → Lowering α} {f : α → Nat → Lowering β} (first : AppendingFrom x)
    (second : ∀ a, AppendingFrom (f a)) :
    AppendingFrom fun start => x start >>= fun a => f a start := by
  intro start s ts
  dsimp only
  rw [Lowering.bind_run, Lowering.bind_run, first start s ts]
  rcases x start s with ⟨e | a, t⟩
  · rfl
  · exact second a start t ts

/-- Steps that do not go back to the mark. -/
theorem seq {x : Lowering α} {f : α → Nat → Lowering β} (first : Appending x)
    (second : ∀ a, AppendingFrom (f a)) : AppendingFrom fun start => x >>= fun a => f a start :=
  (of_appending first).bind second

theorem bindSpan (context : LoweringContext n) : AppendingFrom (Lowering.bindSpan context) := by
  intro start s ts
  simp [Lowering.bindSpan, TokenBuffer.bindSpan, Progress.behind, Progress.withBuffer,
    List.drop_length_add_append, List.take_length_add_append]

theorem collapseBooleans (context : LoweringContext n) :
    AppendingFrom (Lowering.collapseBooleans context) := by
  intro start s ts
  simp [Lowering.collapseBooleans, TokenBuffer.collapseBooleans, Progress.behind,
    Progress.withBuffer, List.drop_length_add_append, List.take_length_add_append]

end AppendingFrom

namespace Appending

theorem bind {x : Lowering α} {f : α → Lowering β} (first : Appending x)
    (second : ∀ a, Appending (f a)) :
    Appending (x >>= f) :=
  (AppendingFrom.of_appending first).bind (fun a => .of_appending (second a)) 0

/-- A mark is taken and gone back to. -/
theorem marked {f : Nat → Lowering α} (h : AppendingFrom f) : Appending (Lowering.mark >>= f) := by
  intro s ts
  rw [Lowering.bind_run, Lowering.bind_run]
  have moved : (s.behind ts).buffer.mark = ts.length + s.buffer.mark := by
    simp [Progress.behind, TokenBuffer.mark]
  change f (s.behind ts).buffer.mark (s.behind ts) = _
  rw [moved]
  exact h s.buffer.mark s ts

/-- What does not look at the buffer leaves it as it is. -/
theorem of_silent {x : Lowering α} (silent : Silent x) : Appending x := by
  intro s ts
  have own := silent s s.buffer
  rw [Progress.withBuffer_self] at own
  have kept : (x s).2.buffer = s.buffer := by
    rw [own]
    rfl
  rw [Progress.behind, silent s, Progress.behind, kept]

theorem pure (a : α) : Appending (pure a : Lowering α) := .of_silent (.pure a)

theorem attempt (outcome : Except Error α) : Appending (Lowering.attempt outcome) :=
  .of_silent (.attempt outcome)

theorem reject (cause : Unsupported) : Appending (Lowering.reject cause : Lowering α) :=
  .of_silent (.reject cause)

theorem lacks (cause : MissingMetadata) : Appending (Lowering.lacks cause : Lowering α) :=
  .of_silent (.lacks cause)

theorem freshAlias (context : LoweringContext n) : Appending (Lowering.freshAlias context) :=
  .of_silent (.freshAlias context)

theorem push (t : Token) : Appending (Lowering.push t) := by
  intro s ts
  simp [Lowering.push, Progress.behind, Progress.withBuffer, TokenBuffer.push]

theorem pushSql (text : String) : Appending (Lowering.pushSql text) := .push _

/-- A lowering with a buffer of its own does not see the outer one. -/
theorem isolated (x : Lowering Unit) : Appending (Lowering.isolated x) := fun _ _ => rfl

end Appending

section Handlers

open Lowering

variable (context : LoweringContext n) (origin : Origin n)

theorem resolveColumn_appending (path : MemberPath) :
    Appending (resolveColumn context origin path) :=
  .of_silent (resolveColumn_silent context origin path)

theorem memberOperand_appending (method : Method) (receiver : Option Expr) :
    Appending (memberOperand context origin method receiver) :=
  .of_silent (memberOperand_silent context origin method receiver)

theorem nullOrEmpty_appending (receiver : Option Expr) (args : List Expr) :
    Appending (nullOrEmpty context origin receiver args) := by
  have written (e : Expr) : Appending (do
      let column ← memberOperand context origin .isNullOrEmpty (some e)
      pushSql "(CASE WHEN "
      push (.column column)
      pushSql " IS NULL OR "
      push (.column column)
      pushSql (" = '' THEN " ++ context.dialect.boolLiteral true ++ " ELSE " ++
        context.dialect.boolLiteral false ++ " END)")) :=
    .bind (memberOperand_appending context origin _ _) fun _ => .bind (.pushSql _) fun _ =>
      .bind (.push _) fun _ => .bind (.pushSql _) fun _ => .bind (.push _) fun _ => .pushSql _
  unfold nullOrEmpty
  split
  · exact .bind (.pure _) written
  · exact .bind (.pure _) written
  · exact .bind (.reject _) written

theorem booleanValue_appending (e : Expr) : Appending (booleanValue context e) := by
  refine .bind (.attempt _) fun value => ?_
  split
  · exact .push _
  · exact .reject _

theorem booleanOperand?_appending (e : Expr) :
    ∀ write ∈ booleanOperand? context origin e, Appending write := by
  fun_induction booleanOperand? context origin e with
  | case1 e ih => exact ih
  | case2 path =>
    rintro _ ⟨⟩
    refine .bind (resolveColumn_appending context origin path) fun column => ?_
    split
    · exact .push _
    · exact .reject _
  | case3 value =>
    rintro _ ⟨⟩
    exact booleanValue_appending context _
  | case4 name =>
    rintro _ ⟨⟩
    exact booleanValue_appending context _
  | case5 receiver args =>
    rintro _ ⟨⟩
    exact nullOrEmpty_appending context origin receiver args
  | case6 e => rintro _ ⟨⟩

theorem operand_appending (e : Expr) : Appending (operand context origin e) := by
  fun_induction operand context origin e with
  | case1 e ih => exact ih
  | case2 path => exact .bind (resolveColumn_appending context origin path) fun _ => .push _
  | case3 value => exact .push _
  | case4 name => exact .bind (.attempt _) fun _ => .push _
  | case5 receiver args => exact nullOrEmpty_appending context origin receiver args
  | case6 e => exact .reject _

theorem comparison_appending (op : BinaryOp) (left right : Expr) :
    Appending (comparison context origin op left right) := by
  have close : AppendingFrom fun start => (do
      pushSql ")"
      bindSpan context start
      collapseBooleans context start : Lowering Unit) :=
    .seq (.pushSql _) fun _ => .bind (.bindSpan context) fun _ => .collapseBooleans context
  have read := operand_appending context origin
  refine .marked (.seq (.pushSql _) fun _ => .seq (.attempt _) fun tested => ?_)
  rcases tested with _ | ⟨test, e⟩
  · exact .seq (read left) fun _ => .seq (.pushSql _) fun _ => .seq (read right) fun _ => close
  · exact .seq (read e) fun _ => .seq (.pushSql _) fun _ => close

theorem like_appending (method : Method) (column : ColumnRef) (pattern : Expr) (w : Wildcard) :
    Appending (like context method column pattern w) := by
  unfold like
  split
  · exact .reject _
  · exact .bind (.attempt _) fun _ => .marked (.seq (.pushSql _) fun _ => .seq (.push _) fun _ =>
      .seq (.pushSql _) fun _ => .seq (.push _) fun _ => .seq (.pushSql _) fun _ =>
        .bindSpan context)

theorem membership_appending (column : ColumnRef) (items : List Value) :
    Appending (membership context column items) := by
  refine .marked (.seq (.pushSql _) fun _ => .seq (.push _) fun _ => .seq (.pushSql _) fun _ => ?_)
  dsimp only
  split
  · exact .seq (.pushSql _) fun _ => .seq (.pushSql _) fun _ => .bindSpan context
  · exact .seq (.push _) fun _ => .seq (.pushSql _) fun _ => .bindSpan context

theorem inCollection_appending (collection arg : Expr) :
    Appending (inCollection context origin collection arg) := by
  refine .bind (.attempt _) fun value => ?_
  split
  · split
    · exact .bind (resolveColumn_appending context origin _) fun _ =>
        membership_appending context _ _
    · exact .reject _
  · exact .reject _

theorem containsCall_appending (receiver : Option Expr) (args : List Expr) :
    Appending (containsCall context origin receiver args) := by
  refine .bind (.attempt _) fun arg => ?_
  split
  · exact .bind (resolveColumn_appending context origin _) fun _ => like_appending context _ _ _ _
  · exact inCollection_appending context origin _ _
  · exact inCollection_appending context origin _ _
  · exact .reject _

theorem affixCall_appending (method : Method) (w : Wildcard) (receiver : Option Expr)
    (args : List Expr) :
    Appending (affixCall context origin method w receiver args) :=
  .bind (memberOperand_appending context origin method receiver) fun _ =>
    .bind (.attempt _) fun _ => like_appending context _ _ _ _

theorem hasValueCall_appending (receiver : Option Expr) (args : List Expr) :
    Appending (hasValueCall context origin receiver args) := by
  unfold hasValueCall
  split
  · exact .reject _
  · exact .bind (memberOperand_appending context origin _ receiver) fun _ =>
      .bind (.pushSql _) fun _ => .bind (.push _) fun _ => .pushSql _

/-- The condition of a subquery has a buffer of its own, whatever it writes there. -/
theorem existence_appending (path : MemberPath) (condition : Option (Origin n → Lowering Unit)) :
    Appending (existence context origin path condition) := by
  refine .bind (.of_silent (walk_silent context [] path.navigation origin)) fun outer => ?_
  dsimp only
  split
  · exact .lacks _
  · split
    · exact .reject _
    · split
      · exact .lacks _
      · refine .bind (.attempt _) fun _ => .bind (.freshAlias context) fun _ =>
          .bind (.freshAlias context) fun _ => ?_
        cases condition with
        | none => exact .bind (.pure _) fun _ => .pushSql _
        | some x =>
          exact .bind (.isolated _) fun _ => .bind (.attempt _) fun _ =>
            .bind (.pure _) fun _ => .pushSql _

/-- A predicate is lowered behind other pieces as it is lowered without them. -/
theorem predicate_appending (e : Expr) : Appending (predicate context e origin) := by
  induction e using Expr.inductionOn with
  | binary op left right leftIh rightIh =>
    unfold predicate
    split
    · exact .marked (.seq (.pushSql _) fun _ => .seq leftIh fun _ => .seq (.pushSql _) fun _ =>
        .seq rightIh fun _ => .seq (.pushSql _) fun _ => .collapseBooleans context)
    · exact comparison_appending context origin op left right
  | not e ih =>
    unfold predicate
    split
    next write operand =>
      exact .bind (booleanOperand?_appending context origin e write operand) fun _ => .push _
    · exact .bind (.pushSql _) fun _ => ih
  | convert e ih =>
    rw [predicate_convert]
    exact ih
  | member path =>
    unfold predicate
    exact .bind (booleanOperand?_appending context origin (.member path) _ rfl) fun _ => .push _
  | constant value =>
    unfold predicate
    exact .bind (booleanValue_appending context _) fun _ => .push _
  | captured name =>
    unfold predicate
    exact .bind (booleanValue_appending context _) fun _ => .push _
  | call method receiver args ih =>
    cases method with
    | contains =>
      unfold predicate
      exact containsCall_appending context origin receiver args
    | startsWith =>
      unfold predicate
      exact affixCall_appending context origin _ _ receiver args
    | endsWith =>
      unfold predicate
      exact affixCall_appending context origin _ _ receiver args
    | isNullOrEmpty =>
      unfold predicate
      exact .bind (nullOrEmpty_appending context origin receiver args) fun _ => .push _
    | hasValue =>
      unfold predicate
      exact hasValueCall_appending context origin receiver args
    | any =>
      rcases args with _ | ⟨e, _ | ⟨e', rest⟩⟩ <;> unfold predicate
      · exact .bind (.attempt _) fun path => existence_appending context origin path _
      · exact .bind (.attempt _) fun path => existence_appending context origin path _
      · exact .bind (.attempt _) fun _ => .reject _
  | modifier m =>
    unfold predicate
    exact .reject _

end Handlers
end PredicateSql
