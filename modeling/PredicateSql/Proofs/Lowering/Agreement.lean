import PredicateSql.Proofs.Condition.Derivation
import PredicateSql.Proofs.Lowering.Growth
import PredicateSql.Proofs.Quoting.Uses

/-!
Runs that agree. They have the same outcome and leave the same progress behind, but for the buffer
after an error, which is thrown away. Predicates whose parts agree wherever they are lowered agree
themselves.
-/
namespace PredicateSql

open Lowering

variable {n : Nat} {α β : Type}

/-- The same outcome and the same progress. After an error the buffers may differ. -/
inductive Agree : Except Error α × Progress → Except Error α × Progress → Prop
  | ok (a t) : Agree (.ok a, t) (.ok a, t)
  | error (e t b) : Agree (.error e, t) (.error e, t.withBuffer b)

namespace Agree

variable {s s' : Progress}

theorem refl (r : Except Error α × Progress) : Agree r r := by
  obtain ⟨e | a, t⟩ := r
  · exact .error e t t.buffer
  · exact .ok a t

theorem bind {x x' : Lowering α} {f f' : α → Lowering β} (first : Agree (x s) (x' s'))
    (second : ∀ a t, x s = (.ok a, t) → Agree (f a t) (f' a t)) :
    Agree ((x >>= f) s) ((x' >>= f') s') := by
  rw [bind_run, bind_run]
  generalize run : x s = r, x' s' = r' at first second
  cases first with
  | ok a t => exact second a t rfl
  | error e t b => exact .error e t b

/-- What agrees after the same steps. -/
theorem after {x : Lowering α} {f f' : α → Lowering β}
    (second : ∀ a t, x s = (.ok a, t) → Agree (f a t) (f' a t)) :
    Agree ((x >>= f) s) ((x >>= f') s) :=
  bind (refl _) second

/-- What is done after runs that agree. -/
theorem before {x x' : Lowering α} {f : α → Lowering β} (first : Agree (x s) (x' s')) :
    Agree ((x >>= f) s) ((x' >>= f) s') :=
  bind first fun _ _ _ => refl _

/-- Runs with buffers of their own. -/
theorem isolated {x x' : Lowering Unit}
    (inner : Agree (x { s with joins := [], buffer := .empty })
      (x' { s with joins := [], buffer := .empty })) :
    Agree (Lowering.isolated x s) (Lowering.isolated x' s) := by
  unfold Lowering.isolated
  generalize x { s with joins := [], buffer := .empty } = r,
    x' { s with joins := [], buffer := .empty } = r' at inner
  cases inner with
  | ok a t => exact .refl _
  | error e t b => exact .error e _ s.buffer

end Agree

/-- Tests for rows agree if the conditions do on those rows, with no enumeration lost. -/
theorem existence_agree {context : LoweringContext n} {origin : Origin n} {path : MemberPath}
    {s : Progress} {x x' : Origin n → Lowering Unit}
    (inner : ∀ j name t, context.schema.rows? origin.entity path = some j →
      s.enums.Grows context.schema t.enums → Agree (x ⟨j, name⟩ t) (x' ⟨j, name⟩ t)) :
    Agree (existence context origin path (some x) s)
      (existence context origin path (some x') s) := by
  refine .after fun outer u walked => ?_
  have grown := (walk_growing context [] path.navigation origin s).enums
  rw [walked] at grown
  dsimp only
  cases found : (context.schema.entity outer.entity).navigationFor? path.property with
  | none => exact .refl _
  | some navigation =>
    have rows : context.schema.rows? origin.entity path = some navigation.target := by
      rw [Schema.rows?, walk_follow walked]
      simp [found]
    dsimp only
    cases many : navigation.many with
    | false => exact .refl _
    | true =>
      cases foreignKey : (context.schema.entity navigation.target).foreignKeyTo?
          (context.schema.entity outer.entity) with
      | none => exact .refl _
      | some fk =>
        refine .after fun key t run => ?_
        obtain ⟨-, rfl⟩ := attempt_ok.mp run
        refine .after fun childAlias t run => ?_
        obtain ⟨-, rfl⟩ := freshAlias_ok.mp run
        refine .after fun ownerAlias t run => ?_
        obtain ⟨-, rfl⟩ := freshAlias_ok.mp run
        exact .before (.isolated (inner _ _ _ rows grown))

/-- The predicates agree wherever they are about rows of the entity, with all enumerations of `r`
registered. -/
def AgreeFrom (context : LoweringContext n) (r : EnumRegistry) (i : Fin n) (e e' : Expr) : Prop :=
  ∀ origin s, origin.entity = i → r.Grows context.schema s.enums →
    Agree (predicate context e origin s) (predicate context e' origin s)

namespace AgreeFrom

variable {context : LoweringContext n} {r : EnumRegistry} {i j : Fin n}
  {e e' left left' right right' : Expr} {op : BinaryOp}

theorem refl (e : Expr) : AgreeFrom context r i e e :=
  fun _ _ _ _ => .refl _

theorem convert (inner : AgreeFrom context r i e e') :
    AgreeFrom context r i (.convert e) (.convert e') := by
  intro origin s entity known
  rw [predicate_convert, predicate_convert]
  exact inner origin s entity known

theorem not (plain : ∀ origin : Origin n, booleanOperand? context origin e = none)
    (plain' : ∀ origin : Origin n, booleanOperand? context origin e' = none)
    (inner : AgreeFrom context r i e e') :
    AgreeFrom context r i (.not e) (.not e') := by
  intro origin s entity known
  simp only [predicate, plain, plain']
  refine .after fun _ t run => ?_
  obtain rfl := pushSql_ok.mp run
  exact inner origin _ entity known

theorem logical (connective : op.isLogical = true) (first : AgreeFrom context r i left left')
    (second : AgreeFrom context r i right right') :
    AgreeFrom context r i (.binary op left right) (.binary op left' right') := by
  intro origin s entity known
  simp only [predicate, connective, if_true]
  refine .after fun start t run => ?_
  obtain ⟨-, rfl⟩ := mark_ok.mp run
  refine .after fun _ t run => ?_
  obtain rfl := pushSql_ok.mp run
  refine .bind (first origin _ entity known) fun _ t run => ?_
  have grown := predicate_growing context left origin (s.write [.sql "("])
  rw [run] at grown
  refine .after fun _ u run => ?_
  obtain rfl := pushSql_ok.mp run
  exact .before (second origin _ entity (known.trans grown.enums))

/-- A subquery whose conditions agree on its rows. -/
theorem anyWhere {receiver : Option Expr} {path : MemberPath}
    (collection : receiver.map Expr.strip = some (.member path))
    (rows : context.schema.rows? i path = some j) (inner : AgreeFrom context r j e e') :
    AgreeFrom context r i (.call .any receiver [e]) (.call .any receiver [e']) := by
  intro origin s entity known
  simp only [predicate]
  refine .after fun path' t run => ?_
  obtain ⟨found, rfl⟩ := attempt_ok.mp run
  obtain rfl : path' = path := Except.ok.inj (found.symm.trans (anyPath_ok.mpr collection))
  exact existence_agree fun j name t rows' grown =>
    inner _ t (Option.some.inj (rows'.symm.trans (entity ▸ rows)))
    (known.trans grown)

end AgreeFrom
end PredicateSql
