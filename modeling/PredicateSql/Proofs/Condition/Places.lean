import PredicateSql.Proofs.Condition.Derivation

/-!
Places inside predicates where a predicate stands. What is derived for a predicate with something at
a place is what is derived for that thing in the scope of the place, and the rest of the condition
does not depend on it.
-/
namespace PredicateSql

open Lowering

variable {n : Nat}

/-- The expression is written with a test, into which a negation is taken up. -/
def Expr.isBoolean (e : Expr) : Bool :=
  match e.strip with
  | .member _ | .constant _ | .captured _ | .call .isNullOrEmpty _ _ => true
  | _ => false

/-- A predicate with one part left out. -/
inductive Place where
  | here
  | left (op : BinaryOp) (connective : op.isLogical = true) (place : Place) (other : Expr)
  | right (op : BinaryOp) (connective : op.isLogical = true) (other : Expr) (place : Place)
  | not (place : Place)
  | convert (place : Place)
  | any (receiver : Option Expr) (place : Place)

namespace Place

/-- The predicate with `e` at the place. -/
def plug : Place → Expr → Expr
  | here, e => e
  | left op _ place other, e => .binary op (place.plug e) other
  | right op _ other place, e => .binary op other (place.plug e)
  | not place, e => .not (place.plug e)
  | convert place, e => .convert (place.plug e)
  | any receiver place, e => .call .any receiver [place.plug e]

/-- No negation is taken up by `e` at the place. -/
def Takes : Place → Expr → Prop
  | here, _ => True
  | left _ _ place _, e | right _ _ _ place, e | convert place, e | any _ place, e => place.Takes e
  | not place, e => (place.plug e).isBoolean = false ∧ place.Takes e

end Place

/-- A condition with one part left out. -/
inductive Surrounding (n : Nat) where
  | here
  | left (op : BinaryOp) (inner : Surrounding n) (other : Condition n)
  | right (op : BinaryOp) (other : Condition n) (inner : Surrounding n)
  | not (inner : Surrounding n)
  | anyWhere (rows : Subquery n) (joins : List JoinClause) (inner : Surrounding n)

/-- The condition with `k` as the part left out. -/
def Surrounding.fill : Surrounding n → Condition n → Condition n
  | here, k => k
  | left op inner other, k => .logical op (inner.fill k) other
  | right op other inner, k => .logical op other (inner.fill k)
  | not inner, k => .not (inner.fill k)
  | anyWhere rows joins inner, k => .anyWhere rows joins (inner.fill k)

/-- `Surrounds context p f origin s origin' u v t` says what is derived around the place `p`. From
the rows of `origin` and the joins, aliases and enumerations of `s` it leads to the rows of
`origin'` and those of `u`. If what stands at the place goes on with those of `v`, the rest of the
predicate goes on with those of `t`, and the condition is the surrounding `f` of the one at the
place. -/
inductive Surrounds (context : LoweringContext n) : Place → Surrounding n →
    Origin n → Progress → Origin n → Progress → Progress → Progress → Prop
  | here {origin u v} : Surrounds context .here .here origin u origin u v v
  | left {p f origin s origin' u v w t op connective right r}
      (around : Surrounds context p f origin s origin' u v w)
      (second : Lowers context origin right w r t) :
      Surrounds context (.left op connective p right) (.left op f r) origin s origin' u v t
  | right {p f origin s origin' u v w t op connective left l}
      (first : Lowers context origin left s l w)
      (around : Surrounds context p f origin w origin' u v t) :
      Surrounds context (.right op connective left p) (.right op l f) origin s origin' u v t
  | not {p f origin s origin' u v t} (around : Surrounds context p f origin s origin' u v t) :
      Surrounds context (.not p) (.not f) origin s origin' u v t
  | convert {p f origin s origin' u v t} (around : Surrounds context p f origin s origin' u v t) :
      Surrounds context (.convert p) f origin s origin' u v t
  | any {p f origin s origin' u v w x receiver path q}
      (collection : receiver.map Expr.strip = some (.member path))
      (rows : subquery context origin path s = (.ok q, w))
      (around : Surrounds context p f q.child { w with joins := [] } origin' u v x) :
      Surrounds context (.any receiver p) (.anyWhere q x.joins f) origin s origin' u v
        { x with joins := w.joins }

section Plugged

variable {context : LoweringContext n} {origin : Origin n} {e : Expr} {s t : Progress}
  {k : Condition n} {p : Place}

theorem readBoolean?_strip (context : LoweringContext n) (origin : Origin n) (e : Expr) :
    readBoolean? context origin e.strip = readBoolean? context origin e := by
  fun_induction Expr.strip e with
  | case1 e ih => exact ih
  | case2 => rfl

theorem readBoolean?_eq_none : readBoolean? context origin e = none ↔ e.isBoolean = false := by
  rw [← readBoolean?_strip, Expr.isBoolean]
  have plain := e.strip_ne_convert
  generalize e.strip = e at plain ⊢
  cases e with
  | convert e' => exact absurd rfl (plain e')
  | call method receiver args => cases method <;> simp [readBoolean?]
  | _ => simp [readBoolean?]

/-- What takes up no negation can stand anywhere. -/
theorem Place.takes_of_compound (compound : e.isBoolean = false) : p.Takes e := by
  have below (p : Place) : (p.plug e).isBoolean = false := by
    induction p with
    | here => exact compound
    | convert p ih => exact ih
    | _ => rfl
  induction p with
  | here => trivial
  | not p ih => exact ⟨below p, ih⟩
  | _ => assumption

/-- Around what is derived at a place, the rest is derived. -/
theorem Surrounds.lowers {f : Surrounding n} {origin' : Origin n} {u v : Progress}
    (around : Surrounds context p f origin s origin' u v t) (takes : p.Takes e)
    (inner : Lowers context origin' e u k v) : Lowers context origin (p.plug e) s (f.fill k) t := by
  induction around with
  | here => exact inner
  | @left _ _ _ _ _ _ _ _ _ _ connective _ _ _ second ih =>
    exact .logical connective (ih takes inner) second
  | @right _ _ _ _ _ _ _ _ _ _ connective _ _ first _ ih =>
    exact .logical connective first (ih takes inner)
  | not _ ih => exact .not (readBoolean?_eq_none.mpr takes.1) (ih takes.2 inner)
  | convert _ ih => exact .convert (ih takes inner)
  | any collection rows _ ih => exact .anyWhere collection rows (ih takes inner)

/-- What is derived for a predicate is a surrounding of what is derived at the place. -/
theorem Lowers.surrounds (takes : p.Takes e) (h : Lowers context origin (p.plug e) s k t) :
    ∃ f origin' u v k', Surrounds context p f origin s origin' u v t ∧
      Lowers context origin' e u k' v ∧ f.fill k' = k := by
  induction p generalizing origin s t k with
  | here => exact ⟨.here, origin, s, t, k, .here, h, rfl⟩
  | left op connective p right ih =>
    cases h with
    | logical _ first second =>
      obtain ⟨f, origin', u, v, k', around, inner, rfl⟩ := ih takes first
      exact ⟨_, origin', u, v, k', .left around second, inner, rfl⟩
    | comparison comparator | nullTest comparator =>
      rw [connective] at comparator
      cases comparator
    | truth _ boolean => cases boolean
  | right op connective left p ih =>
    cases h with
    | logical _ first second =>
      obtain ⟨f, origin', u, v, k', around, inner, rfl⟩ := ih takes second
      exact ⟨_, origin', u, v, k', .right first around, inner, rfl⟩
    | comparison comparator | nullTest comparator =>
      rw [connective] at comparator
      cases comparator
    | truth _ boolean => cases boolean
  | not p ih =>
    have compound : readBoolean? context origin (p.plug e) = none :=
      readBoolean?_eq_none.mpr takes.1
    cases h with
    | not _ negated =>
      obtain ⟨f, origin', u, v, k', around, inner, rfl⟩ := ih takes.2 negated
      exact ⟨_, origin', u, v, k', .not around, inner, rfl⟩
    | inverted boolean =>
      rw [compound] at boolean
      cases boolean
    | truth _ boolean => cases boolean
  | convert p ih =>
    cases h with
    | convert converted =>
      obtain ⟨f, origin', u, v, k', around, inner, rfl⟩ := ih takes converted
      exact ⟨_, origin', u, v, k', .convert around, inner, rfl⟩
    | truth plain => exact absurd plain (Expr.strip_ne_convert _ _)
  | any receiver p ih =>
    cases h with
    | anyWhere collection rows condition =>
      obtain ⟨f, origin', u, v, k', around, inner, rfl⟩ := ih takes condition
      exact ⟨_, origin', u, v, k', .any collection rows around, inner, rfl⟩
    | truth _ boolean => cases boolean
    | like opening => cases opening

end Plugged

section Unique

variable {context : LoweringContext n} {origin : Origin n} {e : Expr} {s t t' : Progress}
  {k k' : Condition n}

/-- What an expression leaves behind is determined by where it starts. -/
theorem Lowers.progress_unique (h : Lowers context origin e s k t)
    (h' : Lowers context origin e s k' t') : t = t' := by
  have run := (predicate_ok context).mpr ⟨k, t, h, rfl⟩
  have run' := (predicate_ok context).mpr ⟨k', t', h', rfl⟩
  have written := congrArg Prod.snd (run.symm.trans run')
  have buffers : t.buffer = t'.buffer := h.buffer_eq.trans h'.buffer_eq.symm
  obtain ⟨joins, buffer, issued, enums⟩ := t
  obtain ⟨joins', buffer', issued', enums'⟩ := t'
  simp only [Progress.write, Progress.withBuffer, Progress.mk.injEq] at written buffers
  simp [written, buffers]

/-- The scope of a place is determined by where the predicate starts. -/
theorem Surrounds.scope_unique {p : Place} {f f' : Surrounding n} {o o' : Origin n}
    {u u' v v' : Progress} (h : Surrounds context p f origin s o u v t)
    (h' : Surrounds context p f' origin s o' u' v' t') : o = o' ∧ u = u' := by
  induction h generalizing f' t' with
  | here =>
    cases h'
    exact ⟨rfl, rfl⟩
  | left around _ ih =>
    cases h' with
    | left around' => exact ih around'
  | right first _ ih =>
    cases h' with
    | right first' around' =>
      obtain rfl := first.progress_unique first'
      exact ih around'
  | not _ ih =>
    cases h' with
    | not around' => exact ih around'
  | convert _ ih =>
    cases h' with
    | convert around' => exact ih around'
  | any collection rows _ ih =>
    cases h' with
    | any collection' rows' around' =>
      cases collection.symm.trans collection'
      cases rows.symm.trans rows'
      exact ih around'

/-- Surroundings of one place have the same part left out. -/
theorem Surrounds.fill_inj {p : Place} {f f' : Surrounding n} {origin' o o' : Origin n}
    {s' u u' v v' : Progress} (h : Surrounds context p f origin s o u v t)
    (h' : Surrounds context p f' origin' s' o' u' v' t')
    (same : f.fill k = f'.fill k') : k = k' := by
  induction h generalizing f' origin' s' t' with
  | here =>
    cases h'
    exact same
  | left _ _ ih =>
    cases h' with
    | left around' => exact ih around' (Condition.logical.inj same).2.1
  | right _ _ ih =>
    cases h' with
    | right _ around' => exact ih around' (Condition.logical.inj same).2.2
  | not _ ih =>
    cases h' with
    | not around' => exact ih around' (Condition.not.inj same)
  | convert _ ih =>
    cases h' with
    | convert around' => exact ih around' same
  | any _ _ _ ih =>
    cases h' with
    | any _ _ around' => exact ih around' (Condition.anyWhere.inj same).2.2

end Unique
end PredicateSql
