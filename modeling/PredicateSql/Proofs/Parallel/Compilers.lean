import PredicateSql.Proofs.Parallel.Predicates

/-!
Two compilations side by side, call by call. They may be in two dialects, and the calls of one may
have constants where those of the other have names.
-/
namespace PredicateSql

variable {n : Nat} {α α' : Type} (shared : Shared)

inductive OrderBy.Alike (o : OrderBy) : OrderBy → Prop
  | rewritten {column} (same : shared.texts → column = o.column) :
      Alike o { o with column := column }

/-- The compilers have come equally far in the same work, the second in the dialect `d`. -/
structure Compiler.Alike (d : Dialect) (c c' : Compiler n) : Prop where
  input : c'.input = { c.input with dialect := d }
  joins : List.Forall₂ (JoinClause.Alike shared) c.joins c'.joins
  fragments : List.Forall₂ (fun text text' => shared.texts → text' = text) c.fragments c'.fragments
  orderBy : Option.Rel (OrderBy.Alike shared) c.orderBy c'.orderBy
  skip : c'.skip = c.skip
  take : c'.take = c.take
  issued : c'.issued = c.issued
  enums : c'.registry.enums = c.registry.enums
  columns : c'.registry.columns = c.registry.columns

variable {shared} {d : Dialect} {c c' : Compiler n}

namespace Compiler.Alike

theorem refl (c : Compiler n) : c.Alike shared c.input.dialect c where
  input := rfl
  joins := List.forall₂_same.mpr fun _ _ => .refl _
  fragments := List.forall₂_same.mpr fun _ _ _ => rfl
  orderBy := by
    cases c.orderBy with
    | none => exact .none
    | some o => exact .some (.rewritten fun _ => rfl)
  skip := rfl
  take := rfl
  issued := rfl
  enums := rfl
  columns := rfl

/-- Compilers that share their texts differ in the dialect only. -/
theorem eq (alike : c.Alike shared d c') (texts : shared.texts) :
    c' = { c with input := { c.input with dialect := d } } := by
  have joins := eq_of_forall₂ alike.joins fun _ _ joins => joins.eq texts
  have fragments := eq_of_forall₂ alike.fragments fun _ _ same => same texts
  have orderBy : c'.orderBy = c.orderBy := by
    have orders := alike.orderBy
    generalize c.orderBy = o, c'.orderBy = o' at orders
    rcases orders with ⟨⟨same⟩⟩ | -
    · rw [same texts]
    · rfl
  have registry : c'.registry = c.registry := by
    rcases eta : c.registry with ⟨columns, enums⟩
    rcases eta' : c'.registry with ⟨columns', enums'⟩
    have same := alike.columns
    have same' := alike.enums
    simp only [eta, eta'] at same same'
    rw [same, same']
  obtain ⟨input, _, _, _, _, _, _, _⟩ := c
  obtain ⟨input', _, _, _, _, _, _, _⟩ := c'
  simp only [mk.injEq]
  exact ⟨alike.input, joins, fragments, orderBy, alike.skip, alike.take, alike.issued, registry⟩

theorem eq_of_dialect (alike : c.Alike shared d c') (texts : shared.texts)
    (same : c.input.dialect = d) :
    c' = c := by
  rw [alike.eq texts, ← same]

theorem unset (alike : c.Alike shared d c') : c'.orderBy = none ↔ c.orderBy = none := by
  have orders := alike.orderBy
  generalize c.orderBy = o, c'.orderBy = o' at orders
  rcases orders with ⟨-⟩ | - <;> simp

/-- Paths start from the same rows, which go by the name of the table in each dialect. -/
theorem origin (alike : c.Alike shared d c')
    (spelled : shared.texts → c.input.dialect.SpellsLike d) :
    c.origin.Alike shared c'.origin := by
  have kept : c'.origin = ⟨c.input.root,
      d.tableName (c.input.schema.entity c.input.root).table⟩ := by
    rw [Compiler.origin, alike.input]
  rw [kept]
  exact .renamed fun texts => congrFun (spelled texts).tableName _

theorem context (alike : c.Alike shared d c') (b b' : Bindings) :
    c'.context b' = (c.context b).retold d b' := by
  rw [Compiler.context, alike.input]
  rfl

end Compiler.Alike

namespace Compiler

theorem run_alike {R : α → α' → Prop} {x : Lowering α} {x' : Lowering α'}
    (parallel : Parallel shared R x x') (alike : c.Alike shared d c') :
    OutcomesAlike shared R (c.run x).1 (c'.run x').1 ∧
      (c.run x).2.Alike shared d (c'.run x').2 := by
  obtain ⟨after, outcome⟩ :=
    parallel c.progress c'.progress ⟨alike.joins, .nil, alike.issued, alike.enums⟩
  have length := alike.joins.length_eq
  simp only [progress] at after outcome
  simp only [run]
  generalize x _ = r, x' _ = r' at after outcome
  obtain ⟨result, t⟩ := r
  obtain ⟨result', t'⟩ := r'
  refine ⟨outcome, ⟨alike.input, ?_, alike.fragments, alike.orderBy, alike.skip, alike.take,
    after.issued, after.enums, alike.columns⟩⟩
  cases outcome with
  | ok => exact after.joins
  | error => simpa only [length] using List.forall₂_take c.joins.length after.joins

variable (spelled : shared.texts → c.input.dialect.SpellsLike d)
include spelled

theorem order_alike (alike : c.Alike shared d c') (path : MemberPath) (descending : Bool) :
    OutcomesAlike shared Eq (c.order path descending).1 (c'.order path descending).1 ∧
      (c.order path descending).2.Alike shared d (c'.order path descending).2 := by
  by_cases set : c.orderBy = none
  · have resolved :
        Parallel shared (ColumnRef.Alike shared) (resolveColumn (c.context .empty) c.origin path)
        (resolveColumn (c'.context .empty) c'.origin path) := by
      rw [alike.context .empty .empty]
      exact resolveColumn_parallel spelled (alike.origin spelled) path
    obtain ⟨outcome, after⟩ := run_alike resolved alike
    have kept : (c.run (resolveColumn (c.context .empty) c.origin path)).2.input = c.input := rfl
    simp only [order, set, alike.unset.mpr set]
    generalize c.run _ = r, c'.run _ = r' at outcome after kept
    obtain ⟨result, c₁⟩ := r
    obtain ⟨result', c₁'⟩ := r'
    cases outcome with
    | ok column =>
      refine ⟨.ok rfl, { after with orderBy := .some (.rewritten ?_) }⟩
      rw [after.input]
      exact column.render (kept ▸ spelled)
    | error same => exact ⟨.error same, after⟩
  · rw [order_of_set set, order_of_set (mt alike.unset.mp set)]
    exact ⟨.ok rfl, alike⟩

/-- A call with the same meaning has the same outcome, up to what is shared, and leaves the
compilers alike. -/
theorem add_alike (alike : c.Alike shared d c') {b b' : Bindings} {e e' : Expr}
    (h : e.Alike shared b b' e') :
    OutcomesAlike shared Eq (c.add b e).1 (c'.add b' e').1 ∧
      (c.add b e).2.Alike shared d (c'.add b' e').2 := by
  by_cases predicate : ∀ m, e ≠ .modifier m
  · have predicate' : ∀ m, e' ≠ .modifier m := by
      rintro m rfl
      cases h
      exact predicate m rfl
    have lowered : Parallel shared (fun text text' => shared.texts → text' = text)
        (predicateText (c.context b) c.origin e) (predicateText (c'.context b') c'.origin e') := by
      rw [alike.context b b']
      refine .seq (predicate_parallel spelled h (alike.origin spelled)) fun s s' progress => ?_
      exact ⟨progress, Token.renderAll_alike spelled progress.pieces⟩
    obtain ⟨outcome, after⟩ := run_alike lowered alike
    rw [add_predicate c b predicate, add_predicate c' b' predicate']
    generalize c.run _ = r, c'.run _ = r' at outcome after
    obtain ⟨result, c₁⟩ := r
    obtain ⟨result', c₁'⟩ := r'
    cases outcome with
    | ok text =>
      have written : shared.texts → parenthesize _ = parenthesize _ :=
        fun texts => congrArg _ (text texts)
      have fragments := List.rel_append after.fragments (.cons written .nil)
      exact ⟨.ok rfl, { after with fragments }⟩
    | error same => exact ⟨.error same, after⟩
  · obtain ⟨m, rfl⟩ : ∃ m, e = .modifier m := by simpa using predicate
    cases h
    cases m with
    | orderBy path => exact order_alike spelled alike path false
    | orderByDescending path => exact order_alike spelled alike path true
    | skip count =>
      have skip : some (c'.skip.getD count) = some (c.skip.getD count) := by rw [alike.skip]
      exact ⟨.ok rfl, { alike with skip }⟩
    | take count =>
      have take : some (c'.take.getD count) = some (c.take.getD count) := by rw [alike.take]
      exact ⟨.ok rfl, { alike with take }⟩

def SameMeanings (shared : Shared) (calls calls' : List Call) : Prop :=
  List.Forall₂ (fun call call' => call.expr.Alike shared call.bindings call'.bindings call'.expr)
    calls calls'

omit spelled in
theorem SameMeanings.refl (calls : List Call) : SameMeanings shared calls calls :=
  List.forall₂_same.mpr fun _ _ => Expr.alike_of_agree fun _ _ => rfl

/-- The outcomes of some calls, in order. -/
def outcomes (c : Compiler n) : List Call → List (Except Error Unit)
  | [] => []
  | call :: rest =>
    let (outcome, c) := c.add call.bindings call.expr
    outcome :: c.outcomes rest

/-- Calls with the same meanings, one after the other, have the same outcomes, up to what is
shared. -/
theorem after_alike (alike : c.Alike shared d c') {calls calls' : List Call}
    (same : SameMeanings shared calls calls') :
    List.Forall₂ (OutcomesAlike shared Eq) (c.outcomes calls) (c'.outcomes calls') ∧
      (c.after calls).Alike shared d (c'.after calls') := by
  induction same generalizing c c' with
  | nil => exact ⟨.nil, alike⟩
  | @cons call call' rest rest' first _ ih =>
    obtain ⟨outcome, next⟩ := add_alike spelled alike first
    have kept := c.add_input call.bindings call.expr
    obtain ⟨outcomes, last⟩ := ih (kept ▸ spelled) next
    exact ⟨.cons outcome outcomes, last⟩

end Compiler
end PredicateSql
