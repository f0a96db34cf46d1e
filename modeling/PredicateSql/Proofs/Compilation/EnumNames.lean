import PredicateSql.Proofs.Compilation.Emptiness
import PredicateSql.Proofs.Encryption.MemberTests

/-!
Tests of members that hold names. A literal may be given by ordinals or by the names that they stand
for: what is written are the names, or their ciphertexts, and the translation is the same wherever
the test stands. A literal with anything in it that stands for no name is rejected.
-/
namespace PredicateSql

open Lowering

variable {n : Nat}

/-- The member holds the names of `d`, and of no other enumeration: `d` is registered for it, or it
is declared for it and nothing else can be registered. -/
def Schema.HoldsNames (schema : Schema n) (r : EnumRegistry) (i : Fin n) (path : MemberPath)
    (d : EnumDef) : Prop :=
  ∃ j column, schema.follow i path.navigation = some j ∧
    (schema.entity j).columnFor? path.property = some column ∧
    column.stringify = true ∧
    (r.find? (EnumRegistry.keyOf (schema.entity j) path.property) = some d ∨
      r.find? (EnumRegistry.keyOf (schema.entity j) path.property) = none ∧
      column.enumType = some d ∧
        ∀ d', schema.Annotates (EnumRegistry.keyOf (schema.entity j) path.property) d' → d' = d)

/-- The second expression is the first one with names for ordinals in tests of members that hold the
names. -/
inductive Expr.Respelled (schema : Schema n) (bindings : Bindings) (r : EnumRegistry) :
    Fin n → Expr → Expr → Prop
  | same {i} (e) : Respelled schema bindings r i e e
  | logical {i op left left' right right'} (connective : op.isLogical = true)
      (first : Respelled schema bindings r i left left')
      (second : Respelled schema bindings r i right right') :
      Respelled schema bindings r i (.binary op left right) (.binary op left' right')
  | not {i e e'} (inner : Respelled schema bindings r i e e') :
      Respelled schema bindings r i (.not e) (.not e')
  | convert {i e e'} (inner : Respelled schema bindings r i e e') :
      Respelled schema bindings r i (.convert e) (.convert e')
  | anyWhere {i j receiver path e e'} (collection : receiver.map Expr.strip = some (.member path))
      (rows : schema.rows? i path = some j) (inner : Respelled schema bindings r j e e') :
      Respelled schema bindings r i (.call .any receiver [e]) (.call .any receiver [e'])
  | test {i test member literal literal' path d v v'} (binds : MemberTest.Binds test v)
      (onMember : member.strip = .member path) (holds : schema.HoldsNames r i path d)
      (given : literal.IsLiteral bindings v) (given' : literal'.IsLiteral bindings v')
      (renames : d.Renames v v') :
      Respelled schema bindings r i (test.expr member literal) (test.expr member literal')

section Tests

variable {context : LoweringContext n} {origin : Origin n} {r : EnumRegistry} {i : Fin n}
  {s t u : Progress} {e e' member literal literal' : Expr} {path : MemberPath} {v v' : Value}
  {c : ColumnRef} {key : String} {d : EnumDef} {test : MemberTest}

/-- Wherever the member is resolved, its column has the names. -/
theorem Schema.HoldsNames.resolved (h : context.schema.HoldsNames r i path d)
    (entity : origin.entity = i) (known : r.Grows context.schema s.enums)
    (run : resolveColumn context origin path s = (.ok c, t)) :
    ∃ key, c.stringify = some key ∧ t.enums.find? key = some d := by
  obtain ⟨j, column, leads, declared, stringify, names⟩ := h
  obtain ⟨-, owner, u, column', found, walked, declared', looked, rfl⟩ :=
    (resolveColumn_ok context).mp run
  have followed := walk_follow walked
  rw [entity, leads] at followed
  obtain rfl := Option.some.inj followed
  obtain rfl := Option.some.inj (declared.symm.trans declared')
  have grown := walk_growing context [] path.navigation origin s
  rw [walked] at grown
  have known := known.trans grown.enums
  rw [if_pos stringify] at looked
  obtain ⟨named, after⟩ := enumFor_ok.mp looked
  have held : (u.enums.enumFor (context.schema.entity owner.entity) path.property).1 = some d ∧
      (u.enums.enumFor (context.schema.entity owner.entity) path.property).2.find?
        (EnumRegistry.keyOf (context.schema.entity owner.entity) path.property) = some d := by
    unfold EnumRegistry.enumFor
    cases registered :
      u.enums.find? (EnumRegistry.keyOf (context.schema.entity owner.entity) path.property) with
    | some d' =>
      suffices same : d' = d by simp [registered, same]
      rcases names with before | ⟨before, -, only⟩
      · exact Option.some.inj (registered.symm.trans (known.kept _ _ before))
      · exact only d' (known.added _ _ registered before)
    | none =>
      rcases names with before | ⟨-, own, -⟩
      · cases registered.symm.trans (known.kept _ _ before)
      · simp [registered, declared, own, EnumRegistry.find?_register]
  rw [held.1] at named
  subst named after
  exact ⟨_, rfl, held.2⟩

theorem MemberTest.Binds.renames (binds : test.Binds v) (renames : d.Renames v v') :
    test.Binds v' := by
  cases test with
  | compared op mirrored =>
    exact ⟨binds.1, fun equality => renames.isNull_eq.trans (binds.2 equality)⟩
  | within =>
    obtain ⟨items, rfl, nonempty⟩ := binds
    cases renames with
    | same => exact ⟨items, rfl, nonempty⟩
    | list each =>
      refine ⟨_, rfl, ?_⟩
      rintro rfl
      cases each
      exact nonempty rfl

/-- A test of a member that holds names has the same run for ordinals and for their names. -/
theorem predicate_test_agree (binds : test.Binds v) (onMember : member.strip = .member path)
    (given : literal.IsLiteral context.bindings v) (given' : literal'.IsLiteral context.bindings v')
    (renames : d.Renames v v')
    (holds : ∀ c u, resolveColumn context origin path s = (.ok c, u) →
      ∃ key, c.stringify = some key ∧ u.enums.find? key = some d) :
    Agree (predicate context (test.expr member literal) origin s)
      (predicate context (test.expr member literal') origin s) := by
  have value := (literal_iff context).mpr given
  have value' := (literal_iff context).mpr given'
  have binds' := binds.renames renames
  rcases resolved : resolveColumn context origin path s with ⟨err | c, u⟩
  · obtain ⟨b, run⟩ := predicate_test_of_error binds onMember value resolved
    obtain ⟨b', run'⟩ := predicate_test_of_error binds' onMember value' resolved
    rw [run, run']
    exact .error err (u.withBuffer b) b'
  · obtain ⟨key, stringify, known⟩ := holds c u resolved
    rw [predicate_test_of_ok binds onMember value resolved,
      predicate_test_of_ok binds' onMember value' resolved]
    let binding : BindingContext := ⟨u.enums, context.settings⟩
    have registered : binding.enums.find? key = some d := known
    obtain ⟨outcome, token⟩ :=
      boundToken_agree stringify registered (EnumDef.resolveEnum_renames renames)
    rw [outcome]
    cases result : (boundToken binding c v).1 with
    | error err => exact .error err (u.write _) _
    | ok =>
      rw [token result]
      exact .ok () _

/-- No test that names are put into is a boolean operand. -/
theorem Expr.Respelled.plain (h : e.Respelled context.schema context.bindings r i e') :
    e = e' ∨ ∀ origin : Origin n,
      booleanOperand? context origin e = none ∧ booleanOperand? context origin e' = none := by
  induction h with
  | same => exact .inl rfl
  | convert _ ih =>
    rcases ih with rfl | plain
    · exact .inl rfl
    · exact .inr plain
  | logical => exact .inr fun _ => ⟨rfl, rfl⟩
  | not => exact .inr fun _ => ⟨rfl, rfl⟩
  | anyWhere => exact .inr fun _ => ⟨rfl, rfl⟩
  | @test _ t =>
    refine .inr fun _ => ?_
    rcases t with ⟨op, _ | _⟩ | _ <;> exact ⟨rfl, rfl⟩

/-- Expressions that differ in ordinals and names agree wherever they are lowered. -/
theorem Expr.Respelled.agree (h : e.Respelled context.schema context.bindings r i e') :
    AgreeFrom context r i e e' := by
  induction h with
  | same e => exact .refl e
  | logical connective _ _ first second => exact .logical connective first second
  | not inner ih =>
    rcases inner.plain with rfl | plain
    · exact .refl _
    · exact .not (fun origin => (plain origin).1) (fun origin => (plain origin).2) ih
  | convert _ ih => exact .convert ih
  | anyWhere collection rows _ ih => exact .anyWhere collection rows ih
  | test binds onMember holds given given' renames =>
    intro origin s entity known
    exact predicate_test_agree binds onMember given given' renames fun c u =>
      holds.resolved entity known

theorem Expr.Respelled.eq_of_modifier {bindings : Bindings} {schema : Schema n}
    (h : e.Respelled schema bindings r i e') {m : Modifier}
    (modifier : e = .modifier m ∨ e' = .modifier m) : e = e' := by
  cases h with
  | same => rfl
  | @test _ t =>
    rcases t with ⟨op, _ | _⟩ | _ <;> rcases modifier with impossible | impossible <;>
      cases impossible
  | _ => rcases modifier with impossible | impossible <;> cases impossible

end Tests

/-- A compiler goes on in the same way after runs that agree. -/
theorem Compiler.run_agree {α : Type} {c : Compiler n} {x x' : Lowering α}
    (agree : Agree (x c.progress) (x' c.progress)) : c.run x = c.run x' := by
  change Agree (x ⟨c.joins, .empty, c.issued, c.registry.enums⟩)
    (x' ⟨c.joins, .empty, c.issued, c.registry.enums⟩) at agree
  unfold Compiler.run
  generalize x _ = result, x' _ = result' at agree
  cases agree <;> rfl

/-- A call with names in place of ordinals has the same outcome and the same effect. -/
theorem Compiler.add_respelled {c : Compiler n} {bindings : Bindings} {e e' : Expr}
    (h : e.Respelled c.input.schema bindings c.registry.enums c.input.root e') :
    c.add bindings e = c.add bindings e' := by
  by_cases modifier : ∃ m, e = .modifier m ∨ e' = .modifier m
  · obtain ⟨m, modifier⟩ := modifier
    rw [h.eq_of_modifier modifier]
  · have agree : AgreeFrom (c.context bindings) c.registry.enums c.input.root e e' :=
      Expr.Respelled.agree h
    have same : c.run (predicateText (c.context bindings) c.origin e) =
        c.run (predicateText (c.context bindings) c.origin e') :=
      run_agree (.before (agree _ _ rfl (.refl _ _)))
    rw [add_predicate c bindings fun m equal => modifier ⟨m, .inl equal⟩,
      add_predicate c bindings fun m equal => modifier ⟨m, .inr equal⟩, same]

section Results

variable {context : LoweringContext n} {origin : Origin n} {s t u : Progress}
  {member literal : Expr} {path : MemberPath} {v : Value} {c : ColumnRef} {key : String}
  {d : EnumDef} {test : MemberTest}

/-- An accepted test has the names of its literal written, and only the literal depends on them. -/
theorem predicate_test_writes_names (binds : test.Binds v) (onMember : member.strip = .member path)
    (given : literal.IsLiteral context.bindings v)
    (resolved : resolveColumn context origin path s = (.ok c, u))
    (stringify : c.stringify = some key) (known : u.enums.find? key = some d)
    (accepted : predicate context (test.expr member literal) origin s = (.ok (), t))
    (dialect : Dialect) :
    ∃ (l : Literal) (scalar : Value → String),
      t = u.write (test.front c ++ [l.token] ++ test.back c) ∧
      l.token.render dialect = .ok (v.spell scalar) ∧
      ∀ x ∈ v.scalars, WritesName context.settings d c.cipher dialect x (scalar x) := by
  rw [predicate_test_of_ok binds onMember ((literal_iff context).mpr given) resolved,
    Prod.mk.injEq] at accepted
  obtain ⟨bound, rfl⟩ := accepted
  obtain ⟨l, form, token⟩ := Token.resolve_bindTo_literal_ok.mp
    (Prod.ext bound rfl : boundToken ⟨u.enums, context.settings⟩ c v = (.ok (), _))
  obtain ⟨scalar, text, names⟩ := bindLiteral_writes_names stringify known form dialect
  exact ⟨l, scalar, by rw [token], congrArg Except.ok text, names⟩

/-- A test with a scalar that stands for no name is rejected, and the literal is what is left
unresolved. -/
theorem predicate_test_of_undeclared (binds : test.Binds v) (onMember : member.strip = .member path)
    (given : literal.IsLiteral context.bindings v)
    (resolved : resolveColumn context origin path s = (.ok c, u))
    (stringify : c.stringify = some key) (known : u.enums.find? key = some d)
    (undeclared : ∃ x ∈ v.scalars, d.nameFor? x = none) :
    ∃ cause, (predicate context (test.expr member literal) origin s).1 =
      .error (.unresolved cause) := by
  rw [predicate_test_of_ok binds onMember ((literal_iff context).mpr given) resolved]
  exact boundToken_of_undeclared stringify known undeclared

end Results

/-- On a column that holds names a literal may be given by ordinals or by names, in any mixture and
at any depth. A test of the column agrees on both, what it writes for each scalar is the name,
sealed where the column is encrypted, and it is rejected if one scalar stands for no name. So whole
queries that differ in ordinals and names are compiled alike. -/
theorem ordinals_and_names_are_interchangeable (context : LoweringContext n) :
    (∀ {origin : Origin n} {s u : Progress} {test : MemberTest} {member literal : Expr}
        {path : MemberPath} {v : Value} {c : ColumnRef} {key : String} {d : EnumDef},
      test.Binds v → member.strip = .member path → literal.IsLiteral context.bindings v →
      resolveColumn context origin path s = (.ok c, u) → c.stringify = some key →
        u.enums.find? key = some d →
        (∀ literal' v', literal'.IsLiteral context.bindings v' → d.Renames v v' →
          Agree (predicate context (test.expr member literal) origin s)
            (predicate context (test.expr member literal') origin s)) ∧
        (∀ t dialect, predicate context (test.expr member literal) origin s = (.ok (), t) →
          ∃ (l : Literal) (scalar : Value → String),
            t = u.write (test.front c ++ [l.token] ++ test.back c) ∧
            l.token.render dialect = .ok (v.spell scalar) ∧
            ∀ x ∈ v.scalars, WritesName context.settings d c.cipher dialect x (scalar x)) ∧
        ((∃ x ∈ v.scalars, d.nameFor? x = none) →
          ∃ cause, (predicate context (test.expr member literal) origin s).1 =
            .error (.unresolved cause))) ∧
    ∀ (c : Compiler n) (bindings : Bindings) {e e' : Expr},
      e.Respelled c.input.schema bindings c.registry.enums c.input.root e' →
        c.add bindings e = c.add bindings e' := by
  refine ⟨fun binds onMember given resolved stringify known => ⟨?_, ?_, ?_⟩,
    fun c bindings e e' h => c.add_respelled h⟩
  · intro literal' v' given' renames
    refine predicate_test_agree binds onMember given given' renames fun c' u' resolved' => ?_
    cases resolved.symm.trans resolved'
    exact ⟨_, stringify, known⟩
  · intro t dialect accepted
    exact predicate_test_writes_names binds onMember given resolved stringify known accepted dialect
  · exact predicate_test_of_undeclared binds onMember given resolved stringify known

namespace Bookshelf

def loanState : EnumDef := ⟨"LoanState", [(0, "Open"), (1, "Closed")]⟩

def state : ColumnRef := ⟨"Loans", "State", .enum, some "Loan.State", none⟩

def stateIn (items : List Value) : Expr :=
  MemberTest.within.expr (.member (.ofText "State")) (.constant (.list items))

end Bookshelf

theorem states_are_given_by_ordinals_or_names :
    (Bookshelf.loans.add .empty
      (.not (Bookshelf.stateIn [.int 1, .list [.string "Open"]]))).2.fragments =
        ["(NOT (Loans.\"State\" IN ('Closed','Open')))"] ∧
      Bookshelf.loans.add .empty (.not (Bookshelf.stateIn [.int 1, .list [.string "Open"]])) =
        Bookshelf.loans.add .empty
          (.not (Bookshelf.stateIn [.string "Closed", .list [.string "Open"]])) ∧
      ∃ cause,
        (predicate (Bookshelf.loans.context .empty) (Bookshelf.stateIn [.int 1, .list [.bool true]])
        Bookshelf.loans.origin Bookshelf.loans.progress).1 = .error (.unresolved cause) := by
  obtain ⟨tests, trees⟩ := ordinals_and_names_are_interchangeable (Bookshelf.loans.context .empty)
  have binds (item : Value) (rest : List Value) : MemberTest.within.Binds (.list (item :: rest)) :=
    ⟨_, rfl, List.cons_ne_nil _ _⟩
  have declared : Bookshelf.loanState.nameOf? 1 = some "Closed" := by decide
  refine ⟨by decide +kernel,
    trees _ _ (.not (.test (d := Bookshelf.loanState) (binds _ _) rfl ?_ (.inl rfl) (.inl rfl)
    (.list (.cons (.ordinal declared) (.cons (.same _) .nil))))), ?_⟩
  · refine ⟨0, _, rfl, rfl, rfl, .inr ⟨rfl, rfl, ?_⟩⟩
    rintro d' ⟨i, property, -, key, column⟩
    obtain rfl : i = 0 := Subsingleton.elim i 0
    obtain rfl : property = "State" := by
      have parts := congrArg String.toList key
      simp only [EnumRegistry.keyOf, String.toList_append, List.append_cancel_left_eq] at parts
      exact String.toList_injective parts
    exact (Option.some.inj column).symm
  · refine (tests (binds _ _) rfl (.inl rfl) (c := Bookshelf.state)
      (d := Bookshelf.loanState) rfl rfl rfl).2.2 ?_
    exact ⟨.bool true, by simp [Value.scalars, Value.itemScalars], rfl⟩

end PredicateSql
