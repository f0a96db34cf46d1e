import PredicateSql.Proofs.Scoping.Tests

/-!
Names in conditions. A subquery brings in the aliases of its rows, of the copy of the owner's table
and of its joins; the only name that it takes from outside is that of the rows it belongs to.
Outside of subqueries, a condition uses names of its scope only.
-/
namespace PredicateSql

open Lowering

variable {n : Nat}

def JoinClause.mentions (j : JoinClause) : List String :=
  j.equations.flatMap fun e => [e.left.qualifier, e.right.qualifier]

namespace Subquery

def correlation (schema : Schema n) (d : Dialect) (q : Subquery n) : JoinClause :=
  (q.clause schema d [] none).correlation

def brings (q : Subquery n) (joins : List JoinClause) : List String :=
  q.childAlias :: q.ownerAlias :: joins.map (·.aliasName)

end Subquery

namespace Condition

variable (schema : Schema n) (d : Dialect)

/-- The names that a condition takes from outside: those of its columns, and those in a subquery
that the subquery does not bring in itself. -/
def takes : Condition n → List String
  | logical _ left right => left.takes ++ right.takes
  | not operand => operand.takes
  | any q => (q.correlation schema d).mentions.filter (· ∉ q.brings [])
  | anyWhere q joins k =>
    ((q.correlation schema d :: joins).flatMap JoinClause.mentions ++ k.takes).filter
      (· ∉ q.brings joins)
  | k => k.columns.map (·.qualifier)

/-- The subquery that a condition is, with its joins. -/
def subquery? : Condition n → Option (Subquery n × List JoinClause)
  | any q => some (q, [])
  | anyWhere q joins _ => some (q, joins)
  | _ => none

def nested? : Condition n → Option (Condition n)
  | anyWhere _ _ k => some k
  | _ => none

end Condition

/-- The test for a row of a collection is a subquery, and any other test has the columns of the
members that it references. A subquery is about the collection that it references, and its joins
continue navigations from its own rows. -/
structure Placed (schema : Schema n) (d : Dialect) (origin : Origin n) (joins : List JoinClause)
    (e : Expr) (k : Condition n) : Prop where
  any : ∀ receiver args, e = .call .any receiver args →
    k.subquery?.isSome = true ∧ k.nested?.isSome = !args.isEmpty
  columns : k.subquery? = none →
    List.Forall₂ (Denotes schema joins origin) e.references k.columns
  rows : ∀ q nested, k.subquery? = some (q, nested) →
    (∃ path, e.references = [path] ∧ q.Stands schema joins origin path) ∧
      Linked schema d q.child nested

namespace Placed

variable {schema : Schema n} {d : Dialect} {origin : Origin n} {joins more : List JoinClause}
  {e : Expr} {k : Condition n}

theorem of_columns (other : ∀ receiver args, e ≠ .call .any receiver args)
    (plain : k.subquery? = none)
    (columns : List.Forall₂ (Denotes schema joins origin) e.references k.columns) :
    Placed schema d origin joins e k where
  any receiver args same := absurd same (other receiver args)
  columns _ := columns
  rows _ _ found := absurd (plain.symm.trans found) (by simp)

theorem of_rows {receiver : Option Expr} {args : List Expr} {q : Subquery n}
    {nested : List JoinClause} {path : MemberPath} (found : k.subquery? = some (q, nested))
    (given : k.nested?.isSome = !args.isEmpty)
    (collection : receiver.map Expr.strip = some (.member path))
    (stands : q.Stands schema joins origin path) (linked : Linked schema d q.child nested) :
    Placed schema d origin joins (.call .any receiver args) k where
  any _ _ same := by
    cases same
    exact ⟨by simp [found], given⟩
  columns plain := absurd (plain.symm.trans found) (by simp)
  rows q' nested' found' := by
    have same : (q, nested) = (q', nested') := Option.some.inj (found.symm.trans found')
    obtain ⟨rfl, rfl⟩ := Prod.mk.inj same
    exact ⟨⟨path, Expr.references_of_any collection, stands⟩, linked⟩

theorem convert (h : Placed schema d origin joins e k) :
    Placed schema d origin joins (.convert e) k where
  any _ _ same := nomatch same
  columns := h.columns
  rows := h.rows

theorem mono (h : Placed schema d origin joins e k) (kept : joins <+: more) :
    Placed schema d origin more e k where
  any := h.any
  columns plain := (h.columns plain).imp fun _ _ denotes => denotes.mono kept
  rows q nested found := by
    obtain ⟨⟨path, references, stands⟩, linked⟩ := h.rows q nested found
    exact ⟨⟨path, references, stands.mono kept⟩, linked⟩

end Placed

section Lowering

variable {context : LoweringContext n} {origin : Origin n} {e : Expr} {s t : Progress}
  {k : Condition n}

/-- Both operands of a comparison have their columns, also when they are bound. -/
theorem comparison_placed {op : BinaryOp} {left right : Expr} {u : Progress}
    {l r l' r' : Operand} {context' : BindingContext} {c : Option ColumnRef}
    (start : Linked context.schema context.dialect origin s.joins)
    (leftRead : readOperand context origin left s = (.ok l, u))
    (rightRead : readOperand context origin right u = (.ok r, t))
    (leftBound : l.bind context' c = .ok l') (rightBound : r.bind context' c = .ok r') :
    Placed context.schema context.dialect origin t.joins (.binary op left right)
      (.comparison op l' r') := by
  obtain ⟨middle, front⟩ := readOperand_denotes context start leftRead
  obtain ⟨-, back⟩ := readOperand_denotes context middle rightRead
  have grown := (readOperand_grows context rightRead).joins
  have front' := front.imp fun _ _ denotes => denotes.mono grown
  have leftSame : l'.columns = l.columns := congrArg Option.toList (Operand.bind_column? leftBound)
  have rightSame : r'.columns = r.columns :=
    congrArg Option.toList (Operand.bind_column? rightBound)
  refine .of_columns nofun rfl ?_
  simp only [Expr.references, Condition.columns, leftSame, rightSame]
  exact List.rel_append front' back

/-- Every test that is lowered is in its place, and so is every subquery. -/
theorem Lowers.placed (h : Lowers context origin e s k t)
    (start : Linked context.schema context.dialect origin s.joins)
    (kind : k.isTest = true ∨ k.subquery?.isSome = true) :
    Placed context.schema context.dialect origin t.joins e k := by
  have member : ∀ {origin e path c} {s t : Progress} {k : Condition n},
      Linked context.schema context.dialect origin s.joins →
      resolveColumn context origin path s = (.ok c, t) → Expr.references e = [path] →
      k.columns = [c] → (∀ receiver args, e ≠ .call .any receiver args) → k.subquery? = none →
      Placed context.schema context.dialect origin t.joins e k := by
    intro origin e path c s t k start resolved references columns other plain
    obtain ⟨-, denotes⟩ := resolveColumn_denotes context start resolved
    refine .of_columns other plain ?_
    rw [references, columns]
    exact .cons denotes .nil
  induction h with
  | logical => simp [Condition.isTest, Condition.subquery?] at kind
  | not => simp [Condition.isTest, Condition.subquery?] at kind
  | convert _ inner => exact (inner start kind).convert
  | comparison _ _ leftRead rightRead leftBound rightBound =>
    exact comparison_placed start leftRead rightRead leftBound rightBound
  | nullTest _ tested read =>
    refine .of_columns nofun rfl ?_
    rw [nullTested?_references tested]
    exact (readOperand_denotes context start read).2
  | inverted boolean run =>
    have read := readOperand_of_readBoolean? context boolean run
    exact .of_columns nofun rfl (readOperand_denotes context start read).2
  | @truth origin e s t reading o plain boolean run =>
    have read := readOperand_of_readBoolean? context boolean run
    have other : ∀ receiver args, e ≠ Expr.call .any receiver args := by
      rintro receiver args rfl
      cases boolean
    exact .of_columns other rfl (readOperand_denotes context start read).2
  | @like origin method w receiver path pattern s t c v l opening onMember column _ value =>
    have other : ∀ receiver' args,
        Expr.call method receiver [pattern] ≠ .call .any receiver' args := by
      rintro receiver' args ⟨⟩
      cases opening
    exact member start column (Expr.references_of_like onMember value) rfl other rfl
  | membership collection value onMember column
  | emptyMembership collection value onMember column =>
    exact member start column (Expr.references_of_membership collection value onMember) rfl nofun
      rfl
  | hasValue onMember column =>
    exact member start column (Expr.references_of_call onMember rfl) rfl nofun rfl
  | any collection rows =>
    have stands := (subquery_stands context start rows).2
    exact .of_rows rfl rfl collection stands (.nil _ _ _)
  | anyWhere collection rows inner _ =>
    have stands := (subquery_stands context start rows).2
    have linked := inner.linked (Linked.nil _ _ _)
    exact .of_rows rfl rfl collection stands linked

/-- Throughout a predicate, every test and every subquery is in its place. -/
theorem Lowered.throughout_placed {r : EnumRegistry} {joins : List JoinClause}
    (h : Throughout (Lowered context r) origin joins e k) :
    Throughout (Placed context.schema context.dialect) origin joins e k := by
  have placed : ∀ origin joins e k, k.isTest = true ∨ k.subquery?.isSome = true →
      Lowered context r origin joins e k →
      Placed context.schema context.dialect origin joins e k := by
    intro origin joins e k kind lowered
    obtain ⟨s, t, derived, start, kept, -⟩ := lowered
    exact (derived.placed start kind).mono kept
  refine h.imp (fun _ _ _ _ test => placed _ _ _ _ (.inl test)) ?_
  intro origin joins receiver e q nested k lowered inner
  exact placed _ _ _ _ (.inr rfl) lowered

end Lowering

section Taking

variable {schema : Schema n} {d : Dialect} {origin : Origin n} {joins : List JoinClause}

/-- The joins of a scope mention names of the scope only. -/
theorem Linked.mentions (h : Linked schema d origin joins) {join : JoinClause}
    (member : join ∈ joins) {name : String} (mentioned : name ∈ join.mentions) :
    name ∈ scopeNames origin joins := by
  obtain ⟨earlier, later, split⟩ := List.append_of_mem member
  have continues := h.continues earlier join later split
  cases continues with
  | @intro walked segment owner navigation columns aliasName canonical parent =>
    have named : name = aliasName ∨ name = owner.qualifier := by
      simpa [JoinClause.mentions] using mentioned
    rcases named with rfl | rfl
    · have own := List.mem_map_of_mem (f := (·.aliasName)) member
      exact List.mem_cons_of_mem _ own
    · have kept : earlier <+: joins := split ▸ List.prefix_append _ _
      exact (parent.mono kept).mem_scopeNames

/-- The columns of members are behind names of the scope. -/
theorem Denotes.qualifiers {paths : List MemberPath} {columns : List ColumnRef}
    (h : List.Forall₂ (Denotes schema joins origin) paths columns) {name : String}
    (member : name ∈ columns.map (·.qualifier)) : name ∈ scopeNames origin joins := by
  induction h with
  | nil => simp at member
  | cons denotes _ ih =>
    rcases List.mem_cons.mp member with rfl | rest
    · exact denotes.mem_scopeNames
    · exact ih rest

theorem Subquery.mem_correlation {q : Subquery n} {name : String}
    (member : name ∈ (q.correlation schema d).mentions) :
    name = q.outer.qualifier ∨ name ∈ q.brings [] := by
  simp only [correlation, clause, JoinClause.mentions, List.flatMap_cons, List.flatMap_nil,
    List.mem_append, List.mem_cons, List.not_mem_nil, or_false] at member
  simp only [brings, List.mem_cons, List.map_nil, List.not_mem_nil, or_false]
  tauto

/-- A subquery by itself takes the name of its outer rows at most. -/
theorem Subquery.takes_any {q : Subquery n} {name : String}
    (member : name ∈ (Condition.any q).takes schema d) : name = q.outer.qualifier := by
  simp only [Condition.takes, List.mem_filter, decide_eq_true_eq] at member
  obtain ⟨mentioned, foreign⟩ := member
  exact (mem_correlation mentioned).resolve_right foreign

/-- So does one whose condition uses names of its scope only. -/
theorem Subquery.takes_anyWhere {q : Subquery n} {nested : List JoinClause} {k : Condition n}
    (linked : Linked schema d q.child nested)
    (inner : ∀ name ∈ k.takes schema d, name ∈ scopeNames q.child nested) {name : String}
    (member : name ∈ (Condition.anyWhere q nested k).takes schema d) :
    name = q.outer.qualifier := by
  simp only [Condition.takes, List.mem_filter, List.flatMap_cons, List.mem_append,
    decide_eq_true_eq, or_assoc] at member
  obtain ⟨mentioned, foreign⟩ := member
  have own : ∀ name ∈ scopeNames q.child nested, name ∈ q.brings nested := by
    intro name member
    rcases List.mem_cons.mp member with rfl | join
    · exact List.mem_cons_self
    · exact List.mem_cons_of_mem _ (List.mem_cons_of_mem _ join)
  rcases mentioned with correlated | joined | used
  · refine (mem_correlation correlated).resolve_right fun brought => foreign ?_
    simp only [brings, List.map_nil, List.mem_cons, List.not_mem_nil, or_false] at brought ⊢
    tauto
  · obtain ⟨join, held, mentioned⟩ := List.mem_flatMap.mp joined
    exact absurd (own _ (linked.mentions held mentioned)) foreign
  · exact absurd (own _ (inner name used)) foreign

/-- A condition whose parts are in their places takes names of its scope only. -/
theorem Throughout.takes {e : Expr} {k : Condition n}
    (h : Throughout (Placed schema d) origin joins e k) :
    ∀ name ∈ k.takes schema d, name ∈ scopeNames origin joins := by
  have outer : ∀ {origin joins e k} {q : Subquery n} {nested} {name},
      Placed schema d origin joins e k → k.subquery? = some (q, nested) →
      name = q.outer.qualifier → name ∈ scopeNames origin joins := by
    rintro origin joins e k q nested name placed found rfl
    obtain ⟨⟨path, -, stands⟩, -⟩ := placed.rows q nested found
    exact stands.outer.mem_scopeNames
  induction h with
  | logical _ _ _ first second =>
    intro name member
    rcases List.mem_append.mp member with left | right
    · exact first name left
    · exact second name right
  | not _ inner => exact inner
  | convert _ inner => exact inner
  | inverted _ here => exact fun name member => Denotes.qualifiers (here.columns rfl) member
  | @test origin joins e k leaf kind here =>
    intro name member
    cases k with
    | logical => cases kind
    | not => cases kind
    | anyWhere => cases kind
    | any q => exact outer here rfl (Subquery.takes_any member)
    | _ => exact Denotes.qualifiers (here.columns rfl) member
  | anyWhere here inner ih =>
    intro name member
    have linked := (here.rows _ _ rfl).2
    exact outer here rfl (Subquery.takes_anyWhere linked ih member)

end Taking
end PredicateSql
