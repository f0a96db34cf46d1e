import PredicateSql.Sql.Compiler

/-!
Runs of lowerings. A run of two lowerings in a row splits at the state between them. The lowerings
that resolve members neither read nor write the buffer, so their runs can be moved to any buffer.
-/
namespace PredicateSql

variable {n : Nat} {α β : Type}

namespace Lowering

theorem bind_run (x : Lowering α) (f : α → Lowering β) (s : Progress) :
    (x >>= f) s = match x s with
      | (.ok a, t) => f a t
      | (.error e, t) => (.error e, t) := by
  change ExceptT.bindCont f (x s).1 (x s).2 = _
  rcases x s with ⟨a | a, t⟩ <;> rfl

theorem bind_run_of_ok {x : Lowering α} {f : α → Lowering β} {s t : Progress} {a : α}
    (run : x s = (.ok a, t)) : (x >>= f) s = f a t := by
  rw [bind_run, run]

theorem bind_run_of_error {x : Lowering α} {f : α → Lowering β} {s t : Progress} {e : Error}
    (run : x s = (.error e, t)) : (x >>= f) s = (.error e, t) := by
  rw [bind_run, run]

theorem bind_ok {x : Lowering α} {f : α → Lowering β} {s u : Progress} {b : β} :
    (x >>= f) s = (.ok b, u) ↔ ∃ a t, x s = (.ok a, t) ∧ f a t = (.ok b, u) := by
  rw [bind_run]
  constructor
  · intro h
    rcases run : x s with ⟨e | a, t⟩
    · rw [run] at h
      cases h
    · rw [run] at h
      exact ⟨a, t, rfl, h⟩
  · rintro ⟨a, t, run, h⟩
    rw [run]
    exact h

theorem outcome_eq {x y : Except Error α} {s t : Progress} :
    ((x, s) : Except Error α × Progress) = (y, t) ↔ x = y ∧ s = t := by
  rw [Prod.mk.injEq]

/-- An outcome that is no error is that of a successful run. -/
theorem ok_of_toBool {x : Lowering Unit} {s : Progress} (succeeds : (x s).1.toBool = true) :
    x s = (.ok (), (x s).2) := by
  rcases run : x s with ⟨err | ⟨⟩, t⟩
  · rw [run] at succeeds
    cases succeeds
  · rfl

@[simp] theorem pure_ok {a b : α} {s t : Progress} :
    (pure a : Lowering α) s = (.ok b, t) ↔ a = b ∧ s = t :=
  outcome_eq.trans (by simp)

@[simp] theorem attempt_ok {outcome : Except Error α} {a : α} {s t : Progress} :
    attempt outcome s = (.ok a, t) ↔ outcome = .ok a ∧ s = t :=
  outcome_eq

@[simp] theorem reject_ok {cause : Unsupported} {a : α} {s t : Progress} :
    ¬ reject cause s = (.ok a, t) :=
  fun h => nomatch (outcome_eq.mp h).1

@[simp] theorem lacks_ok {cause : MissingMetadata} {a : α} {s t : Progress} :
    ¬ lacks cause s = (.ok a, t) :=
  fun h => nomatch (outcome_eq.mp h).1

@[simp] theorem mark_ok {start : Nat} {s t : Progress} :
    mark s = (.ok start, t) ↔ s.buffer.mark = start ∧ s = t :=
  outcome_eq.trans (by simp)

@[simp] theorem freshAlias_ok {context : LoweringContext n} {name : String} {s t : Progress} :
    freshAlias context s = (.ok name, t) ↔
      context.aliases s.issued = name ∧ { s with issued := s.issued + 1 } = t :=
  outcome_eq.trans (by simp)

@[simp] theorem findJoin_ok {path : String} {found : Option JoinClause} {s t : Progress} :
    findJoin path s = (.ok found, t) ↔ s.joins.find? (·.path = path) = found ∧ s = t :=
  outcome_eq.trans (by simp)

@[simp] theorem addJoin_ok {join : JoinClause} {u : Unit} {s t : Progress} :
    addJoin join s = (.ok u, t) ↔ { s with joins := s.joins ++ [join] } = t :=
  outcome_eq.trans (by simp)

@[simp] theorem enumFor_ok {e : Entity n} {property : String} {found : Option EnumDef}
    {s t : Progress} :
    enumFor e property s = (.ok found, t) ↔
      (s.enums.enumFor e property).1 = found ∧
        { s with enums := (s.enums.enumFor e property).2 } = t := by
  refine outcome_eq.trans (and_congr ?_ Iff.rfl)
  rw [Except.ok.injEq]
  exact Iff.rfl

end Lowering

def Progress.withBuffer (s : Progress) (b : TokenBuffer) : Progress :=
  { s with buffer := b }

namespace Progress

@[simp] theorem withBuffer_joins (s : Progress) (b : TokenBuffer) :
    (s.withBuffer b).joins = s.joins := rfl

@[simp] theorem withBuffer_issued (s : Progress) (b : TokenBuffer) :
    (s.withBuffer b).issued = s.issued := rfl

@[simp] theorem withBuffer_enums (s : Progress) (b : TokenBuffer) :
    (s.withBuffer b).enums = s.enums := rfl

@[simp] theorem withBuffer_buffer (s : Progress) (b : TokenBuffer) :
    (s.withBuffer b).buffer = b := rfl

@[simp] theorem withBuffer_withBuffer (s : Progress) (b c : TokenBuffer) :
    (s.withBuffer b).withBuffer c = s.withBuffer c := rfl

@[simp] theorem withBuffer_self (s : Progress) : s.withBuffer s.buffer = s := rfl

def write (s : Progress) (ts : List Token) : Progress :=
  s.withBuffer ⟨s.buffer.tokens ++ ts⟩

@[simp] theorem write_joins (s : Progress) (ts : List Token) : (s.write ts).joins = s.joins := rfl

@[simp] theorem write_issued (s : Progress) (ts : List Token) :
    (s.write ts).issued = s.issued := rfl

@[simp] theorem write_enums (s : Progress) (ts : List Token) : (s.write ts).enums = s.enums := rfl

@[simp] theorem write_write (s : Progress) (xs ys : List Token) :
    (s.write xs).write ys = s.write (xs ++ ys) := by
  simp [write, withBuffer]

end Progress

namespace Lowering

@[simp] theorem push_ok {token : Token} {u : Unit} {s t : Progress} :
    push token s = (.ok u, t) ↔ s.write [token] = t :=
  outcome_eq.trans (by simp [Progress.write, Progress.withBuffer, TokenBuffer.push])

@[simp] theorem pushSql_ok {text : String} {u : Unit} {s t : Progress} :
    pushSql text s = (.ok u, t) ↔ s.write [.sql text] = t :=
  push_ok

theorem push_run (token : Token) (s : Progress) : push token s = (.ok (), s.write [token]) :=
  push_ok.mpr rfl

theorem pushSql_run (text : String) (s : Progress) :
    pushSql text s = (.ok (), s.write [.sql text]) :=
  push_run _ s

/-- Binding from the place where the pieces `ts` were written touches nothing before them. -/
theorem bindSpan_write (context : LoweringContext n) (s : Progress) (ts : List Token) :
    bindSpan context s.buffer.mark (s.write ts) =
      ((Token.bindSpan ⟨s.enums, context.settings⟩ ts).1,
        s.write (Token.bindSpan ⟨s.enums, context.settings⟩ ts).2) := by
  simp [bindSpan, TokenBuffer.bindSpan, TokenBuffer.mark, Progress.write, Progress.withBuffer]

theorem bindSpan_write_ok {context : LoweringContext n} {s t : Progress} {ts : List Token}
    {u : Unit} :
    bindSpan context s.buffer.mark (s.write ts) = (.ok u, t) ↔
      ∃ ts', Token.bindSpan ⟨s.enums, context.settings⟩ ts = (.ok (), ts') ∧ s.write ts' = t := by
  rw [bindSpan_write]
  refine outcome_eq.trans ?_
  rcases Token.bindSpan ⟨s.enums, context.settings⟩ ts with ⟨e | ⟨⟩, ts'⟩ <;> simp

theorem collapseBooleans_write (context : LoweringContext n) (s : Progress) (ts : List Token) :
    collapseBooleans context s.buffer.mark (s.write ts) =
      (.ok (), s.write (ts.map (Token.collapse context.dialect))) := by
  simp [collapseBooleans, TokenBuffer.collapseBooleans, TokenBuffer.mark, Progress.write,
    Progress.withBuffer]

theorem collapseBooleans_write_ok {context : LoweringContext n} {s t : Progress}
    {ts : List Token} {u : Unit} :
    collapseBooleans context s.buffer.mark (s.write ts) = (.ok u, t) ↔
      s.write (ts.map (Token.collapse context.dialect)) = t := by
  rw [collapseBooleans_write]
  exact outcome_eq.trans (by simp)

theorem isolated_ok {x : Lowering Unit} {s t : Progress} {joins : List JoinClause}
    {buffer : TokenBuffer} :
    isolated x s = (.ok (joins, buffer), t) ↔
      ∃ v, x { s with joins := [], buffer := .empty } = (.ok (), v) ∧ v.joins = joins ∧
        v.buffer = buffer ∧ { v with joins := s.joins, buffer := s.buffer } = t := by
  unfold isolated
  rcases x { s with joins := [], buffer := .empty } with ⟨e | ⟨⟩, v⟩
  · constructor
    · exact fun h => nomatch (outcome_eq.mp h).1
    · rintro ⟨_, run, -⟩
      exact nomatch (outcome_eq.mp run).1
  · constructor
    · intro h
      obtain ⟨found, rfl⟩ := outcome_eq.mp h
      cases found
      exact ⟨v, rfl, rfl, rfl, rfl⟩
    · rintro ⟨_, run, rfl, rfl, rfl⟩
      cases run
      rfl

end Lowering

/-- The lowering neither reads nor writes the buffer. -/
def Silent (x : Lowering α) : Prop :=
  ∀ s b, x (s.withBuffer b) = ((x s).1, (x s).2.withBuffer b)

namespace Silent

open Lowering

/-- A successful run of a silent lowering succeeds with any buffer and leaves that buffer as it
is. -/
theorem ok {x : Lowering α} (silent : Silent x) {s t : Progress} {a : α}
    (run : x s = (.ok a, t)) (b : TokenBuffer) :
    x (s.withBuffer b) = (.ok a, t.withBuffer b) := by
  rw [silent s b, run]

theorem buffer_eq {x : Lowering α} (silent : Silent x) {s t : Progress} {a : α}
    (run : x s = (.ok a, t)) : t.buffer = s.buffer := by
  have kept := silent.ok run s.buffer
  rw [Progress.withBuffer_self, run] at kept
  have same : t = t.withBuffer s.buffer := (outcome_eq.mp kept).2
  rw [same, Progress.withBuffer_buffer]

/-- A silent lowering runs after some pieces were written as it runs before. -/
theorem write_ok {x : Lowering α} (silent : Silent x) {s t : Progress} {ts : List Token} {a : α} :
    x (s.write ts) = (.ok a, t) ↔ ∃ u, x s = (.ok a, u) ∧ u.write ts = t := by
  constructor
  · intro run
    have back := silent.ok run s.buffer
    refine ⟨t.withBuffer s.buffer, back, ?_⟩
    have kept : t.buffer = ⟨s.buffer.tokens ++ ts⟩ := silent.buffer_eq run
    rw [Progress.write, Progress.withBuffer_buffer, ← kept, Progress.withBuffer_withBuffer,
      Progress.withBuffer_self]
  · rintro ⟨u, run, rfl⟩
    rw [Progress.write, Progress.write, silent.buffer_eq run]
    exact silent.ok run _

theorem bind {x : Lowering α} {f : α → Lowering β} (first : Silent x)
    (second : ∀ a, Silent (f a)) : Silent (x >>= f) := by
  intro s b
  rw [bind_run, bind_run, first s b]
  rcases x s with ⟨e | a, t⟩
  · rfl
  · exact second a t b

theorem pure (a : α) : Silent (pure a : Lowering α) := fun _ _ => rfl

theorem attempt (outcome : Except Error α) : Silent (Lowering.attempt outcome) := fun _ _ => rfl

theorem reject (cause : Unsupported) : Silent (Lowering.reject cause : Lowering α) :=
  fun _ _ => rfl

theorem lacks (cause : MissingMetadata) : Silent (Lowering.lacks cause : Lowering α) :=
  fun _ _ => rfl

theorem freshAlias (context : LoweringContext n) : Silent (Lowering.freshAlias context) :=
  fun _ _ => rfl

theorem findJoin (path : String) : Silent (Lowering.findJoin path) := fun _ _ => rfl

theorem addJoin (join : JoinClause) : Silent (Lowering.addJoin join) := fun _ _ => rfl

theorem enumFor (e : Entity n) (property : String) : Silent (Lowering.enumFor e property) :=
  fun _ _ => rfl

end Silent

section Members

variable (context : LoweringContext n)

/-- The join that a step adds under the next alias. -/
def newJoin (owner : Origin n) (target : Fin n) (path : String) (columns : String × String)
    (issued : Nat) : JoinClause :=
  ⟨path, context.aliases issued, .left,
    context.dialect.tableName (context.schema.entity target).table,
    [⟨⟨context.aliases issued, columns.1⟩, ⟨owner.qualifier, columns.2⟩⟩]⟩

theorem leftJoin_ok {owner : Origin n} {target : Fin n} {path : String} {join : JoinClause}
    {s t : Progress} :
    leftJoin context owner target path s = (.ok join, t) ↔ ∃ columns,
      linkColumns (context.schema.entity owner.entity) (context.schema.entity target) path =
        .ok columns ∧
      newJoin context owner target path columns s.issued = join ∧
      { s with issued := s.issued + 1 } = t := by
  simp only [leftJoin, Lowering.bind_ok, Lowering.attempt_ok, Lowering.freshAlias_ok,
    Lowering.pure_ok]
  constructor
  · rintro ⟨columns, _, ⟨linked, rfl⟩, _, _, ⟨rfl, rfl⟩, rfl, rfl⟩
    exact ⟨columns, linked, rfl, rfl⟩
  · rintro ⟨columns, linked, rfl, rfl⟩
    exact ⟨columns, s, ⟨linked, rfl⟩, _, _, ⟨rfl, rfl⟩, rfl, rfl⟩

/-- A step takes the join of its path, or adds one if there is none. -/
theorem step_ok {owner next : Origin n} {path segment : String} {s t : Progress} :
    step context owner path segment s = (.ok next, t) ↔
      ∃ navigation, (context.schema.entity owner.entity).navigationFor? segment = some navigation ∧
        navigation.many = false ∧
        ((∃ join, s.joins.find? (·.path = path) = some join ∧
            ⟨navigation.target, join.aliasName⟩ = next ∧ s = t) ∨
          (s.joins.find? (·.path = path) = none ∧ ∃ columns,
            linkColumns (context.schema.entity owner.entity)
              (context.schema.entity navigation.target) path = .ok columns ∧
            ⟨navigation.target, context.aliases s.issued⟩ = next ∧
            { s with
              joins := s.joins ++ [newJoin context owner navigation.target path columns s.issued]
              issued := s.issued + 1 } = t)) := by
  cases found : (context.schema.entity owner.entity).navigationFor? segment with
  | none => simp [step, found]
  | some navigation =>
    cases many : navigation.many with
    | true => simp [step, found, many]
    | false =>
      simp only [step, found, many, Bool.false_eq_true, if_false, Option.some.injEq,
        exists_eq_left', true_and]
      refine Lowering.bind_ok.trans ?_
      cases held : s.joins.find? (·.path = path) with
      | some join =>
        constructor
        · rintro ⟨_, _, looked, rest⟩
          obtain ⟨result, rfl⟩ := Lowering.findJoin_ok.mp looked
          obtain rfl := held.symm.trans result
          obtain ⟨rfl, rfl⟩ := Lowering.pure_ok.mp rest
          exact .inl ⟨join, rfl, rfl, rfl⟩
        · rintro (⟨_, ⟨⟩, rfl, rfl⟩ | ⟨⟨⟩, -⟩)
          exact ⟨some join, s, Lowering.findJoin_ok.mpr ⟨held, rfl⟩,
            Lowering.pure_ok.mpr ⟨rfl, rfl⟩⟩
      | none =>
        constructor
        · rintro ⟨_, _, looked, rest⟩
          obtain ⟨result, rfl⟩ := Lowering.findJoin_ok.mp looked
          obtain rfl := held.symm.trans result
          obtain ⟨join, _, made, rest⟩ := Lowering.bind_ok.mp rest
          obtain ⟨columns, linked, rfl, rfl⟩ := (leftJoin_ok context).mp made
          obtain ⟨_, _, added, rest⟩ := Lowering.bind_ok.mp rest
          obtain rfl := Lowering.addJoin_ok.mp added
          obtain ⟨rfl, rfl⟩ := Lowering.pure_ok.mp rest
          exact .inr ⟨rfl, columns, linked, rfl, rfl⟩
        · rintro (⟨_, ⟨⟩, -⟩ | ⟨-, columns, linked, rfl, rfl⟩)
          refine ⟨none, s, Lowering.findJoin_ok.mpr ⟨held, rfl⟩, ?_⟩
          refine Lowering.bind_ok.mpr ⟨_, _,
            (leftJoin_ok context).mpr ⟨columns, linked, rfl, rfl⟩, ?_⟩
          exact Lowering.bind_ok.mpr
            ⟨(), _, Lowering.addJoin_ok.mpr rfl, Lowering.pure_ok.mpr ⟨rfl, rfl⟩⟩

/-- A member is a column of the entity that its navigation leads to. -/
theorem resolveColumn_ok {origin : Origin n} {path : MemberPath} {c : ColumnRef}
    {s t : Progress} :
    resolveColumn context origin path s = (.ok c, t) ↔
      path.isEmpty = false ∧ ∃ owner u column found,
        walk context [] origin path.navigation s = (.ok owner, u) ∧
        (context.schema.entity owner.entity).columnFor? path.property = some column ∧
        (if column.stringify then
          Lowering.enumFor (context.schema.entity owner.entity) path.property else pure none) u =
          (.ok found, t) ∧
        ⟨owner.qualifier, column.column, column.kind, found.map fun _ =>
          EnumRegistry.keyOf (context.schema.entity owner.entity) path.property, column.cipher⟩ =
          c := by
  cases empty : path.isEmpty with
  | true => simp [resolveColumn, empty]
  | false =>
    simp only [resolveColumn, empty, Bool.false_eq_true, if_false, true_and]
    refine Lowering.bind_ok.trans (exists_congr fun owner => ?_)
    constructor
    · rintro ⟨u, walked, rest⟩
      cases found : (context.schema.entity owner.entity).columnFor? path.property with
      | none =>
        simp only [found] at rest
        split at rest
        · exact absurd rest Lowering.reject_ok
        · exact absurd rest Lowering.lacks_ok
      | some column =>
        simp only [found] at rest
        refine ⟨u, column, ?_⟩
        split at rest <;> rename_i named <;>
          obtain ⟨looked, _, run, built⟩ := Lowering.bind_ok.mp rest <;>
          obtain ⟨rfl, rfl⟩ := Lowering.pure_ok.mp built
        · exact ⟨looked, walked, rfl, by rw [if_pos named]; exact run, rfl⟩
        · exact ⟨looked, walked, rfl, by rw [if_neg named]; exact run, rfl⟩
    · rintro ⟨u, column, looked, walked, found, run, rfl⟩
      refine ⟨u, walked, ?_⟩
      simp only [found]
      split <;> rename_i named
      · rw [if_pos named] at run
        exact Lowering.bind_ok.mpr ⟨looked, t, run, Lowering.pure_ok.mpr ⟨rfl, rfl⟩⟩
      · rw [if_neg named] at run
        exact Lowering.bind_ok.mpr ⟨looked, t, run, Lowering.pure_ok.mpr ⟨rfl, rfl⟩⟩

omit context in
/-- The search for the names of a column changes nothing but the enumerations. -/
theorem lookup_ok {column : Column} {e : Entity n} {property : String} {found : Option EnumDef}
    {s t : Progress} :
    (if column.stringify then Lowering.enumFor e property else pure none) s = (.ok found, t) ↔
      (if column.stringify then s.enums.enumFor e property else (none, s.enums)) =
        (found, t.enums) ∧
        { s with enums := t.enums } = t := by
  split
  · rw [Lowering.enumFor_ok, Prod.ext_iff]
    constructor
    · rintro ⟨rfl, rfl⟩
      exact ⟨⟨rfl, rfl⟩, rfl⟩
    · rintro ⟨⟨rfl, after⟩, same⟩
      exact ⟨rfl, by rw [after, same]⟩
  · rw [Lowering.pure_ok, Prod.ext_iff]
    constructor
    · rintro ⟨rfl, rfl⟩
      exact ⟨⟨rfl, rfl⟩, rfl⟩
    · rintro ⟨⟨rfl, after⟩, same⟩
      have kept : s.enums = t.enums := after
      exact ⟨rfl, by rw [← same, ← kept]⟩

omit context in
theorem lookup_kept {column : Column} {e : Entity n} {property : String} {found : Option EnumDef}
    {s t : Progress}
    (looked : (if column.stringify then Lowering.enumFor e property else pure none) s =
      (.ok found, t)) : t.joins = s.joins ∧ t.issued = s.issued := by
  have same := (lookup_ok.mp looked).2
  rw [← same]
  exact ⟨rfl, rfl⟩

theorem leftJoin_silent (owner : Origin n) (target : Fin n) (path : String) :
    Silent (leftJoin context owner target path) := by
  unfold leftJoin
  exact (Silent.attempt _).bind fun _ => (Silent.freshAlias context).bind fun _ => Silent.pure _

theorem step_silent (owner : Origin n) (path segment : String) :
    Silent (step context owner path segment) := by
  unfold step
  dsimp only
  split
  · exact Silent.lacks _
  · split
    · exact Silent.reject _
    · refine (Silent.findJoin path).bind fun found => ?_
      cases found with
      | some join => exact Silent.pure _
      | none =>
        refine (leftJoin_silent context owner _ path).bind fun join => ?_
        exact (Silent.addJoin join).bind fun _ => Silent.pure _

theorem walk_silent (walked segments : List String) (owner : Origin n) :
    Silent (walk context walked owner segments) := by
  induction segments generalizing walked owner with
  | nil => exact Silent.pure _
  | cons segment rest ih =>
    exact (step_silent context owner _ segment).bind fun next => ih _ next

theorem resolveColumn_silent (origin : Origin n) (path : MemberPath) :
    Silent (resolveColumn context origin path) := by
  unfold resolveColumn
  split
  · exact Silent.reject _
  · refine (walk_silent context [] path.navigation origin).bind fun owner => ?_
    dsimp only
    split
    · split
      · exact Silent.reject _
      · exact Silent.lacks _
    · split
      · exact (Silent.enumFor _ _).bind fun _ => Silent.pure _
      · exact (Silent.pure _).bind fun _ => Silent.pure _

theorem memberOperand_silent (origin : Origin n) (method : Method) (receiver : Option Expr) :
    Silent (memberOperand context origin method receiver) := by
  unfold memberOperand
  split
  · exact resolveColumn_silent context origin _
  · exact Silent.reject _

end Members

end PredicateSql
