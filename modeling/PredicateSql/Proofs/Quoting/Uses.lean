import PredicateSql.Proofs.Quoting.Faithful

/-!
Other strings behind the same names: bindings that differ in the contents of strings only, and the
columns that an expression compares each name with, found in the schema alone.
-/
namespace PredicateSql

open Lowering

variable {n : Nat}

namespace Value

mutual

/-- The value with empty strings in place of its strings. -/
def outline : Value → Value
  | .string _ => .string ""
  | .list items => .list (outlines items)
  | v => v

def outlines : List Value → List Value
  | [] => []
  | item :: rest => item.outline :: outlines rest

end

theorem outlines_eq_map (items : List Value) : outlines items = items.map outline := by
  induction items with
  | nil => rfl
  | cons item rest ih => rw [outlines, ih, List.map_cons]

theorem isNull_outline (v : Value) : v.outline.isNull = v.isNull := by
  cases v <;> rfl

theorem eq_of_outline_eq_bool {v : Value} {b : Bool} (same : v.outline = (Value.bool b).outline) :
    v = .bool b := by
  cases v <;> simp_all [outline]

/-- What has the outline of a list is a list with the outlines of its items. -/
theorem exists_items {v : Value} {items : List Value}
    (same : v.outline = (Value.list items).outline) :
    ∃ items', v = .list items' ∧ items'.map outline = items.map outline := by
  cases v with
  | list items' =>
    refine ⟨items', rfl, ?_⟩
    simpa only [outline, list.injEq, outlines_eq_map] using same
  | _ => simp [outline] at same

variable {d : Dialect} {name : String} {w : Wildcard} {hint : Option ColumnKind}

/-- The pieces of a value tell nothing about its strings. -/
theorem pieces_outline (position : List Nat) (v : Value) :
    v.outline.pieces d name w hint position = v.pieces d name w hint position := by
  induction v using Value.inductionOn generalizing position with
  | list items ih =>
    have written : ∀ (rest : List Value) (i : Nat), (∀ item ∈ rest, item ∈ items) →
        itemPieces d name w hint position i (rest.map outline) =
          itemPieces d name w hint position i rest := by
      intro rest
      induction rest with
      | nil => exact fun _ _ => rfl
      | cons item rest restIh =>
        intro i held
        have first := ih item (held item List.mem_cons_self) (position ++ [i])
        have others := restIh (i + 1) fun item member => held item (List.mem_cons_of_mem _ member)
        simp only [List.map_cons, itemPieces, first, others, List.isEmpty_map]
    simp only [outline, outlines_eq_map, pieces]
    exact written items 0 fun _ member => member
  | scalar v other =>
    cases v with
    | list items => exact absurd rfl (other items)
    | _ => rfl

end Value

/-- The same names are bound, to the same values but for the contents of strings. -/
def Bindings.Alike (b b' : Bindings) : Prop :=
  ∀ name, (b'.get? name).map Value.outline = (b.get? name).map Value.outline

theorem Bindings.Alike.symm {b b' : Bindings} (h : b.Alike b') : b'.Alike b :=
  fun name => (h name).symm

def Bindings.Varies (b b' : Bindings) (name : String) : Prop :=
  b'.get? name ≠ b.get? name

def Column.isVerbatim (c : Column) : Bool :=
  !c.stringify && c.cipher.isNone

namespace Schema

variable (schema : Schema n)

/-- The entity that a navigation leads to. -/
def follow : Fin n → List String → Option (Fin n)
  | i, [] => some i
  | i, segment :: rest =>
    ((schema.entity i).navigationFor? segment).bind fun navigation =>
      follow navigation.target rest

def column? (i : Fin n) (path : MemberPath) : Option Column :=
  (schema.follow i path.navigation).bind fun j => (schema.entity j).columnFor? path.property

def rows? (i : Fin n) (path : MemberPath) : Option (Fin n) :=
  (schema.follow i path.navigation).bind fun j =>
    ((schema.entity j).navigationFor? path.property).map (·.target)

end Schema

namespace Expr

def memberPath? (e : Expr) : Option MemberPath :=
  match e.strip with
  | member path => some path
  | _ => none

def capturedName? (e : Expr) : Option String :=
  match e.strip with
  | captured name => some name
  | _ => none

/-- The member that literals beside the expression are compared with. -/
def subject? (e : Expr) : Option MemberPath :=
  match e.strip with
  | member path => some path
  | call .isNullOrEmpty receiver args => (emptinessTarget? receiver args).bind memberPath?
  | _ => none

def usesAmong (schema : Schema n) (i : Fin n) (operands : List Expr) : List (String × Column) :=
  (operands.filterMap capturedName?).flatMap fun name =>
    (operands.filterMap fun e => e.subject?.bind (schema.column? i)).map (name, ·)

/-- Where captured names are used in comparisons, patterns and tests of membership: each name with
the column that it is compared with. -/
def uses (schema : Schema n) : Expr → Fin n → List (String × Column)
  | binary op left right, i =>
    if op.isLogical then left.uses schema i ++ right.uses schema i
    else usesAmong schema i [left, right]
  | not e, i | convert e, i => e.uses schema i
  | call .any receiver [e], i =>
    match (receiver.bind memberPath?).bind (schema.rows? i) with
    | some j => e.uses schema j
    | none => []
  | call _ receiver args, i => usesAmong schema i (receiver.toList ++ args)
  | _, _ => []
termination_by structural e => e

theorem capturedName?_eq_some {e : Expr} {name : String} :
    e.capturedName? = some name ↔ e.strip = .captured name := by
  unfold capturedName?
  split
  next name' source => simp [source]
  next other =>
    refine ⟨nofun, fun source => absurd source (other name)⟩

theorem uses_call (schema : Schema n) (i : Fin n) {method : Method} (other : method ≠ .any)
    (receiver : Option Expr) (args : List Expr) :
    uses schema (call method receiver args) i =
      usesAmong schema i (receiver.toList ++ args) := by
  cases method <;> first | exact absurd rfl other | simp only [uses]

theorem uses_any {schema : Schema n} {i j : Fin n} {receiver : Option Expr} {path : MemberPath}
    {e : Expr} (collection : receiver.map strip = some (member path))
    (rows : schema.rows? i path = some j) :
    uses schema (call .any receiver [e]) i = e.uses schema j := by
  obtain ⟨e', rfl, stripped⟩ := Option.map_eq_some_iff.mp collection
  have found : (some e').bind memberPath? = some path := by simp [memberPath?, stripped]
  rw [uses, found, Option.bind_some, rows]

theorem mem_usesAmong {schema : Schema n} {i : Fin n} {operands : List Expr} {e e' : Expr}
    {name : String} {path : MemberPath} {column : Column} (held : e ∈ operands)
    (captured : e.capturedName? = some name) (held' : e' ∈ operands)
    (subject : e'.subject? = some path) (declared : schema.column? i path = some column) :
    (name, column) ∈ usesAmong schema i operands := by
  refine List.mem_flatMap.mpr ⟨name, List.mem_filterMap.mpr ⟨e, held, captured⟩, ?_⟩
  refine List.mem_map.mpr ⟨column, List.mem_filterMap.mpr ⟨e', held', ?_⟩, rfl⟩
  rw [subject]
  exact declared

end Expr

def LoweringContext.rebind (context : LoweringContext n) (b : Bindings) : LoweringContext n :=
  { context with bindings := b }

section Lowering

variable {context : LoweringContext n} {s t : Progress}

theorem walk_rebind (b : Bindings) (walked segments : List String) (owner : Origin n) :
    walk (context.rebind b) walked owner segments = walk context walked owner segments := by
  induction segments generalizing walked owner with
  | nil => rfl
  | cons segment rest ih =>
    simp only [walk, ih]
    rfl

theorem resolveColumn_rebind (b : Bindings) (origin : Origin n) (path : MemberPath) :
    resolveColumn (context.rebind b) origin path = resolveColumn context origin path := by
  simp only [resolveColumn, walk_rebind]
  rfl

theorem subquery_rebind (b : Bindings) (origin : Origin n) (path : MemberPath) :
    subquery (context.rebind b) origin path = subquery context origin path := by
  simp only [subquery, walk_rebind]
  rfl

theorem emptinessColumn_rebind (b : Bindings) (origin : Origin n) (receiver : Option Expr)
    (args : List Expr) : emptinessColumn (context.rebind b) origin receiver args =
      emptinessColumn context origin receiver args := by
  simp only [emptinessColumn, memberOperand, resolveColumn_rebind]

/-- The static resolution of a walk. -/
theorem walk_follow {walked segments : List String} {owner next : Origin n}
    (run : walk context walked owner segments s = (.ok next, t)) :
    context.schema.follow owner.entity segments = some next.entity := by
  induction segments generalizing walked owner s with
  | nil =>
    obtain ⟨rfl, -⟩ := pure_ok.mp run
    rfl
  | cons segment rest ih =>
    obtain ⟨middle, u, stepped, others⟩ := bind_ok.mp run
    have followed := ih others
    obtain ⟨navigation, found, -, ⟨join, -, rfl, -⟩ | ⟨-, columns, -, rfl, -⟩⟩ :=
      (step_ok context).mp stepped
    · rw [Schema.follow, found]
      exact followed
    · rw [Schema.follow, found]
      exact followed

/-- A member that is resolved is a column of the schema, and it takes literals as that one does. -/
theorem resolveColumn_column? {origin : Origin n} {path : MemberPath} {c : ColumnRef}
    (run : resolveColumn context origin path s = (.ok c, t)) :
    ∃ column, context.schema.column? origin.entity path = some column ∧
      (column.isVerbatim = true → c.isVerbatim = true) := by
  obtain ⟨-, owner, u, column, found, walked, declared, looked, rfl⟩ :=
    (resolveColumn_ok context).mp run
  refine ⟨column, ?_, fun verbatim => ?_⟩
  · rw [Schema.column?, walk_follow walked]
    exact declared
  · simp only [Column.isVerbatim, Bool.and_eq_true, Bool.not_eq_true'] at verbatim
    obtain ⟨named, sealed⟩ := verbatim
    simp only [named, Bool.false_eq_true, if_false] at looked
    obtain ⟨rfl, -⟩ := pure_ok.mp looked
    simp [ColumnRef.isVerbatim, sealed]

theorem subquery_rows? {origin : Origin n} {path : MemberPath} {q : Subquery n}
    (run : subquery context origin path s = (.ok q, t)) :
    context.schema.rows? origin.entity path = some q.child.entity := by
  obtain ⟨u, walked, -, found, -⟩ := (subquery_ok context).mp run
  rw [Schema.rows?, walk_follow walked]
  simp [found, Subquery.child]

end Lowering
end PredicateSql
