import Mathlib.Logic.Function.Basic
import PredicateSql.Proofs.Meaning.Reading
import PredicateSql.Proofs.Scoping.Names

/-!
What conditions say about the rows of a database. Values may be null, and a join finds no row whose
value is null. Joins are taken one after the other; a left join goes on with a row of nulls where it
finds none. The tests between columns and literals are left open.
-/
namespace PredicateSql

variable {n : Nat} {V : Type}

/-- The value of each column; `none` is null. -/
abbrev Row (V : Type) := String → Option V

def Row.nulls : Row V :=
  fun _ => none

/-- The rows of each table, by the name that it is written with. -/
abbrev Database (V : Type) := String → List (Row V)

/-- The rows that names stand for. -/
abbrev Rows (V : Type) := String → Option (Row V)

def Rows.set (rows : Rows V) (name : String) (row : Row V) : Rows V :=
  Function.update rows name (some row)

def Rows.only (name : String) (row : Row V) : Rows V :=
  Rows.set (fun _ => none) name row

def QualifiedColumn.value (rows : Rows V) (c : QualifiedColumn) : Option V :=
  (rows c.qualifier).bind fun row => row c.column

def ColumnRef.value (rows : Rows V) (c : ColumnRef) : Option V :=
  QualifiedColumn.value rows ⟨c.qualifier, c.column⟩

variable [DecidableEq V]

/-- Two values are equal, and neither is null. -/
def ColumnEquation.holds (rows : Rows V) (e : ColumnEquation) : Bool :=
  match e.left.value rows, e.right.value rows with
  | some v, some w => v = w
  | _, _ => false

namespace JoinClause

def matching (db : Database V) (rows : Rows V) (j : JoinClause) : List (Row V) :=
  (db j.table).filter fun row => j.equations.all (·.holds (rows.set j.aliasName row))

/-- The rows that a join goes on with. -/
def partners (db : Database V) (rows : Rows V) (j : JoinClause) : List (Row V) :=
  match j.joinType, j.matching db rows with
  | .left, [] => [Row.nulls]
  | _, found => found

end JoinClause

/-- The combinations of rows of some joins. -/
def joined (db : Database V) : List JoinClause → Rows V → List (Rows V)
  | [], rows => [rows]
  | j :: rest, rows =>
    (j.partners db rows).flatMap fun row => joined db rest (rows.set j.aliasName row)

/-- The combinations of rows that a test for existence goes through. -/
def ExistsClause.candidates (db : Database V) (rows : Rows V) (e : ExistsClause) : List (Rows V) :=
  (db e.childTable).flatMap fun row =>
    joined db (e.correlation :: e.joins) (rows.set e.childAlias row)

/-- The truth value of a condition for the rows that names stand for; `test` says when a test holds
for the values of its columns. -/
def Condition.value (test : Condition n → List (Option V) → Truth) (schema : Schema n) (d : Dialect)
    (db : Database V) : Condition n → Rows V → Truth
  | logical op left right, rows =>
    if op = .or then (left.value test schema d db rows).disjunction
      (right.value test schema d db rows)
    else (left.value test schema d db rows).conjunction (right.value test schema d db rows)
  | not operand, rows => (operand.value test schema d db rows).negation
  | any q, rows => some !((q.clause schema d [] none).candidates db rows).isEmpty
  | anyWhere q joins k, rows =>
    let clause := q.clause schema d joins (some (k.sql schema d))
    some ((clause.candidates db rows).any fun found => k.value test schema d db found = some true)
  | k, rows => test k (k.columns.map (·.value rows))

theorem ColumnEquation.holds_iff {rows : Rows V} {e : ColumnEquation} :
    e.holds rows = true ↔ ∃ v, e.left.value rows = some v ∧ e.right.value rows = some v := by
  unfold holds
  cases left : e.left.value rows with
  | none => simp
  | some v =>
    cases right : e.right.value rows with
    | none => simp
    | some w => simp [eq_comm]

def Rows.Agree (names : List String) (rows rows' : Rows V) : Prop :=
  ∀ name ∈ names, rows name = rows' name

namespace Rows

omit [DecidableEq V]

variable {names : List String} {rows rows' : Rows V}

@[simp] theorem set_self (rows : Rows V) (name : String) (row : Row V) :
    rows.set name row name = some row := by
  simp [set]

@[simp] theorem set_other {name other : String} (different : other ≠ name) (rows : Rows V)
    (row : Row V) : rows.set name row other = rows other := by
  simp [set, different]

theorem Agree.symm (h : Agree names rows rows') : Agree names rows' rows :=
  fun name member => (h name member).symm

/-- One more name for the same row. -/
theorem Agree.set (h : Agree names rows rows') (name : String) (row : Row V) :
    Agree (name :: names) (rows.set name row) (rows'.set name row) := by
  intro other member
  by_cases same : other = name
  · simp [same]
  · have old : other ∈ names := by simpa [same] using member
    rw [set_other same, set_other same, h other old]

theorem Agree.subset {fewer : List String} (h : Agree names rows rows')
    (subset : ∀ name ∈ fewer, name ∈ names) : Agree fewer rows rows' :=
  fun name member => h name (subset name member)

theorem Agree.value_eq (h : Agree names rows rows') {c : QualifiedColumn}
    (member : c.qualifier ∈ names) : c.value rows = c.value rows' := by
  simp only [QualifiedColumn.value, h c.qualifier member]

end Rows

section Agreement

variable {db : Database V} {names : List String} {rows rows' : Rows V}

/-- A join finds the same rows for the same rows behind the names that it mentions. -/
theorem JoinClause.partners_congr {j : JoinClause} (agree : Rows.Agree names rows rows')
    (mentions : ∀ name ∈ j.mentions, name = j.aliasName ∨ name ∈ names) :
    j.partners db rows = j.partners db rows' := by
  have same : j.matching db rows = j.matching db rows' := by
    unfold matching
    refine List.filter_congr fun row _ => ?_
    rw [Bool.eq_iff_iff, List.all_eq_true, List.all_eq_true]
    refine forall₂_congr fun e member => ?_
    have both := agree.set j.aliasName row
    have values : ∀ c, c = e.left ∨ c = e.right →
        c.value (rows.set j.aliasName row) = c.value (rows'.set j.aliasName row) := by
      intro c side
      have mentioned : c.qualifier ∈ j.mentions := by
        refine List.mem_flatMap.mpr ⟨e, member, ?_⟩
        rcases side with rfl | rfl <;> simp
      exact both.value_eq (List.mem_cons.mpr (mentions _ mentioned))
    rw [ColumnEquation.holds_iff, ColumnEquation.holds_iff, values _ (.inl rfl),
      values _ (.inr rfl)]
  unfold partners
  rw [same]

variable {schema : Schema n} {d : Dialect} {origin : Origin n}

/-- Linked joins lead to the same rows from the same rows. -/
theorem Linked.joined_congr {earlier later : List JoinClause}
    (linked : Linked schema d origin (earlier ++ later))
    (agree : Rows.Agree (scopeNames origin earlier) rows rows') {found : Rows V}
    (reached : found ∈ joined db later rows) :
    ∃ found' ∈ joined db later rows',
      Rows.Agree (scopeNames origin (earlier ++ later)) found found' := by
  induction later generalizing earlier rows rows' with
  | nil =>
    obtain rfl := List.mem_singleton.mp reached
    rw [List.append_nil]
    exact ⟨rows', List.mem_singleton_self _, agree⟩
  | cons j rest ih =>
    obtain ⟨row, partner, reached⟩ := List.mem_flatMap.mp reached
    have longer : earlier ++ j :: rest = earlier ++ [j] ++ rest := by simp
    -- A join mentions the names of those before it and its own.
    have upTo : Linked schema d origin (earlier ++ [j]) := by
      rw [longer] at linked
      exact linked.of_append
    have mentions : ∀ name ∈ j.mentions, name = j.aliasName ∨ name ∈ scopeNames origin earlier := by
      intro name mentioned
      have known := upTo.mentions (List.mem_append_right _ (List.mem_singleton_self j)) mentioned
      simp only [scopeNames, List.map_append, List.mem_cons, List.mem_append, List.map_cons,
        List.map_nil, List.not_mem_nil, or_false] at known ⊢
      tauto
    have next : Rows.Agree (scopeNames origin (earlier ++ [j])) (rows.set j.aliasName row)
        (rows'.set j.aliasName row) := by
      refine (agree.set j.aliasName row).subset fun name member => ?_
      simp only [scopeNames, List.map_append, List.mem_cons, List.mem_append, List.map_cons,
        List.map_nil, List.not_mem_nil, or_false] at member ⊢
      tauto
    rw [longer] at linked ⊢
    obtain ⟨found', reached', agree'⟩ := ih linked next reached
    rw [JoinClause.partners_congr agree mentions] at partner
    exact ⟨found', List.mem_flatMap.mpr ⟨row, partner, reached'⟩, agree'⟩

/-- A test for existence goes through the same combinations of its own rows, for the same outer
row. -/
theorem Subquery.candidates_congr {q : Subquery n} {nested : List JoinClause} {text : Option String}
    (linked : Linked schema d q.child nested)
    (agree : Rows.Agree [q.outer.qualifier] rows rows') {found : Rows V}
    (candidate : found ∈ (q.clause schema d nested text).candidates db rows) :
    ∃ found' ∈ (q.clause schema d nested text).candidates db rows',
      Rows.Agree (scopeNames q.child nested) found found' := by
  obtain ⟨row, child, reached⟩ := List.mem_flatMap.mp candidate
  obtain ⟨copy, partner, reached⟩ := List.mem_flatMap.mp reached
  have outer := agree.set q.childAlias row
  have mentions : ∀ name ∈ (q.clause schema d nested text).correlation.mentions,
      name = (q.clause schema d nested text).correlation.aliasName ∨
        name ∈ [q.childAlias, q.outer.qualifier] := by
    intro name mentioned
    simp only [clause, JoinClause.mentions, List.flatMap_cons, List.flatMap_nil, List.mem_append,
      List.mem_cons, List.not_mem_nil, or_false] at mentioned ⊢
    tauto
  have own : Rows.Agree (scopeNames q.child []) ((rows.set q.childAlias row).set q.ownerAlias copy)
      ((rows'.set q.childAlias row).set q.ownerAlias copy) := by
    refine (outer.set q.ownerAlias copy).subset fun name member => ?_
    obtain rfl := List.mem_singleton.mp member
    exact List.mem_cons_of_mem _ List.mem_cons_self
  have whole : Linked schema d q.child ([] ++ nested) := linked
  obtain ⟨found', reached', agree'⟩ := whole.joined_congr own reached
  have partner' : copy ∈ (q.clause schema d nested text).correlation.partners db
      (rows.set q.childAlias row) := partner
  rw [JoinClause.partners_congr outer mentions] at partner'
  refine ⟨found', ?_, agree'⟩
  exact List.mem_flatMap.mpr ⟨row, child, List.mem_flatMap.mpr ⟨copy, partner', reached'⟩⟩

end Agreement
end PredicateSql
