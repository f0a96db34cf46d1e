import Mathlib.Data.List.Nodup
import PredicateSql.Proofs.Lowering.Joining
import PredicateSql.Proofs.Quoting.Uses

/-!
What the names in a condition stand for. A scope starts from some rows and has joins; a navigation
leads from those rows to the rows of the join whose path it is. Every join continues the navigation
of an earlier one by one segment, and every column stands behind the name of the rows that its path
leads to.
-/
namespace PredicateSql

open Lowering

variable {n : Nat}

/-- The name of the rows that a navigation leads to: the one of the rows that it starts from, or the
alias of the join whose path it is. -/
def nameOf? (start : String) (joins : List JoinClause) : List String → Option String
  | [] => some start
  | p => (joins.find? (·.path = MemberPath.joined p)).map (·.aliasName)

def scopeNames (origin : Origin n) (joins : List JoinClause) : List String :=
  origin.qualifier :: joins.map (·.aliasName)

/-- In a scope that starts from `origin` and has these joins, the navigation leads to `rows`. -/
structure Leads (schema : Schema n) (joins : List JoinClause) (origin : Origin n) (p : List String)
    (rows : Origin n) : Prop where
  entity : schema.follow origin.entity p = some rows.entity
  name : nameOf? origin.qualifier joins p = some rows.qualifier

/-- The column is the one of the member at the path, behind the name of its rows. -/
structure Denotes (schema : Schema n) (joins : List JoinClause) (origin : Origin n)
    (path : MemberPath) (c : ColumnRef) : Prop where
  rows : ∃ rows column, Leads schema joins origin path.navigation rows ∧
    (schema.entity rows.entity).columnFor? path.property = some column ∧
    c.qualifier = rows.qualifier ∧ c.column = column.column ∧ c.kind = column.kind ∧
    c.cipher = column.cipher

/-- A left join of the rows that one more segment leads to. Its only condition is that a column of
its own equals a column of the rows that the segments before lead to; together these link the two
entities. -/
inductive JoinClause.Continues (schema : Schema n) (d : Dialect) (origin : Origin n)
    (earlier : List JoinClause) : JoinClause → Prop
  | intro {walked segment owner navigation columns aliasName}
      (canonical : Canonical (walked ++ [segment]))
      (parent : Leads schema earlier origin walked owner)
      (found : (schema.entity owner.entity).navigationFor? segment = some navigation)
      (single : navigation.many = false)
      (linked : linkColumns (schema.entity owner.entity) (schema.entity navigation.target)
        (MemberPath.joined (walked ++ [segment])) = .ok columns) :
      Continues schema d origin earlier
        ⟨MemberPath.joined (walked ++ [segment]), aliasName, .left,
          d.tableName (schema.entity navigation.target).table,
          [⟨⟨aliasName, columns.1⟩, ⟨owner.qualifier, columns.2⟩⟩]⟩

/-- No path is joined twice, and every join continues a navigation that is joined before it. -/
structure Linked (schema : Schema n) (d : Dialect) (origin : Origin n) (joins : List JoinClause) :
    Prop where
  distinct : (joins.map (·.path)).Nodup
  continues : ∀ earlier join later, joins = earlier ++ join :: later →
    join.Continues schema d origin earlier

theorem nameOf?_of_ne_nil {start : String} {joins : List JoinClause} {p : List String}
    (nonempty : p ≠ []) : nameOf? start joins p =
      (joins.find? (·.path = MemberPath.joined p)).map (·.aliasName) := by
  cases p with
  | nil => exact absurd rfl nonempty
  | cons => rfl

theorem Schema.follow_append (schema : Schema n) (i : Fin n) (p q : List String) :
    schema.follow i (p ++ q) = (schema.follow i p).bind fun j => schema.follow j q := by
  induction p generalizing i with
  | nil => rfl
  | cons segment rest ih =>
    simp only [List.cons_append, follow]
    cases (schema.entity i).navigationFor? segment with
    | none => rfl
    | some navigation => exact ih navigation.target

namespace Leads

variable {schema : Schema n} {joins more : List JoinClause} {origin rows : Origin n}
  {p : List String}

theorem refl (schema : Schema n) (joins : List JoinClause) (origin : Origin n) :
    Leads schema joins origin [] origin :=
  ⟨rfl, rfl⟩

/-- Later joins do not change where a navigation leads. -/
theorem mono (h : Leads schema joins origin p rows) (kept : joins <+: more) :
    Leads schema more origin p rows := by
  obtain ⟨later, rfl⟩ := kept
  refine ⟨h.entity, ?_⟩
  have name := h.name
  cases p with
  | nil => exact name
  | cons segment rest =>
    obtain ⟨join, found, same⟩ := Option.map_eq_some_iff.mp name
    simp only [nameOf?, List.find?_append, found, Option.some_or, Option.map_some, same]

theorem mem_scopeNames (h : Leads schema joins origin p rows) :
    rows.qualifier ∈ scopeNames origin joins := by
  have name := h.name
  cases p with
  | nil =>
    have same := Option.some.inj name
    exact same ▸ List.mem_cons_self
  | cons segment rest =>
    obtain ⟨join, found, same⟩ := Option.map_eq_some_iff.mp name
    have member := List.mem_map_of_mem (f := (·.aliasName)) (List.mem_of_find?_eq_some found)
    exact List.mem_cons_of_mem _ (same ▸ member)

/-- One more segment leads to the rows of the join of the longer path. -/
theorem step {segment : String} {navigation : Navigation n} {join : JoinClause}
    (h : Leads schema joins origin p rows)
    (found : (schema.entity rows.entity).navigationFor? segment = some navigation)
    (held : joins.find? (·.path = MemberPath.joined (p ++ [segment])) = some join) :
    Leads schema joins origin (p ++ [segment]) ⟨navigation.target, join.aliasName⟩ := by
  constructor
  · rw [Schema.follow_append, h.entity, Option.bind_some, Schema.follow, found]
    rfl
  · rw [nameOf?_of_ne_nil (by simp), held]
    rfl

end Leads

theorem Denotes.mono {schema : Schema n} {joins more : List JoinClause} {origin : Origin n}
    {path : MemberPath} {c : ColumnRef} (h : Denotes schema joins origin path c)
    (kept : joins <+: more) : Denotes schema more origin path c := by
  obtain ⟨rows, column, leads, rest⟩ := h.rows
  exact ⟨rows, column, leads.mono kept, rest⟩

theorem Denotes.mem_scopeNames {schema : Schema n} {joins : List JoinClause} {origin : Origin n}
    {path : MemberPath} {c : ColumnRef} (h : Denotes schema joins origin path c) :
    c.qualifier ∈ scopeNames origin joins := by
  obtain ⟨rows, column, leads, -, same, -⟩ := h.rows
  exact same ▸ leads.mem_scopeNames

namespace Linked

variable {schema : Schema n} {d : Dialect} {origin : Origin n} {joins : List JoinClause}

theorem nil (schema : Schema n) (d : Dialect) (origin : Origin n) : Linked schema d origin [] :=
  ⟨List.nodup_nil, fun _ _ _ split => absurd split (by simp)⟩

theorem of_append {more : List JoinClause} (h : Linked schema d origin (joins ++ more)) :
    Linked schema d origin joins := by
  constructor
  · have distinct := h.distinct
    rw [List.map_append] at distinct
    exact distinct.of_append_left
  · rintro earlier join later rfl
    exact h.continues earlier join (later ++ more) (by simp)

/-- A join of a path that is not joined yet may be added at the end. -/
theorem concat {join : JoinClause} (h : Linked schema d origin joins)
    (absent : joins.find? (·.path = join.path) = none)
    (continues : join.Continues schema d origin joins) :
    Linked schema d origin (joins ++ [join]) := by
  constructor
  · rw [List.map_append, List.map_singleton, ← List.concat_eq_append, List.nodup_concat]
    refine ⟨fun member => ?_, h.distinct⟩
    obtain ⟨other, held, same⟩ := List.mem_map.mp member
    have different := List.find?_eq_none.mp absent other held
    simp [same] at different
  · intro earlier other later split
    rcases List.eq_nil_or_concat later with rfl | ⟨rest, last, rfl⟩
    · obtain ⟨rfl, same⟩ := List.append_inj' split rfl
      obtain rfl := List.singleton_inj.mp same
      exact continues
    · rw [List.concat_eq_append, ← List.cons_append, ← List.append_assoc] at split
      exact h.continues earlier other rest (List.append_inj' split rfl).1

end Linked

section Members

variable (context : LoweringContext n) {origin : Origin n} {s t : Progress}

/-- A step leads one segment further, and the join that it may add continues the walk. -/
theorem step_leads {owner next : Origin n} {walked : List String} {segment : String}
    (canonical : Canonical (walked ++ [segment]))
    (linked : Linked context.schema context.dialect origin s.joins)
    (start : Leads context.schema s.joins origin walked owner)
    (run : step context owner (MemberPath.joined (walked ++ [segment])) segment s = (.ok next, t)) :
    Linked context.schema context.dialect origin t.joins ∧
      Leads context.schema t.joins origin (walked ++ [segment]) next := by
  obtain ⟨navigation, found, single, ⟨join, held, rfl, rfl⟩ | ⟨absent, columns, link, rfl, rfl⟩⟩ :=
    (step_ok context).mp run
  · exact ⟨linked, start.step found held⟩
  · have continues : (newJoin context owner navigation.target
        (MemberPath.joined (walked ++ [segment])) columns s.issued).Continues context.schema
          context.dialect origin s.joins := .intro canonical start found single link
    refine ⟨linked.concat absent continues, ?_⟩
    have held : (s.joins ++ [newJoin context owner navigation.target
        (MemberPath.joined (walked ++ [segment])) columns s.issued]).find?
          (·.path = MemberPath.joined (walked ++ [segment])) =
        some (newJoin context owner navigation.target (MemberPath.joined (walked ++ [segment]))
          columns s.issued) := by
      rw [List.find?_append, absent]
      simp [newJoin]
    exact (start.mono (List.prefix_append _ _)).step found held

/-- A walk leads where its segments lead. -/
theorem walk_leads {owner next : Origin n} {walked segments : List String}
    (canonical : ∀ segment ∈ walked ++ segments, IsSegment segment)
    (linked : Linked context.schema context.dialect origin s.joins)
    (start : Leads context.schema s.joins origin walked owner)
    (run : walk context walked owner segments s = (.ok next, t)) :
    Linked context.schema context.dialect origin t.joins ∧
      Leads context.schema t.joins origin (walked ++ segments) next := by
  induction segments generalizing walked owner s with
  | nil =>
    obtain ⟨rfl, rfl⟩ := pure_ok.mp run
    rw [List.append_nil]
    exact ⟨linked, start⟩
  | cons segment rest ih =>
    obtain ⟨middle, u, stepped, others⟩ := bind_ok.mp run
    have longer : walked ++ segment :: rest = walked ++ [segment] ++ rest := by simp
    rw [longer] at canonical ⊢
    have reached : Canonical (walked ++ [segment]) :=
      ⟨by simp, fun s member => canonical s (List.mem_append_left _ member)⟩
    obtain ⟨linked', leads⟩ := step_leads context reached linked start stepped
    exact ih canonical linked' leads others

/-- The navigation of a path leads from the rows of the scope. -/
theorem navigation_leads {next : Origin n} {path : MemberPath}
    (linked : Linked context.schema context.dialect origin s.joins)
    (run : walk context [] origin path.navigation s = (.ok next, t)) :
    Linked context.schema context.dialect origin t.joins ∧
      Leads context.schema t.joins origin path.navigation next := by
  have canonical : ∀ segment ∈ [] ++ path.navigation, IsSegment segment :=
    fun segment member => path.canonical segment (List.mem_of_mem_dropLast member)
  exact walk_leads context canonical linked (.refl _ _ _) run

theorem resolveColumn_denotes {path : MemberPath} {c : ColumnRef}
    (linked : Linked context.schema context.dialect origin s.joins)
    (run : resolveColumn context origin path s = (.ok c, t)) :
    Linked context.schema context.dialect origin t.joins ∧
      Denotes context.schema t.joins origin path c := by
  obtain ⟨-, rows, u, column, found, walked, declared, looked, rfl⟩ :=
    (resolveColumn_ok context).mp run
  obtain ⟨linked', leads⟩ := navigation_leads context linked walked
  rw [(lookup_kept looked).1]
  exact ⟨linked', rows, column, leads, declared, rfl, rfl, rfl, rfl⟩

end Members
end PredicateSql
