import PredicateSql.Proofs.Acceptance.Literals
import PredicateSql.Proofs.Scoping.Rows

/-!
Members and collections are found just where the entities lead to them. A join that is there already
has been found to be possible before, so it makes no difference which joins there are.
-/
namespace PredicateSql

open Lowering

variable {n : Nat}

def LoweringContext.vocabulary (context : LoweringContext n) : Vocabulary n :=
  ⟨context.schema, context.bindings, context.settings⟩

/-- Two entities can be linked just where columns are found that link them. -/
theorem linkColumns_ok {owner target : Entity n} {path : String} :
    (∃ columns, linkColumns owner target path = .ok columns) ↔ owner.Linkable target := by
  unfold linkColumns
  cases forward : owner.foreignKeyTo? target with
  | some fk =>
    cases key : target.primaryKey with
    | ok column => exact ⟨fun _ => .forward forward key, fun _ => ⟨_, rfl⟩⟩
    | error e =>
      refine ⟨fun ⟨columns, linked⟩ => ?_, fun linkable => ?_⟩
      · simp [Except.map] at linked
      · cases linkable with
        | forward _ keyed => simp [key] at keyed
        | backward unrelated => simp [forward] at unrelated
  | none =>
    cases backward : target.foreignKeyTo? owner with
    | some fk =>
      cases key : owner.primaryKey with
      | ok column => exact ⟨fun _ => .backward forward backward key, fun _ => ⟨_, rfl⟩⟩
      | error e =>
        refine ⟨fun ⟨columns, linked⟩ => ?_, fun linkable => ?_⟩
        · simp [Except.map] at linked
        · cases linkable with
          | forward refers => simp [forward] at refers
          | backward _ _ keyed => simp [key] at keyed
    | none =>
      refine ⟨fun ⟨columns, linked⟩ => ?_, fun linkable => ?_⟩
      · simp at linked
      · cases linkable with
        | forward refers => simp [forward] at refers
        | backward _ refers => simp [backward] at refers

/-- The join of a longer path was found to be possible when it was added. -/
theorem Linked.linkable {schema : Schema n} {d : Dialect} {origin owner : Origin n}
    {joins : List JoinClause} {walked : List String} {segment : String}
    {navigation : Navigation n} {join : JoinClause} (h : Linked schema d origin joins)
    (canonical : Canonical (walked ++ [segment])) (start : Leads schema joins origin walked owner)
    (found : (schema.entity owner.entity).navigationFor? segment = some navigation)
    (held : joins.find? (·.path = MemberPath.joined (walked ++ [segment])) = some join) :
    (schema.entity owner.entity).Linkable (schema.entity navigation.target) := by
  have path : join.path = MemberPath.joined (walked ++ [segment]) := by
    simpa using List.find?_some held
  obtain ⟨earlier, later, split⟩ := List.append_of_mem (List.mem_of_find?_eq_some held)
  have continues := h.continues earlier join later split
  cases continues with
  | @intro walked' segment' owner' navigation' columns aliasName canonical' parent found'
      single linked =>
    have same := MemberPath.joined_inj canonical' canonical path
    obtain ⟨rfl, last⟩ := List.append_inj' same rfl
    obtain rfl := List.singleton_inj.mp last
    -- The same segments lead to the same entity.
    have owners : owner'.entity = owner.entity :=
      Option.some.inj (parent.entity.symm.trans start.entity)
    rw [owners] at found' linked
    obtain rfl := Option.some.inj (found.symm.trans found')
    exact linkColumns_ok.mp ⟨columns, linked⟩

section Members

variable (context : LoweringContext n) {origin : Origin n} {s t : Progress}

theorem step_enums {owner next : Origin n} {path segment : String}
    (run : step context owner path segment s = (.ok next, t)) : t.enums = s.enums := by
  obtain ⟨navigation, -, -, ⟨join, -, -, rfl⟩ | ⟨-, columns, -, -, rfl⟩⟩ := (step_ok context).mp run
  · rfl
  · rfl

/-- What a walk has reached can be reached. -/
theorem walk_reaches {owner next : Origin n} {walked segments : List String}
    (canonical : ∀ segment ∈ walked ++ segments, IsSegment segment)
    (linked : Linked context.schema context.dialect origin s.joins)
    (start : Leads context.schema s.joins origin walked owner)
    (run : walk context walked owner segments s = (.ok next, t)) :
    context.schema.Reaches owner.entity segments next.entity ∧ t.enums = s.enums := by
  induction segments generalizing walked owner s with
  | nil =>
    obtain ⟨rfl, rfl⟩ := pure_ok.mp run
    exact ⟨.here, rfl⟩
  | cons segment rest ih =>
    obtain ⟨middle, u, stepped, others⟩ := bind_ok.mp run
    have longer : walked ++ segment :: rest = walked ++ [segment] ++ rest := by simp
    rw [longer] at canonical
    have reached : Canonical (walked ++ [segment]) :=
      ⟨by simp, fun s member => canonical s (List.mem_append_left _ member)⟩
    obtain ⟨linked', leads⟩ := step_leads context reached linked start stepped
    obtain ⟨reaches, kept⟩ := ih canonical linked' leads others
    refine ⟨?_, kept.trans (step_enums context stepped)⟩
    obtain ⟨navigation, found, single, ⟨join, held, rfl, rfl⟩ | ⟨-, columns, link, rfl, rfl⟩⟩ :=
      (step_ok context).mp stepped
    · exact .step found single (linked.linkable reached start found held) reaches
    · exact .step found single (linkColumns_ok.mp ⟨columns, link⟩) reaches

/-- What can be reached is reached, whatever joins there are. -/
theorem walk_of_reaches {i j : Fin n} {segments : List String}
    (reaches : context.schema.Reaches i segments j) (walked : List String) {owner : Origin n}
    (entity : owner.entity = i) (s : Progress) :
    ∃ next t, walk context walked owner segments s = (.ok next, t) ∧ next.entity = j ∧
      t.enums = s.enums := by
  induction reaches generalizing walked owner s with
  | here => exact ⟨owner, s, pure_ok.mpr ⟨rfl, rfl⟩, entity, rfl⟩
  | @step i j segment rest navigation found single linkable others ih =>
    subst entity
    have link : ∃ columns, linkColumns (context.schema.entity owner.entity)
        (context.schema.entity navigation.target) (MemberPath.joined (walked ++ [segment])) =
        .ok columns := linkColumns_ok.mpr linkable
    obtain ⟨columns, link⟩ := link
    have stepped : ∃ next u,
        step context owner (MemberPath.joined (walked ++ [segment])) segment s =
        (.ok next, u) ∧ next.entity = navigation.target ∧ u.enums = s.enums := by
      cases held : s.joins.find? (·.path = MemberPath.joined (walked ++ [segment])) with
      | some join =>
        exact ⟨⟨navigation.target, join.aliasName⟩, s, (step_ok context).mpr
          ⟨navigation, found, single, .inl ⟨join, held, rfl, rfl⟩⟩, rfl, rfl⟩
      | none =>
        exact ⟨_, _, (step_ok context).mpr
          ⟨navigation, found, single, .inr ⟨held, columns, link, rfl, rfl⟩⟩, rfl, rfl⟩
    obtain ⟨middle, u, first, target, kept⟩ := stepped
    obtain ⟨next, t, rest, reached, kept'⟩ := ih (walked ++ [segment]) target u
    exact ⟨next, t, bind_ok.mpr ⟨middle, u, first, rest⟩, reached, kept'.trans kept⟩

/-- The navigation of a path starts from the rows of the scope. -/
theorem navigation_reaches {next : Origin n} {path : MemberPath}
    (linked : Linked context.schema context.dialect origin s.joins)
    (run : walk context [] origin path.navigation s = (.ok next, t)) :
    context.schema.Reaches origin.entity path.navigation next.entity ∧ t.enums = s.enums := by
  have canonical : ∀ segment ∈ [] ++ path.navigation, IsSegment segment :=
    fun segment member => path.canonical segment (List.mem_of_mem_dropLast member)
  exact walk_reaches context canonical linked (.refl _ _ _) run

omit context in
/-- A column with the names that were found for it describes its member. -/
theorem lookup_describes {column : Column} {e : Entity n} {property : String}
    {found : Option EnumDef} (qualifier : String)
    (looked : (if column.stringify then enumFor e property else pure none) s = (.ok found, t)) :
    ColumnRef.Describes t.enums
      ⟨qualifier, column.column, column.kind, found.map fun _ => EnumRegistry.keyOf e property,
        column.cipher⟩ ⟨column.kind, found, column.cipher⟩ := by
  cases found with
  | none => exact ⟨rfl, rfl, rfl, nofun⟩
  | some d =>
    have held := lookup_known looked
    refine ⟨rfl, rfl, held.symm, fun key same => ?_⟩
    obtain rfl := Option.some.inj same
    exact ⟨d, held⟩

/-- A column that was resolved is that of a member that the path leads to. -/
theorem resolveColumn_resolves {path : MemberPath} {c : ColumnRef}
    (linked : Linked context.schema context.dialect origin s.joins)
    (run : resolveColumn context origin path s = (.ok c, t)) :
    ∃ m, context.schema.Resolves origin.entity s.enums path m t.enums ∧ c.Describes t.enums m := by
  obtain ⟨nonempty, rows, u, column, found, walked, declared, looked, rfl⟩ :=
    (resolveColumn_ok context).mp run
  obtain ⟨reaches, kept⟩ := navigation_reaches context linked walked
  have names := (lookup_ok.mp looked).1.symm
  rw [kept] at names
  exact ⟨⟨column.kind, found, column.cipher⟩,
    ⟨nonempty, rows.entity, column, reaches, declared, rfl, rfl, names⟩, lookup_describes _ looked⟩

/-- A member that the path leads to is resolved. -/
theorem resolveColumn_of_resolves {i : Fin n} {r r' : EnumRegistry} {path : MemberPath} {m : Target}
    (resolves : context.schema.Resolves i r path m r') (entity : origin.entity = i)
    (enums : s.enums = r) :
    ∃ c t, resolveColumn context origin path s = (.ok c, t) ∧ t.enums = r' ∧
      c.Describes r' m := by
  obtain ⟨kind, found, cipher⟩ := m
  obtain ⟨nonempty, j, column, reaches, declared, rfl, rfl, names⟩ := resolves
  obtain ⟨rows, u, walked, reached, kept⟩ := walk_of_reaches context reaches [] entity s
  subst reached
  rw [← enums, ← kept] at names
  have looked : (if column.stringify then
      enumFor (context.schema.entity rows.entity) path.property else pure none) u =
      (.ok found, { u with enums := r' }) := lookup_ok.mpr ⟨names.symm, rfl⟩
  have run : resolveColumn context origin path s = (.ok _, { u with enums := r' }) :=
    (resolveColumn_ok context).mpr
      ⟨nonempty, rows, u, column, found, walked, declared, looked, rfl⟩
  exact ⟨_, _, run, rfl, lookup_describes rows.qualifier looked⟩

/-- A subquery is about a collection that the path leads to. -/
theorem subquery_collection {path : MemberPath} {q : Subquery n}
    (linked : Linked context.schema context.dialect origin s.joins)
    (run : subquery context origin path s = (.ok q, t)) :
    context.schema.Collection origin.entity path q.child.entity ∧ t.enums = s.enums := by
  obtain ⟨u, walked, -, found, many, foreignKey, key, -, -, rfl⟩ := (subquery_ok context).mp run
  obtain ⟨reaches, kept⟩ := navigation_reaches context linked walked
  exact ⟨⟨_, _, _, _, reaches, found, many, rfl, foreignKey, key⟩, kept⟩

theorem subquery_of_collection {i child : Fin n} {path : MemberPath}
    (collection : context.schema.Collection i path child) (entity : origin.entity = i)
    (s : Progress) :
    ∃ q t, subquery context origin path s = (.ok q, t) ∧ q.child.entity = child ∧
      t.enums = s.enums := by
  obtain ⟨j, navigation, fk, key, reaches, found, many, rfl, foreignKey, keyed⟩ := collection
  obtain ⟨outer, u, walked, reached, kept⟩ := walk_of_reaches context reaches [] entity s
  subst reached
  let q : Subquery n := ⟨path, outer, navigation, fk, key, context.aliases u.issued,
    context.aliases (u.issued + 1)⟩
  have run : subquery context origin path s = (.ok q, { u with issued := u.issued + 2 }) :=
    (subquery_ok context).mpr ⟨u, walked, rfl, found, many, foreignKey, keyed, rfl, rfl, rfl⟩
  exact ⟨q, _, run, rfl, kept⟩

end Members
end PredicateSql
