import PredicateSql.Proofs.Meaning.Database
import PredicateSql.Proofs.Scoping.Aliases

/-!
The test for a row of a collection means that there is one: a row that refers to the outer row and,
where a condition is given, satisfies it with some rows of the joins that continue from it. The copy
of the owner's table changes nothing, since it can only be the outer row or one with the same key.
What is meant is what the text says: its tables, names and columns are those of the rows that it is
about.
-/
namespace PredicateSql

variable {n : Nat} {V : Type} [DecidableEq V]

/-- The line joins all rows of a table with those before it, and keeps those that have none. There
is one condition: a column equals another. -/
def JoinClause.IsLeftJoinLine (d : Dialect) (j : JoinClause) (line : String) : Prop :=
  ∃ left right, j.joinType = .left ∧ j.equations = [⟨left, right⟩] ∧
    line = "LEFT JOIN " ++ j.table ++ " " ++ j.aliasName ++ " ON " ++
      d.qualifiedColumn left.qualifier left.column ++ " = " ++
      d.qualifiedColumn right.qualifier right.column

/-- The text tests that the child table has a row: one that refers to a row of the owner's table
with the key of the outer row and, with the rows of left joins, satisfies the condition. -/
def Subquery.IsExistsText (schema : Schema n) (d : Dialect) (q : Subquery n)
    (nested : List JoinClause) (condition : Option String) (text : String) : Prop :=
  ∃ joins, List.Forall₂ (JoinClause.IsLeftJoinLine d) nested joins ∧
    text = "EXISTS (" ++ String.intercalate "\n"
      ([
        "SELECT 1 FROM " ++ d.tableName (schema.entity q.navigation.target).table ++ " " ++
          q.childAlias,
        "INNER JOIN " ++ d.tableName (schema.entity q.outer.entity).table ++ " " ++ q.ownerAlias ++
          " ON " ++ d.qualifiedColumn q.ownerAlias q.key.column ++ " = " ++
          d.qualifiedColumn q.childAlias q.foreignKey.column ++
          " AND " ++ d.qualifiedColumn q.ownerAlias q.key.column ++ " = " ++
          d.qualifiedColumn q.outer.qualifier q.key.column] ++
        joins ++ (condition.map ("WHERE " ++ ·)).toList) ++ ")"

/-- The test for a row of a collection is written as one, and it is true just where there is such a
row, for every outer row: a row of the owner's table, or the row of nulls that a left join goes on
with. -/
def MeansExistence (V : Type) [DecidableEq V] (schema : Schema n) (d : Dialect) : ScopeProperty n :=
  fun origin joins e k => ∀ receiver args, e = .call .any receiver args →
    ∃ q nested path, k.subquery? = some (q, nested) ∧ k.nested?.isSome = !args.isEmpty ∧
      e.references = [path] ∧ q.Stands schema joins origin path ∧
      q.IsExistsText schema d nested (k.nested?.map (·.sql schema d)) (k.sql schema d) ∧
      ∀ test (db : Database V) (rows : Rows V) (outer : Row V),
        rows q.outer.qualifier = some outer →
        outer ∈ db (d.tableName (schema.entity q.outer.entity).table) ∨ outer = Row.nulls →
        (k.value test schema d db rows = some true ↔
          ∃ row ∈ db (d.tableName (schema.entity q.navigation.target).table),
            (∃ v, row q.foreignKey.column = some v ∧ outer q.key.column = some v) ∧
            ∀ inner ∈ k.nested?, ∃ found ∈ joined db nested (.only q.childAlias row),
              inner.value test schema d db found = some true)

section Text

variable {schema : Schema n} {d : Dialect} {origin : Origin n} {joins : List JoinClause}

theorem JoinClause.Continues.isLeftJoinLine {j : JoinClause}
    (h : j.Continues schema d origin joins) : j.IsLeftJoinLine d (j.sql d) := by
  cases h
  refine ⟨_, _, rfl, rfl, ?_⟩
  simp only [JoinClause.sql, JoinType.keyword, ColumnEquation.sql, QualifiedColumn.sql,
    List.map_cons, List.map_nil, String.intercalate_singleton, String.append_assoc]
  rfl

theorem Linked.isLeftJoinLine (linked : Linked schema d origin joins) :
    List.Forall₂ (JoinClause.IsLeftJoinLine d) joins (joins.map (·.sql d)) := by
  rw [List.forall₂_map_right_iff, List.forall₂_same]
  intro j member
  obtain ⟨earlier, later, rfl⟩ := List.append_of_mem member
  exact (linked.continues earlier j later rfl).isLeftJoinLine

theorem Subquery.isExistsText {q : Subquery n} {nested : List JoinClause}
    (linked : Linked schema d q.child nested) (condition : Option String) :
    q.IsExistsText schema d nested condition ((q.clause schema d nested condition).sql d) := by
  refine ⟨_, linked.isLeftJoinLine, ?_⟩
  have correlation : (q.clause schema d nested condition).correlation.sql d =
      "INNER JOIN " ++ d.tableName (schema.entity q.outer.entity).table ++ " " ++ q.ownerAlias ++
        " ON " ++ d.qualifiedColumn q.ownerAlias q.key.column ++ " = " ++
        d.qualifiedColumn q.childAlias q.foreignKey.column ++
        " AND " ++ d.qualifiedColumn q.ownerAlias q.key.column ++ " = " ++
        d.qualifiedColumn q.outer.qualifier q.key.column := by
    simp only [clause, JoinClause.sql, JoinType.keyword, ColumnEquation.sql, QualifiedColumn.sql,
      List.map_cons, List.map_nil, String.intercalate_cons_cons, String.intercalate_singleton,
      String.append_assoc]
    rfl
  rw [ExistsClause.sql, correlation]
  rfl

end Text

section Agreement

variable {schema : Schema n} {d : Dialect} {test : Condition n → List (Option V) → Truth}
  {db : Database V} {origin : Origin n} {joins : List JoinClause} {rows rows' : Rows V}

omit [DecidableEq V] in
/-- The columns of members have the same values for the same rows of the scope. -/
theorem Denotes.values_congr {paths : List MemberPath} {columns : List ColumnRef}
    (h : List.Forall₂ (Denotes schema joins origin) paths columns)
    (agree : Rows.Agree (scopeNames origin joins) rows rows') :
    columns.map (·.value rows) = columns.map (·.value rows') := by
  refine List.map_congr_left fun c member => ?_
  have known := Denotes.qualifiers h (List.mem_map_of_mem (f := (·.qualifier)) member)
  exact agree.value_eq (c := ⟨c.qualifier, c.column⟩) known

/-- Whether there are candidates depends on the outer row only. -/
theorem Subquery.any_congr {q : Subquery n} {nested : List JoinClause} {text : Option String}
    {P P' : Rows V → Bool} (linked : Linked schema d q.child nested)
    (agree : Rows.Agree [q.outer.qualifier] rows rows')
    (same : ∀ found found', Rows.Agree (scopeNames q.child nested) found found' →
      P found = P' found') :
    ((q.clause schema d nested text).candidates db rows).any P =
      ((q.clause schema d nested text).candidates db rows').any P' := by
  rw [Bool.eq_iff_iff, List.any_eq_true, List.any_eq_true]
  constructor
  · rintro ⟨found, candidate, holds⟩
    obtain ⟨found', candidate', agree'⟩ := candidates_congr linked agree candidate
    exact ⟨found', candidate', same found found' agree' ▸ holds⟩
  · rintro ⟨found', candidate', holds⟩
    obtain ⟨found, candidate, agree'⟩ := candidates_congr linked agree.symm candidate'
    exact ⟨found, candidate, (same found found' agree'.symm).symm ▸ holds⟩

/-- The value of a condition depends on the rows of its scope only. -/
theorem Throughout.value_congr {e : Expr} {k : Condition n}
    (h : Throughout (Placed schema d) origin joins e k)
    (agree : Rows.Agree (scopeNames origin joins) rows rows') :
    k.value test schema d db rows = k.value test schema d db rows' := by
  have outer : ∀ {origin joins e k} {q : Subquery n} {nested} {rows rows' : Rows V},
      Placed schema d origin joins e k → k.subquery? = some (q, nested) →
      Rows.Agree (scopeNames origin joins) rows rows' →
      Rows.Agree [q.outer.qualifier] rows rows' := by
    intro origin joins e k q nested rows rows' placed found agree
    obtain ⟨⟨path, -, stands⟩, -⟩ := placed.rows q nested found
    refine agree.subset fun name member => ?_
    obtain rfl := List.mem_singleton.mp member
    exact stands.outer.mem_scopeNames
  induction h generalizing rows rows' with
  | logical _ _ _ first second => simp only [Condition.value, first agree, second agree]
  | not _ inner => simp only [Condition.value, inner agree]
  | convert _ inner => exact inner agree
  | inverted _ here =>
    have values := Denotes.values_congr (here.columns rfl) agree
    simp only [Condition.value, values]
  | @test origin joins e k leaf kind here =>
    cases k with
    | logical => cases kind
    | not => cases kind
    | anyWhere => cases kind
    | any q =>
      have linked := (here.rows _ _ rfl).2
      have inhabited : ∀ candidates : List (Rows V),
          (!candidates.isEmpty) = candidates.any fun _ => true := by
        intro candidates
        cases candidates <;> simp
      simp only [Condition.value, inhabited, Option.some.injEq]
      exact Subquery.any_congr linked (outer here rfl agree) fun _ _ _ => rfl
    | _ =>
      have values := Denotes.values_congr (here.columns rfl) agree
      simp only [Condition.value, values]
  | anyWhere here inner ih =>
    have linked := (here.rows _ _ rfl).2
    simp only [Condition.value, Option.some.injEq]
    refine Subquery.any_congr linked (outer here rfl agree) fun found found' agree' => ?_
    rw [ih agree']

end Agreement

namespace Subquery

variable {schema : Schema n} {d : Dialect} {db : Database V} {rows : Rows V} {outer : Row V}
  {q : Subquery n}

/-- The names of a subquery and of its outer rows are different. -/
structure Apart (q : Subquery n) : Prop where
  owner : q.childAlias ≠ q.ownerAlias
  outerChild : q.outer.qualifier ≠ q.childAlias
  outerOwner : q.outer.qualifier ≠ q.ownerAlias

/-- The copies of the owner that go with a child: rows with the key of the outer row, which the
child refers to. -/
theorem mem_copies (apart : q.Apart) (denotes : rows q.outer.qualifier = some outer)
    {row copy : Row V} :
    copy ∈ (q.correlation schema d).partners db (rows.set q.childAlias row) ↔
      copy ∈ db (d.tableName (schema.entity q.outer.entity).table) ∧
        ∃ v, copy q.key.column = some v ∧ row q.foreignKey.column = some v ∧
          outer q.key.column = some v := by
  have ofCopy : QualifiedColumn.value ((rows.set q.childAlias row).set q.ownerAlias copy)
      ⟨q.ownerAlias, q.key.column⟩ = copy q.key.column := by
    simp [QualifiedColumn.value]
  have ofRow : QualifiedColumn.value ((rows.set q.childAlias row).set q.ownerAlias copy)
      ⟨q.childAlias, q.foreignKey.column⟩ = row q.foreignKey.column := by
    simp [QualifiedColumn.value, apart.owner]
  have ofOuter : QualifiedColumn.value ((rows.set q.childAlias row).set q.ownerAlias copy)
      ⟨q.outer.qualifier, q.key.column⟩ = outer q.key.column := by
    simp [QualifiedColumn.value, apart.outerChild, apart.outerOwner, denotes]
  have matching : ∀ found,
      found ∈ (q.correlation schema d).partners db (rows.set q.childAlias row) ↔
      found ∈ (q.correlation schema d).matching db (rows.set q.childAlias row) := fun _ => Iff.rfl
  rw [matching]
  simp only [JoinClause.matching, correlation, clause, List.mem_filter, List.all_cons, List.all_nil,
    Bool.and_true, Bool.and_eq_true, ColumnEquation.holds_iff, ofCopy, ofRow, ofOuter]
  refine and_congr_right fun _ => ?_
  constructor
  · rintro ⟨⟨v, copyKey, reference⟩, w, copyKey', outerKey⟩
    obtain rfl : v = w := Option.some.inj (copyKey.symm.trans copyKey')
    exact ⟨v, copyKey, reference, outerKey⟩
  · rintro ⟨v, copyKey, reference, outerKey⟩
    exact ⟨⟨v, copyKey, reference⟩, v, copyKey, outerKey⟩

/-- A candidate is made of a child that refers to the outer row and of rows that continue from it;
the copy of the owner may be taken to be the outer row itself. -/
theorem exists_candidate {nested : List JoinClause} {text : Option String} {P : Rows V → Prop}
    (apart : q.Apart) (linked : Linked schema d q.child nested)
    (same : ∀ found found', Rows.Agree (scopeNames q.child nested) found found' →
      P found → P found')
    (denotes : rows q.outer.qualifier = some outer)
    (real : outer ∈ db (d.tableName (schema.entity q.outer.entity).table) ∨ outer = Row.nulls) :
    (∃ found ∈ (q.clause schema d nested text).candidates db rows, P found) ↔
      ∃ row ∈ db (d.tableName (schema.entity q.navigation.target).table),
        (∃ v, row q.foreignKey.column = some v ∧ outer q.key.column = some v) ∧
        ∃ found ∈ joined db nested (.only q.childAlias row), P found := by
  -- The nested joins see the child behind its alias, whatever else there is.
  have start : ∀ row copy, Rows.Agree (scopeNames q.child [])
      ((rows.set q.childAlias row).set q.ownerAlias copy) (.only q.childAlias row) := by
    intro row copy name member
    obtain rfl := List.mem_singleton.mp member
    simp [child, Rows.only, apart.owner]
  have whole : Linked schema d q.child ([] ++ nested) := linked
  constructor
  · rintro ⟨found, candidate, holds⟩
    obtain ⟨row, child, reached⟩ := List.mem_flatMap.mp candidate
    obtain ⟨copy, partner, reached⟩ := List.mem_flatMap.mp reached
    have correlated : copy ∈ (q.correlation schema d).partners db (rows.set q.childAlias row) :=
      partner
    obtain ⟨-, v, -, reference, key⟩ := (mem_copies apart denotes).mp correlated
    obtain ⟨found', reached', agree⟩ := whole.joined_congr (start row copy) reached
    exact ⟨row, child, ⟨v, reference, key⟩, found', reached', same found found' agree holds⟩
  · rintro ⟨row, child, ⟨v, reference, key⟩, found, reached, holds⟩
    have owned : outer ∈ db (d.tableName (schema.entity q.outer.entity).table) := by
      refine real.resolve_right ?_
      rintro rfl
      simp [Row.nulls] at key
    have correlated : outer ∈ (q.correlation schema d).partners db (rows.set q.childAlias row) :=
      (mem_copies apart denotes).mpr ⟨owned, v, key, reference, key⟩
    obtain ⟨found', reached', agree⟩ := whole.joined_congr (start row outer).symm reached
    refine ⟨found', ?_, same found found' agree holds⟩
    exact List.mem_flatMap.mpr ⟨row, child, List.mem_flatMap.mpr ⟨outer, correlated, reached'⟩⟩

end Subquery

section Throughout

variable {schema : Schema n} {d : Dialect} {origin : Origin n} {joins : List JoinClause} {e : Expr}
  {k : Condition n}

/-- In a scope whose names are different from those of a subquery, these are apart. -/
theorem Placed.apart (h : Placed schema d origin joins e k) {q : Subquery n}
    {nested : List JoinClause} (found : k.subquery? = some (q, nested))
    (distinct : (scopeNames origin joins ++ k.aliases).Nodup) : q.Apart := by
  obtain ⟨⟨path, -, stands⟩, -⟩ := h.rows q nested found
  have outer := stands.outer.mem_scopeNames
  have brought : ∃ rest, k.aliases = q.childAlias :: q.ownerAlias :: rest := by
    cases k with
    | any =>
      cases found
      exact ⟨_, rfl⟩
    | anyWhere =>
      cases found
      exact ⟨_, rfl⟩
    | _ => cases found
  obtain ⟨rest, aliases⟩ := brought
  rw [aliases, List.nodup_append] at distinct
  obtain ⟨-, own, separate⟩ := distinct
  constructor
  · rintro same
    simp [same] at own
  · exact separate _ outer _ List.mem_cons_self
  · exact separate _ outer _ (List.mem_cons_of_mem _ List.mem_cons_self)

/-- Without a condition, the test is for the row alone. -/
theorem Placed.any_means (h : Placed schema d origin joins e k) (kind : k.isTest = true)
    (distinct : (scopeNames origin joins ++ k.aliases).Nodup) :
    MeansExistence V schema d origin joins e k := by
  rintro receiver args rfl
  obtain ⟨isSome, given⟩ := h.any receiver args rfl
  cases k with
  | any q =>
    obtain ⟨⟨path, references, stands⟩, linked⟩ := h.rows q [] rfl
    refine ⟨q, [], path, rfl, given, references, stands, Subquery.isExistsText linked none, ?_⟩
    intro test db rows outer denotes real
    have candidates : (∃ found ∈ (q.clause schema d [] none).candidates db rows, True) ↔ _ :=
      Subquery.exists_candidate (h.apart rfl distinct) linked (fun _ _ _ _ => trivial) denotes real
    have value : (Condition.any q).value test schema d db rows = some true ↔
        ∃ found ∈ (q.clause schema d [] none).candidates db rows, True := by
      simp [Condition.value, List.eq_nil_iff_forall_not_mem]
    rw [value, candidates]
    simp [Condition.nested?, joined]
  | logical => cases kind
  | not => cases kind
  | anyWhere => cases kind
  | _ => cases isSome

/-- With a condition, the test is for a row that satisfies it. -/
theorem Placed.anyWhere_means {q : Subquery n} {nested : List JoinClause} {inner : Condition n}
    {receiver : Option Expr} {e : Expr}
    (h : Placed schema d origin joins (.call .any receiver [e]) (.anyWhere q nested inner))
    (within : Throughout (Placed schema d) q.child nested e inner)
    (distinct : (scopeNames origin joins ++ (Condition.anyWhere q nested inner).aliases).Nodup) :
    MeansExistence V schema d origin joins (.call .any receiver [e])
      (.anyWhere q nested inner) := by
  intro receiver' args same
  obtain ⟨-, given⟩ := h.any receiver' args same
  obtain ⟨⟨path, references, stands⟩, linked⟩ := h.rows q nested rfl
  refine ⟨q, nested, path, rfl, given, references, stands, Subquery.isExistsText linked _, ?_⟩
  intro test db rows outer denotes real
  have candidates : (∃ found ∈
        (q.clause schema d nested (some (inner.sql schema d))).candidates db rows,
        inner.value test schema d db found = some true) ↔ _ :=
    Subquery.exists_candidate (h.apart rfl distinct) linked
      (fun found found' agree holds => (within.value_congr agree).symm.trans holds) denotes real
  simpa [Condition.value, Condition.nested?] using candidates

/-- Throughout a condition whose names are all different, the tests for rows mean what they say. -/
theorem Throughout.existence (h : Throughout (Placed schema d) origin joins e k)
    (distinct : (scopeNames origin joins ++ k.aliases).Nodup) :
    Throughout (MeansExistence V schema d) origin joins e k := by
  induction h with
  | logical connective _ _ first second =>
    have left : (scopeNames _ _ ++ _).Nodup := distinct.sublist
      ((List.Sublist.refl _).append (List.sublist_append_left _ _))
    have right : (scopeNames _ _ ++ _).Nodup := distinct.sublist
      ((List.Sublist.refl _).append (List.sublist_append_right _ _))
    exact .logical connective (first left) (second right)
  | not _ inner => exact .not (inner distinct)
  | convert _ inner => exact .convert (inner distinct)
  | inverted truth here => exact .inverted truth nofun
  | test leaf kind here => exact .test leaf kind (here.any_means kind distinct)
  | @anyWhere origin joins receiver e q nested inner here within ih =>
    refine .anyWhere (here.anyWhere_means within distinct) (ih ?_)
    -- The names inside are among those that the subquery brings in.
    have own := (List.nodup_append.mp distinct).2.1
    refine own.sublist (List.Sublist.append ?_ (List.Sublist.refl _))
    exact .cons_cons _ (List.sublist_cons_self _ _)

end Throughout
end PredicateSql
