import PredicateSql.Proofs.Compilation.Encryption
import PredicateSql.Proofs.Compilation.TruthValues

/-!
The test for null or empty, compared with a truth value. The test mentions a column, so the literal
is bound to this column, although it is the outcome of the test that it is compared with.
-/
namespace PredicateSql

open Lowering

variable {n : Nat}

/-- The expression asks whether the member at the path is null or empty. -/
def Expr.TestsEmptiness (e : Expr) (path : MemberPath) : Prop :=
  ∃ receiver args target, e.strip = .call .isNullOrEmpty receiver args ∧
    emptinessTarget? receiver args = some target ∧ target.strip = .member path

section Operands

variable {context : LoweringContext n} {origin : Origin n} {e : Expr} {path : MemberPath}
  {s t : Progress} {c : ColumnRef}

theorem Expr.TestsEmptiness.ne_modifier (h : e.TestsEmptiness path) (m : Modifier) :
    e ≠ .modifier m := by
  obtain ⟨_, _, _, call, -⟩ := h
  exact ne_modifier_of_strip call rfl m

/-- The test is read as an operand about the column of its member. -/
theorem readOperand_emptiness (tests : e.TestsEmptiness path)
    (column : resolveColumn context origin path s = (.ok c, t)) :
    readOperand context origin e s = (.ok (.nullOrEmpty c), t) := by
  obtain ⟨receiver, args, target, call, found, member⟩ := tests
  have resolved : emptinessColumn context origin receiver args s = (.ok c, t) :=
    (emptinessColumn_ok context).mpr ⟨target, path, found, member, column⟩
  exact (readOperand_ok context).mpr (.inr (.inr ⟨receiver, args, c, call, resolved, rfl⟩))

/-- As a predicate the test is written with the test of its own outcome. -/
theorem lowers_emptiness (tests : e.TestsEmptiness path)
    (column : resolveColumn context origin path s = (.ok c, t)) :
    Lowers context origin e s (.truth (.nullOrEmpty c) false) t := by
  obtain ⟨receiver, args, target, call, found, member⟩ := tests
  have resolved : emptinessColumn context origin receiver args s = (.ok c, t) :=
    (emptinessColumn_ok context).mpr ⟨target, path, found, member, column⟩
  apply lowers_strip.mp
  rw [call]
  exact .truth rfl rfl (bind_ok.mpr ⟨c, t, resolved, pure_ok.mpr ⟨rfl, rfl⟩⟩)

end Operands

/-- A test for null or empty is a predicate, and its comparison with a truth value should be one
too, with the literal of the dialect for that value. It is so just where the column of the tested
member neither holds names nor is encrypted. The truth value is compared with the outcome of the
test, but it is bound to the column. -/
theorem emptiness_is_compared_as_its_column {c : Compiler n} {bindings : Bindings}
    {test other : Expr} {path : MemberPath} {m : Target} {r : EnumRegistry} {b : Bool}
    {op : BinaryOp} (tests : test.TestsEmptiness path)
    (resolves : c.input.schema.Resolves c.input.root c.registry.enums path m r)
    (literal : other.IsLiteral bindings (.bool b)) (equality : op = .equal ∨ op = .notEqual)
    (mirrored : Bool) :
    let d := c.input.dialect
    let schema := c.input.schema
    ∃ column t, column.Describes r m ∧
      c.Adds bindings test t (.truth (.nullOrEmpty column) false) ∧
      c.BindsTruth bindings (.compared op mirrored test other) t
        (.compared op mirrored (.nullOrEmpty column)) m b ∧
      ∀ l : BoundLiteral, l.written.sql d = d.boolLiteral true →
        (Condition.compared .equal false (.nullOrEmpty column) (.literal l)).sql schema d =
          "(" ++ (Condition.truth (.nullOrEmpty column) false).sql schema d ++ ")" := by
  intro d schema
  obtain ⟨column, t, resolved, rfl, describes⟩ := Compiler.resolved_column resolves bindings
  have comparator : op.isLogical = false := by
    rcases equality with rfl | rfl <;> rfl
  have value : PredicateSql.literal (c.context bindings) other = .ok (.bool b) :=
    (literal_iff _).mpr literal
  have lowers : ∀ {k t'}, Lowers (c.context bindings) c.origin (.compared op mirrored test other)
      c.progress k t' ↔ t = t' ∧ ∃ l,
        bindLiteral ⟨t.enums, c.input.settings⟩ column (.bool b) .none = .ok l ∧
        .compared op mirrored (.nullOrEmpty column)
          (.literal ⟨other.strip, .bool b, .none, some column, l⟩) = k :=
    lowers_compared_iff comparator (readOperand_emptiness tests resolved) rfl value rfl mirrored
  refine ⟨column, t, describes, (Compiler.adds_iff tests.ne_modifier).mpr
    (lowers_emptiness tests resolved), ?_, fun l => Condition.comparison_sql_eq⟩
  apply Compiler.BindsTruth.of_lowers describes (Expr.compared_ne_modifier op mirrored test other)
  · exact fun l bound => ⟨_, rfl, lowers.mpr ⟨rfl, l, bound, rfl⟩⟩
  · intro k t' derived
    obtain ⟨rfl, l, bound, rfl⟩ := lowers.mp derived
    exact ⟨l, bound, fun l' same => congrArg BoundLiteral.written (Condition.compared_inj same)⟩

namespace Bookshelf

def untitled : Expr := .convert (.call .isNullOrEmpty (some (.convert title)) [])

theorem title_resolves : books.input.schema.Resolves books.input.root books.registry.enums
    (.ofText "Title") ⟨.string, none, none⟩ .empty where
  nonempty := by decide
  declared := ⟨0, column "Title" .string, .here, rfl, rfl, rfl, rfl⟩

/-- The loans of books; what is kept of their states is the names. -/
def loan : Entity 1 where
  typeName := "Loan"
  table := "Loans"
  columns := [{ column "Id" .int with isPrimaryKey := true },
    { column "State" .enum with
      enumType := some ⟨"LoanState", [(0, "Open"), (1, "Closed")]⟩
      stringify := true }]
  navigations := []

def loans : Compiler 1 :=
  .start { readers.input with schema := ⟨#v[loan]⟩, dialect := .postgreSql } .empty

def stateless : Expr := .isNullOrEmpty (.member (.ofText "State"))

end Bookshelf

theorem missing_titles_are_compared :
    let bindings := Bindings.empty.bind "wanted" (.bool false)
    let e := Expr.compared .notEqual true Bookshelf.untitled (.captured "wanted")
    Bookshelf.untitled.TestsEmptiness (.ofText "Title") ∧
      (Expr.captured "wanted").IsLiteral bindings (.bool false) ∧
      ∃ column t, Bookshelf.books.Adds bindings Bookshelf.untitled t
          (.truth (.nullOrEmpty column) false) ∧
        Bookshelf.books.AddsLiteral bindings e t
          (.compared .notEqual true (.nullOrEmpty column)) "false" := by
  intro bindings e
  have tests : Bookshelf.untitled.TestsEmptiness (.ofText "Title") :=
    ⟨_, _, _, rfl, rfl, rfl⟩
  have literal : (Expr.captured "wanted").IsLiteral bindings (.bool false) :=
    .inr ⟨"wanted", rfl, rfl⟩
  obtain ⟨column, t, -, tested, binds, -⟩ :=
    emptiness_is_compared_as_its_column tests Bookshelf.title_resolves literal (.inr rfl) true
  exact ⟨tests, literal, column, t, tested, binds.bare.mpr ⟨rfl, rfl⟩⟩

/-- Whether a loan has no state is a predicate, but it cannot be compared with `true`: that is the
name of no state. -/
theorem stateless_is_not_compared :
    (Bookshelf.loans.add .empty Bookshelf.stateless).2.fragments =
      ["((CASE WHEN Loans.\"State\" IS NULL OR Loans.\"State\" = '' THEN true ELSE false END) = true)"] ∧
      (Bookshelf.loans.add .empty (.binary .equal Bookshelf.stateless (.constant (.bool true)))).1 =
        .error (.unresolved (.enumValue "true" "LoanState")) := by
  constructor
  · decide +kernel
  · rfl

end PredicateSql
