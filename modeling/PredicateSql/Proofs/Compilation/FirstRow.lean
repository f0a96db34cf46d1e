import PredicateSql.Proofs.Compilation.Calls
import PredicateSql.Proofs.Meaning.Paging

/-!
The first row of a query. One dialect asks for the first row of the page, the others for the first
row of the selection, whatever is skipped.
-/
namespace PredicateSql

def Paging.rows {ρ : Type} (p : Paging) (rows : List ρ) : List ρ :=
  page p.skip.toNat (p.take.map UInt64.toNat) rows

/-- The clause that a dialect cuts out a page with. -/
def Dialect.pageClause (d : Dialect) (skip : Nat) (take : Option Nat) : PageClause :=
  match d, take with
  | .sqlite, some take => .limitFrom skip take
  | .sqlite, none => .unlimitedFrom skip
  | _, some take => .offsetFetch skip take
  | _, none => .offset skip

namespace Dialect

variable (d : Dialect) (skip : Nat) (take : Option Nat)

theorem pageClause_isOf : (d.pageClause skip take).isOf d = true := by
  cases d <;> cases take <;> rfl

theorem pageClause_rows {ρ : Type} (rows : List ρ) :
    (d.pageClause skip take).rows rows = page skip take rows := by
  cases d <;> cases take <;> rfl

theorem pagingClause_eq (skip : UInt64) (take : Option UInt64) :
    d.pagingClause skip take = (d.pageClause skip.toNat (take.map UInt64.toNat)).sql := by
  have regroup : ∀ front a b c : String, front ++ a ++ b ++ c = front ++ (a ++ b ++ c) := by
    intro front a b c
    simp only [String.append_assoc]
  cases take with
  | none => cases d <;> rfl
  | some take =>
    cases d with
    | mssql => exact regroup _ _ _ _
    | postgreSql => exact regroup _ _ _ _
    | sqlite => exact String.append_assoc

end Dialect

namespace CompiledQuery

variable (q : CompiledQuery)

def selection : String :=
  String.intercalate "\n" q.selectLines

def pageQuery : PagedQuery :=
  .page (q.dialect.pageClause q.paging.skip.toNat (q.paging.take.map UInt64.toNat))

def firstQuery : PagedQuery :=
  match q.dialect with
  | .mssql => .first q.pageQuery
  | .postgreSql | .sqlite => .page (.limit 1)

theorem pagedSelect_eq : q.pagedSelect = q.pageQuery.sql q.selection := by
  have lines : q.selectLines ≠ [] := by simp [selectLines]
  rw [pagedSelect, String.intercalate_append_of_ne_nil lines (by simp),
    String.intercalate_singleton, q.dialect.pagingClause_eq]
  rfl

theorem firstSql_eq : q.firstSql = q.firstQuery.sql q.selection := by
  have limited : q.selection ++ "\nLIMIT 1" = (PagedQuery.page (.limit 1)).sql q.selection := by
    rw [PagedQuery.sql_page, String.append_assoc]
    rfl
  unfold firstSql firstQuery
  cases q.dialect with
  | mssql => rw [PagedQuery.sql_first, pagedSelect_eq]
  | postgreSql => exact limited
  | sqlite => exact limited

theorem pageQuery_isOf : q.pageQuery.isOf q.dialect = true :=
  q.dialect.pageClause_isOf _ _

theorem firstQuery_isOf : q.firstQuery.isOf q.dialect = true := by
  have page := q.pageQuery_isOf
  unfold firstQuery
  cases dialect : q.dialect with
  | mssql => simpa [PagedQuery.isOf, dialect] using page
  | postgreSql => rfl
  | sqlite => rfl

variable {ρ : Type} (rows : List ρ)

theorem pageQuery_rows : q.pageQuery.rows rows = q.paging.rows rows :=
  q.dialect.pageClause_rows _ _ _

/-- The rows that the first one is taken from. -/
def candidates : List ρ :=
  if q.dialect = .mssql then q.paging.rows rows else rows

theorem firstQuery_rows : q.firstQuery.rows rows = (q.candidates rows).take 1 := by
  unfold firstQuery candidates
  cases q.dialect with
  | mssql => rw [PagedQuery.rows, pageQuery_rows, if_pos rfl]
  | postgreSql => rfl
  | sqlite => rfl

theorem selectSql_yields {found : List ρ} :
    Yields q.dialect q.selection rows q.selectSql found ↔ found = q.paging.rows rows := by
  rw [← pageQuery_rows]
  exact yields_iff q.pageQuery_isOf (.inr (by rw [selectSql, pagedSelect_eq]))

theorem firstSql_yields {found : List ρ} :
    Yields q.dialect q.selection rows q.firstSql found ↔ found = (q.candidates rows).take 1 := by
  rw [← firstQuery_rows]
  exact yields_iff q.firstQuery_isOf (.inl q.firstSql_eq)

/-- The first row is that of the page, whatever rows the selection yields. -/
def FirstIsOfPage : Prop :=
  ∀ {ρ : Type} {rows page first : List ρ}, Yields q.dialect q.selection rows q.selectSql page →
    Yields q.dialect q.selection rows q.firstSql first → first = page.take 1

end CompiledQuery

/-- The bound on a page that takes anything leaves its first row. -/
theorem take_one_page {ρ : Type} (skip : Nat) {take : Option Nat} (bounded : take ≠ some 0)
    (rows : List ρ) :
    (page skip take rows).take 1 = (rows.drop skip).take 1 := by
  cases take with
  | none => rfl
  | some most =>
    have least : 1 ≤ most := Nat.one_le_iff_ne_zero.mpr fun none => bounded (by rw [none])
    rw [page, List.take_take, Nat.min_eq_left least]

/-- Among rows that differ, the first one is not that of a later page. -/
theorem exists_take_one_ne {skip : Nat} (later : skip ≠ 0) :
    ∃ rows : List Bool, rows.take 1 ≠ (rows.drop skip).take 1 := by
  obtain ⟨before, rfl⟩ := Nat.exists_eq_succ_of_ne_zero later
  refine ⟨List.replicate (before + 1) false ++ [true], ?_⟩
  rw [List.drop_left' (List.length_replicate ..), List.replicate_succ]
  exact fun same => absurd (List.cons.inj same).1 (by decide)

/-- `selectSql` asks for the page. `firstSql` asks for its first row in one dialect, and for the
first row of the selection, before the page is cut out, in the others; so it asks for the first row
of the page in every case just where pages are cut out first or nothing is skipped. -/
theorem first_row_is_of_page (q : CompiledQuery) (bounded : q.paging.take ≠ some 0) :
    (∀ {ρ : Type} {rows page : List ρ},
      Yields q.dialect q.selection rows q.selectSql page ↔ page = q.paging.rows rows) ∧
    (∀ {ρ : Type} {rows first : List ρ}, Yields q.dialect q.selection rows q.firstSql first ↔
      first = (if q.dialect = .mssql then q.paging.rows rows else rows).take 1) ∧
    (q.FirstIsOfPage ↔ q.dialect = .mssql ∨ q.paging.skip = 0) := by
  refine ⟨q.selectSql_yields _, q.firstSql_yields _, ?_⟩
  have bounded : q.paging.take.map UInt64.toNat ≠ some 0 := by
    intro none
    obtain ⟨most, taken, zero⟩ := Option.map_eq_some_iff.mp none
    obtain rfl : most = 0 := UInt64.toNat_inj.mp zero
    exact bounded taken
  have page : ∀ {ρ : Type} (rows : List ρ),
      (q.paging.rows rows).take 1 = (rows.drop q.paging.skip.toNat).take 1 :=
    fun rows => take_one_page _ bounded rows
  constructor
  · intro first
    by_contra other
    obtain ⟨dialect, later⟩ := not_or.mp other
    have skipped : q.paging.skip.toNat ≠ 0 := fun zero => later (UInt64.toNat_inj.mp zero)
    obtain ⟨rows, differ⟩ := exists_take_one_ne skipped
    have same := first ((q.selectSql_yields rows).mpr rfl) ((q.firstSql_yields rows).mpr rfl)
    rw [page, CompiledQuery.candidates, if_neg dialect] at same
    exact differ same
  · intro known ρ rows found first selected asked
    obtain rfl := (q.selectSql_yields rows).mp selected
    obtain rfl := (q.firstSql_yields rows).mp asked
    unfold CompiledQuery.candidates
    split
    · rfl
    next other =>
      have skip := known.resolve_left other
      rw [page, skip]
      rfl

namespace Bookshelf

/-- A page of all books. -/
def bookPage (skip : UInt64) (take : Option UInt64) : CompiledQuery where
  dialect := .postgreSql
  table := "Books"
  columns := ["Books.\"Id\"", "Books.\"ShelfId\"", "Books.\"Title\"", "Books.\"Lent\""]
  primaryKey := "Books.\"Id\""
  joins := []
  fragments := []
  paging := ⟨skip, take, ⟨"Books.\"Id\"", false⟩⟩

end Bookshelf

theorem first_of_three_books_is_of_page :
    (Bookshelf.books.after [⟨.empty, .modifier (.take 3)⟩]).finish.1 =
      .ok (Bookshelf.bookPage 0 (some 3)) ∧
      (Bookshelf.bookPage 0 (some 3)).paging.take ≠ some 0 ∧
        (Bookshelf.bookPage 0 (some 3)).FirstIsOfPage :=
  ⟨rfl, by decide, (first_row_is_of_page _ (by decide)).2.2.mpr (.inr rfl)⟩

/-- The first row may be one that the page skips. -/
theorem first_of_later_books_is_skipped :
    (Bookshelf.books.after [⟨.empty, .modifier (.skip 1)⟩]).finish.1 =
      .ok (Bookshelf.bookPage 1 none) ∧
      (Bookshelf.bookPage 1 none).paging.take ≠ some 0 ∧
        ¬ (Bookshelf.bookPage 1 none).FirstIsOfPage := by
  refine ⟨rfl, by decide, fun same => ?_⟩
  have page := ((Bookshelf.bookPage 1 none).selectSql_yields ["Emma", "Persuasion"]).mpr rfl
  have first := ((Bookshelf.bookPage 1 none).firstSql_yields ["Emma", "Persuasion"]).mpr rfl
  have titles : ["Emma"] = ["Persuasion"] := same page first
  exact absurd titles (by decide)

end PredicateSql
