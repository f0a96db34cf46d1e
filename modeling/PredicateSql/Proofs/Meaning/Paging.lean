import Mathlib.Data.List.Basic
import PredicateSql.Sql.CompiledQuery

/-!
Which rows a statement returns, given those that its selection yields in order. A clause at its end
cuts out a page, and the first row of another statement can be asked for. A text is read in one way
only.
-/
namespace PredicateSql

variable {ρ : Type}

/-- The rows after the first `skip`, and at most `take` of them. -/
def page (skip : Nat) (take : Option Nat) (rows : List ρ) : List ρ :=
  match take with
  | some most => (rows.drop skip).take most
  | none => rows.drop skip

section Digits

variable {m n : Nat} {xs ys : List Char}

theorem isDigit_of_mem_digits {c : Char} (held : c ∈ Nat.toDigits 10 n) : c.isDigit = true :=
  Nat.isDigit_of_mem_toDigits (by decide) (by decide) held

theorem toList_toString : (toString n).toList = Nat.toDigits 10 n := by
  rw [Nat.toString_eq_ofList_toDigits, String.toList_ofList]

theorem takeWhile_digits_append (ends : ∀ c ∈ xs.head?, c.isDigit = false) :
    (Nat.toDigits 10 n ++ xs).takeWhile Char.isDigit = Nat.toDigits 10 n := by
  rw [List.takeWhile_append_of_pos fun _ => isDigit_of_mem_digits]
  cases xs with
  | nil => simp
  | cons c xs => simp [ends c rfl]

/-- A number and what begins after its last digit are read in one way only. -/
theorem digits_append_inj (ends : ∀ c ∈ xs.head?, c.isDigit = false)
    (ends' : ∀ c ∈ ys.head?, c.isDigit = false)
    (same : Nat.toDigits 10 m ++ xs = Nat.toDigits 10 n ++ ys) : m = n ∧ xs = ys := by
  have digits : Nat.toDigits 10 m = Nat.toDigits 10 n := by
    rw [← takeWhile_digits_append ends, same, takeWhile_digits_append ends']
  refine ⟨?_, List.append_cancel_left (digits ▸ same)⟩
  calc
    m = Nat.ofDigitChars 10 (Nat.toDigits 10 m) 0 := Nat.ofDigitChars_ten_toDigits.symm
    _ = Nat.ofDigitChars 10 (Nat.toDigits 10 n) 0 := by rw [digits]
    _ = n := Nat.ofDigitChars_ten_toDigits

theorem digits_inj (same : Nat.toDigits 10 m = Nat.toDigits 10 n) : m = n := by
  have ends : ∀ c ∈ ([] : List Char).head?, c.isDigit = false := nofun
  exact (digits_append_inj ends ends (by rw [same])).1

end Digits

/-- The clauses that cut out a page: a keyword, a number and what follows it. -/
inductive PageClause where
  | offset (skip : Nat)
  | offsetFetch (skip take : Nat)
  | limit (take : Nat)
  | limitFrom (skip take : Nat)
  | unlimitedFrom (skip : Nat)
deriving DecidableEq, Repr

namespace PageClause

variable {c c' : PageClause}

def keyword : PageClause → String
  | offset _ | offsetFetch _ _ => "OFFSET "
  | limit _ | limitFrom _ _ | unlimitedFrom _ => "LIMIT "

def number : PageClause → Nat
  | offset skip | offsetFetch skip _ | limitFrom skip _ | unlimitedFrom skip => skip
  | limit take => take

def ending : PageClause → String
  | offset _ => " ROWS"
  | offsetFetch _ take => " ROWS FETCH NEXT " ++ toString take ++ " ROWS ONLY"
  | limit _ => ""
  | limitFrom _ take => "," ++ toString take
  | unlimitedFrom _ => ",-1"

def sql (c : PageClause) : String :=
  c.keyword ++ toString c.number ++ c.ending

/-- The clauses that a dialect knows. -/
def isOf (d : Dialect) : PageClause → Bool
  | offset _ | offsetFetch _ _ => d ≠ .sqlite
  | limit _ => d ≠ .mssql
  | limitFrom _ _ | unlimitedFrom _ => d = .sqlite

def rows : PageClause → List ρ → List ρ
  | offset skip | unlimitedFrom skip => page skip none
  | offsetFetch skip take | limitFrom skip take => page skip (some take)
  | limit take => page 0 (some take)

theorem ending_head (c : PageClause) : ∀ x ∈ c.ending.toList.head?, x.isDigit = false := by
  unfold ending
  cases c <;> simp

/-- What follows the number tells how many rows are taken, and which clause it is. -/
theorem eq_of_ending (keywords : c.keyword = c'.keyword) (numbers : c.number = c'.number)
    (endings : c.ending.toList = c'.ending.toList) : c = c' := by
  have signed : ∀ n, ['-', '1'] ≠ Nat.toDigits 10 n := by
    intro n digits
    have sign : '-' ∈ Nat.toDigits 10 n := digits ▸ List.mem_cons_self
    exact absurd (isDigit_of_mem_digits sign) (by decide)
  unfold ending at endings
  cases c <;> cases c' <;> simp [keyword, number] at keywords numbers endings ⊢
  case offsetFetch.offsetFetch => exact ⟨numbers, digits_inj endings⟩
  case limitFrom.limitFrom => exact ⟨numbers, digits_inj endings⟩
  case limitFrom.unlimitedFrom => exact signed _ endings.symm
  case unlimitedFrom.limitFrom => exact signed _ endings
  all_goals exact numbers

theorem sql_injective (same : c.sql = c'.sql) : c = c' := by
  have chars := congrArg String.toList same
  simp only [sql, String.toList_append, List.append_assoc, toList_toString] at chars
  have keywords : c.keyword = c'.keyword := by
    cases c <;> cases c' <;> simp [keyword] at chars ⊢
  rw [keywords] at chars
  obtain ⟨numbers, endings⟩ :=
    digits_append_inj c.ending_head c'.ending_head (List.append_cancel_left chars)
  exact eq_of_ending keywords numbers endings

/-- No clause ends in a semicolon or a bracket. -/
theorem getLast?_sql (c : PageClause) :
    ∃ x, c.sql.toList.getLast? = some x ∧ x ≠ ';' ∧ x ≠ ']' := by
  have number : ∀ (front : List Char) n,
      ∃ x, (front ++ Nat.toDigits 10 n).getLast? = some x ∧ x ≠ ';' ∧ x ≠ ']' := by
    intro front n
    have digit := isDigit_of_mem_digits (List.getLast_mem (Nat.toDigits_ne_nil (n := n) (b := 10)))
    refine ⟨(Nat.toDigits 10 n).getLast Nat.toDigits_ne_nil, ?_, ?_, ?_⟩
    · rw [List.getLast?_append, List.getLast?_eq_some_getLast Nat.toDigits_ne_nil, Option.some_or]
    · exact fun same => absurd (same ▸ digit) (by decide)
    · exact fun same => absurd (same ▸ digit) (by decide)
  simp only [sql, String.toList_append, toList_toString]
  unfold ending
  cases c <;> dsimp only
  case offset => exact ⟨'S', by rw [List.getLast?_append]; rfl, by decide⟩
  case offsetFetch =>
    refine ⟨'Y', ?_, by decide⟩
    rw [List.getLast?_append, String.toList_append, List.getLast?_append]
    rfl
  case limit take =>
    rw [String.toList_empty, List.append_nil]
    exact number _ _
  case limitFrom skip take =>
    simp only [String.toList_append, toList_toString, ← List.append_assoc]
    exact number _ _
  case unlimitedFrom => exact ⟨'1', by rw [List.getLast?_append]; rfl, by decide⟩

end PageClause

/-- A query over the rows of a selection: a page of them, or the first row of another query. -/
inductive PagedQuery where
  | page (clause : PageClause)
  | first (inner : PagedQuery)

namespace PagedQuery

variable {q q' : PagedQuery} {selection : String} {d : Dialect}

def sql (selection : String) : PagedQuery → String
  | page clause => selection ++ "\n" ++ clause.sql
  | first inner => "SELECT TOP(1) * FROM (" ++ inner.sql selection ++ ") AS [RESULT]"

def isOf (d : Dialect) : PagedQuery → Bool
  | page clause => clause.isOf d
  | first inner => d = .mssql && inner.isOf d

def rows (all : List ρ) : PagedQuery → List ρ
  | page clause => clause.rows all
  | first inner => (inner.rows all).take 1

theorem sql_page (selection : String) (c : PageClause) :
    (page c).sql selection = selection ++ "\n" ++ c.sql := rfl

theorem sql_first (selection : String) (inner : PagedQuery) :
    (first inner).sql selection = "SELECT TOP(1) * FROM (" ++ inner.sql selection ++
      ") AS [RESULT]" := rfl

theorem getLast?_page (selection : String) (c : PageClause) :
    ∃ x, ((page c).sql selection).toList.getLast? = some x ∧ x ≠ ';' ∧ x ≠ ']' := by
  obtain ⟨x, last, other⟩ := c.getLast?_sql
  refine ⟨x, ?_, other⟩
  rw [sql_page, String.toList_append, List.getLast?_append, last]
  rfl

theorem getLast?_first (selection : String) (inner : PagedQuery) :
    ((first inner).sql selection).toList.getLast? = some ']' := by
  rw [sql_first, String.toList_append, List.getLast?_append]
  rfl

theorem sql_injective (same : q.sql selection = q'.sql selection) : q = q' := by
  induction q generalizing q' with
  | page c =>
    obtain ⟨x, last, -, other⟩ := getLast?_page selection c
    cases q' with
    | page c' =>
      have clauses : c.sql = c'.sql := (String.append_right_inj _).mp same
      rw [PageClause.sql_injective clauses]
    | first inner =>
      rw [same, getLast?_first] at last
      exact absurd (Option.some.inj last).symm other
  | first inner ih =>
    cases q' with
    | page c' =>
      obtain ⟨x, last, -, other⟩ := getLast?_page selection c'
      rw [← same, getLast?_first] at last
      exact absurd (Option.some.inj last).symm other
    | first inner' =>
      have inners : inner.sql selection = inner'.sql selection :=
        (String.append_right_inj _).mp ((String.append_left_inj _).mp same)
      rw [ih inners]

/-- A query does not end in a semicolon of its own. -/
theorem sql_ne_terminated : q.sql selection ≠ q'.sql selection ++ ";" := by
  intro same
  have last : (q.sql selection).toList.getLast? = some ';' := by
    rw [same, String.toList_append, List.getLast?_append]
    rfl
  cases q with
  | page c =>
    obtain ⟨x, last', other, -⟩ := getLast?_page selection c
    rw [last'] at last
    exact other (Option.some.inj last)
  | first inner =>
    rw [getLast?_first] at last
    exact absurd (Option.some.inj last) (by decide)

end PagedQuery

/-- In a dialect, the text asks for the rows `found` when its selection yields `rows`. A semicolon
may end it. -/
def Yields (d : Dialect) (selection : String) (rows : List ρ) (text : String)
    (found : List ρ) : Prop :=
  ∃ q : PagedQuery, q.isOf d = true ∧ (text = q.sql selection ∨ text = q.sql selection ++ ";") ∧
    q.rows rows = found

/-- A text asks for the same rows however it is read. -/
theorem yields_iff {d : Dialect} {selection text : String} {rows found : List ρ} {q : PagedQuery}
    (spoken : q.isOf d = true) (written : text = q.sql selection ∨ text = q.sql selection ++ ";") :
    Yields d selection rows text found ↔ found = q.rows rows := by
  constructor
  · rintro ⟨q', -, written', rfl⟩
    have same : q' = q := by
      rcases written with rfl | rfl <;> rcases written' with same | same
      · exact PagedQuery.sql_injective same.symm
      · exact absurd same PagedQuery.sql_ne_terminated
      · exact absurd same.symm PagedQuery.sql_ne_terminated
      · exact PagedQuery.sql_injective ((String.append_left_inj _).mp same.symm)
    rw [same]
  · rintro rfl
    exact ⟨q, spoken, written, rfl⟩

end PredicateSql
