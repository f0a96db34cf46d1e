import PredicateSql.Proofs.Quoting.Nesting

/-!
Parentheses by counting. A reader that keeps track of what is open gets to the end of a text when no
beginning of it closes more parentheses than it opens; so a pair spans a text when the text between
closes no parenthesis of the pair.
-/
namespace PredicateSql

/-- What a character adds to the number of open parentheses; nothing inside a literal. -/
def opens (quoted : Bool) (c : Char) : Int :=
  if quoted then 0 else if c = '(' then 1 else if c = ')' then -1 else 0

/-- How many more parentheses are opened than closed outside literals; every quote opens a literal
or closes one. -/
def depthAfter (quoted : Bool) : List Char → Int
  | [] => 0
  | c :: cs => opens quoted c + depthAfter (if c = '\'' then !quoted else quoted) cs

namespace Nesting

theorem read?_eq_some_iff {here there : Nesting} {c : Char} :
    here.read? c = some there ↔
      (there.depth : Int) = here.depth + opens here.quoted c ∧
        there.quoted = if c = '\'' then !here.quoted else here.quoted := by
  obtain ⟨depth, quoted⟩ := here
  obtain ⟨depth', quoted'⟩ := there
  by_cases quote : c = '\''
  · subst quote
    cases quoted <;> simp [read?, opens] <;> omega
  · cases quoted with
    | true =>
      simp only [read?, opens, quote, if_true, if_false, Option.some.injEq, mk.injEq, Int.add_zero,
        Int.natCast_inj]
      rw [eq_comm (a := depth), eq_comm (a := true)]
    | false =>
      by_cases opening : c = '('
      · simp [read?, opens, opening]; omega
      · by_cases closing : c = ')'
        · cases depth with
          | zero => simp [read?, opens, closing]
          | succ depth => simp [read?, opens, closing]; omega
        · simp [read?, opens, quote, opening, closing]; omega

/-- A reader stops where a parenthesis is closed that is not open, and nowhere else. -/
theorem after?_eq_some_iff {here there : Nesting} {cs : List Char} :
    here.after? cs = some there ↔
      (∀ front, front <+: cs → 0 ≤ here.depth + depthAfter here.quoted front) ∧
        (there.depth : Int) = here.depth + depthAfter here.quoted cs ∧
        there.quoted = quotedAfter here.quoted cs := by
  induction cs generalizing here with
  | nil =>
    obtain ⟨depth, quoted⟩ := here
    obtain ⟨depth', quoted'⟩ := there
    simp only [after?, Option.some.injEq, mk.injEq, List.prefix_nil, forall_eq, depthAfter,
      quotedAfter, Int.add_zero, Int.natCast_inj, Int.natCast_nonneg, true_and]
    rw [eq_comm (a := depth), eq_comm (a := quoted)]
  | cons c cs ih =>
    rw [after?, Option.bind_eq_some_iff]
    constructor
    · rintro ⟨next, first, rest⟩
      obtain ⟨depth, quoted⟩ := read?_eq_some_iff.mp first
      obtain ⟨fronts, final, literal⟩ := ih.mp rest
      rw [depth, quoted] at fronts final
      rw [quoted] at literal
      refine ⟨?_, ?_, literal⟩
      · intro front start
        cases front with
        | nil => simp [depthAfter]
        | cons c' front =>
          obtain ⟨rfl, others⟩ := List.cons_prefix_cons.mp start
          rw [depthAfter, ← Int.add_assoc]
          exact fronts front others
      · rw [depthAfter, ← Int.add_assoc]
        exact final
    · rintro ⟨fronts, final, literal⟩
      have here_c : 0 ≤ here.depth + opens here.quoted c := by
        simpa [depthAfter] using fronts [c] (List.cons_prefix_cons.mpr ⟨rfl, List.nil_prefix⟩)
      let next : Nesting :=
        ⟨(here.depth + opens here.quoted c).toNat, if c = '\'' then !here.quoted else here.quoted⟩
      have depth : (next.depth : Int) = here.depth + opens here.quoted c :=
        Int.toNat_of_nonneg here_c
      refine ⟨next, read?_eq_some_iff.mpr ⟨depth, rfl⟩, ih.mpr ⟨?_, ?_, literal⟩⟩
      · intro front start
        have whole := fronts (c :: front) (List.cons_prefix_cons.mpr ⟨rfl, start⟩)
        rwa [depthAfter, ← Int.add_assoc, ← depth] at whole
      · rw [depthAfter, ← Int.add_assoc, ← depth] at final
        exact final

end Nesting

theorem balanced_iff {text : String} :
    Balanced text ↔
      quotedAfter false text.toList = false ∧
        (∀ front, front <+: text.toList → 0 ≤ depthAfter false front) ∧
          depthAfter false text.toList = 0 := by
  rw [Balanced, Nesting.after?_eq_some_iff]
  simp only [Nesting.outside, Int.natCast_zero, Int.zero_add]
  constructor
  · rintro ⟨fronts, final, literal⟩
    exact ⟨literal.symm, fronts, final.symm⟩
  · rintro ⟨literal, fronts, final⟩
    exact ⟨fronts, final.symm, literal.symm⟩

/-- A text is found to be in parentheses exactly when it is one pair of them around a text that ends
outside literals, never closes more parentheses than it opened, and closes all that it opened. -/
theorem spanning_parentheses_are_recognized (text : String) :
    isParenthesized text = true ↔
      ∃ body, text = "(" ++ body ++ ")" ∧ quotedAfter false body.toList = false ∧
        (∀ front, front <+: body.toList → 0 ≤ depthAfter false front) ∧
          depthAfter false body.toList = 0 := by
  rw [isParenthesized_iff, Spans]
  simp only [balanced_iff]

/-- The last parenthesis of the second text is inside a literal, and the first two of the third
close each other. -/
example : isParenthesized "(a LIKE ')%')" = true ∧ isParenthesized "(a LIKE ')" = false ∧
    isParenthesized "(é) OR (b)" = false ∧ isParenthesized "(" = false := by
  decide

end PredicateSql
