import PredicateSql.Proofs.Quoting.Lexing

/-!
Parentheses outside literals. A reader keeps track of how many are open; where none is and no
literal either, texts can be put in a row, cut at an operator, or put in parentheses.
-/
namespace PredicateSql

/-- Where a reader stands: how many parentheses are open, and whether a literal is. -/
structure Nesting where
  depth : Nat
  quoted : Bool
deriving DecidableEq, Repr

namespace Nesting

def outside : Nesting :=
  ⟨0, false⟩

/-- Where one more character leads; nowhere if it closes a parenthesis that is not open. -/
def read? (here : Nesting) (c : Char) : Option Nesting :=
  if c = '\'' then some ⟨here.depth, !here.quoted⟩
  else if here.quoted then some here
  else if c = '(' then some ⟨here.depth + 1, false⟩
  else if c = ')' then
    match here.depth with
    | 0 => none
    | depth + 1 => some ⟨depth, false⟩
  else some here

def after? : Nesting → List Char → Option Nesting
  | here, [] => some here
  | here, c :: cs => (here.read? c).bind (·.after? cs)

def inner (here : Nesting) : Nesting :=
  ⟨here.depth + 1, here.quoted⟩

variable {here there : Nesting}

theorem after?_append (here : Nesting) (cs cs' : List Char) :
    here.after? (cs ++ cs') = (here.after? cs).bind (·.after? cs') := by
  induction cs generalizing here with
  | nil => rfl
  | cons c cs ih => simp only [List.cons_append, after?, ih, Option.bind_assoc]

theorem inner_ne_outside (here : Nesting) : here.inner ≠ outside := by
  simp [inner, outside]

theorem read?_of_not_mem_marks (here : Nesting) {c : Char} (other : c ∉ marks) :
    here.read? c = some here := by
  grind [read?, marks]

theorem quoted_of_read? {c : Char} (read : here.read? c = some there) :
    there.quoted = if c = '\'' then !here.quoted else here.quoted := by
  obtain ⟨depth, quoted⟩ := here
  cases depth <;> grind [read?]

/-- What can be read outside can be read in parentheses. -/
theorem inner_read? {c : Char} (read : here.read? c = some there) :
    here.inner.read? c = some there.inner := by
  obtain ⟨depth, quoted⟩ := here
  cases depth <;> grind [read?, inner]

theorem inner_after? {cs : List Char} (read : here.after? cs = some there) :
    here.inner.after? cs = some there.inner := by
  induction cs generalizing here with
  | nil =>
    obtain rfl := Option.some.inj read
    rfl
  | cons c cs ih =>
    obtain ⟨next, first, rest⟩ := Option.bind_eq_some_iff.mp read
    rw [after?, inner_read? first, Option.bind_some]
    exact ih rest

theorem after?_of_unmarked (here : Nesting) {cs : List Char} (none : ∀ mark ∈ marks, mark ∉ cs) :
    here.after? cs = some here := by
  induction cs with
  | nil => rfl
  | cons c cs ih =>
    have first : c ∉ marks := fun member => none c member List.mem_cons_self
    rw [after?, here.read?_of_not_mem_marks first, Option.bind_some]
    exact ih fun mark isMark member => none mark isMark (List.mem_cons_of_mem _ member)

theorem quotedAfter_of_after? {cs : List Char} (read : here.after? cs = some there) :
    quotedAfter here.quoted cs = there.quoted := by
  induction cs generalizing here with
  | nil =>
    obtain rfl := Option.some.inj read
    rfl
  | cons c cs ih =>
    obtain ⟨next, first, rest⟩ := Option.bind_eq_some_iff.mp read
    rw [quotedAfter, ← quoted_of_read? first]
    exact ih rest

/-- A reader comes out of a literal where it went in. -/
theorem after?_doubleQuotes (depth : Nat) (cs : List Char) :
    after? ⟨depth, true⟩ (Dialect.doubleQuotes cs) = some ⟨depth, true⟩ := by
  induction cs with
  | nil => rfl
  | cons c cs ih =>
    by_cases quote : c = '\''
    · simp [Dialect.doubleQuotes, after?, read?, quote, ih]
    · simp [Dialect.doubleQuotes, after?, read?, quote, ih]

end Nesting

open Nesting

/-- Every parenthesis and every literal that begins in the text ends in it, and no others end in
it. -/
def Balanced (text : String) : Prop :=
  outside.after? text.toList = some outside

instance (text : String) : Decidable (Balanced text) :=
  inferInstanceAs (Decidable (_ = _))

/-- One pair of parentheses spans all of the text: the one that closes the first is the last
character. -/
def Spans (text : String) : Prop :=
  ∃ body, text = "(" ++ body ++ ")" ∧ Balanced body

namespace Balanced

variable {a b : String}

theorem append (front : Balanced a) (back : Balanced b) : Balanced (a ++ b) := by
  rw [Balanced, String.toList_append, after?_append, front, Option.bind_some]
  exact back

theorem intercalate {separator : String} {texts : List String} (between : Balanced separator)
    (all : ∀ text ∈ texts, Balanced text) : Balanced (String.intercalate separator texts) := by
  induction texts with
  | nil => rfl
  | cons text rest ih =>
    have others := ih fun text member => all text (List.mem_cons_of_mem _ member)
    have first := all text List.mem_cons_self
    cases rest with
    | nil => simpa using first
    | cons next rest =>
      rw [String.intercalate_cons_cons]
      exact (first.append between).append others

/-- A text in parentheses. -/
theorem enclosed (body : Balanced a) : Balanced ("(" ++ a ++ ")") := by
  have inside : outside.inner.after? a.toList = some outside.inner := inner_after? body
  have opening : outside.after? "(".toList = some outside.inner := rfl
  have closing : outside.inner.after? ")".toList = some outside := rfl
  rw [Balanced, String.toList_append, String.toList_append, after?_append, after?_append, opening,
    Option.bind_some, inside, Option.bind_some, closing]

theorem closed (h : Balanced a) : QuotesClosed a :=
  quotedAfter_of_after? h

end Balanced

theorem Unmarked.balanced {text : String} (h : Unmarked text) : Balanced text :=
  outside.after?_of_unmarked h

theorem balanced_stringLiteral (d : Dialect) (text : String) : Balanced (d.stringLiteral text) := by
  have opening : outside.read? '\'' = some ⟨0, true⟩ := rfl
  have closing : after? ⟨0, true⟩ ['\''] = some outside := rfl
  rw [Balanced, toList_stringLiteral, after?, opening, Option.bind_some, after?_append,
    after?_doubleQuotes, Option.bind_some, closing]

/-- After an opening parenthesis, the last character closes it exactly when the text between is
balanced. -/
theorem closesAtEnd_iff (here : Nesting) (cs : List Char) :
    closesAtEnd here.inner.depth here.inner.quoted (cs ++ [')']) = true ↔
      here.after? cs = some outside := by
  induction cs generalizing here with
  | nil =>
    obtain ⟨depth, quoted⟩ := here
    cases quoted <;> simp [closesAtEnd, Nesting.inner, after?, outside]
  | cons c cs ih =>
    obtain ⟨depth, quoted⟩ := here
    have more : (cs ++ [')']).isEmpty = false := by simp
    rw [List.cons_append, closesAtEnd, after?]
    by_cases quote : c = '\''
    · have toggled := ih ⟨depth, !quoted⟩
      simpa [quote, read?, Nesting.inner] using toggled
    · cases quoted with
      | true =>
        have kept := ih ⟨depth, true⟩
        simpa [quote, read?, Nesting.inner] using kept
      | false =>
        by_cases opening : c = '('
        · have deeper := ih ⟨depth + 1, false⟩
          simpa [opening, read?, Nesting.inner] using deeper
        · by_cases closing : c = ')'
          · cases depth with
            | zero => simp [closing, read?, Nesting.inner]
            | succ depth =>
              have outer := ih ⟨depth, false⟩
              simpa [closing, read?, Nesting.inner] using outer
          · have kept := ih ⟨depth, false⟩
            simpa [quote, opening, closing, read?, Nesting.inner] using kept

/-- The scan finds exactly the texts that one pair of parentheses spans. -/
theorem isParenthesized_iff (text : String) : isParenthesized text = true ↔ Spans text := by
  simp only [isParenthesized, Bool.and_eq_true, decide_eq_true_eq]
  constructor
  · rintro ⟨⟨first, last⟩, ends⟩
    obtain ⟨front, shape⟩ := List.getLast?_eq_some_iff.mp last
    rw [shape] at first ends
    cases front with
    | nil => cases first
    | cons c cs =>
      obtain rfl : c = '(' := Option.some.inj first
      refine ⟨String.ofList cs, ?_, ?_⟩
      · apply String.toList_injective
        simp [shape]
      · rw [Balanced, String.toList_ofList]
        exact (closesAtEnd_iff outside cs).mp ends
  · rintro ⟨body, rfl, inside⟩
    have shape : ("(" ++ body ++ ")").toList = '(' :: (body.toList ++ [')']) := by simp
    rw [shape]
    refine ⟨⟨rfl, List.getLast?_eq_some_iff.mpr ⟨'(' :: body.toList, rfl⟩⟩, ?_⟩
    exact (closesAtEnd_iff outside body.toList).mpr inside

/-- Parentheses are put around a balanced text unless a pair spans it already. -/
theorem Balanced.spans_parenthesize {text : String} (h : Balanced text) :
    Spans (parenthesize text) := by
  unfold parenthesize
  split
  next found => exact (isParenthesized_iff text).mp found
  · exact ⟨text, rfl, h⟩

def andBetween : List Char := " AND ".toList

/-- Cuts a text at every `AND` outside all parentheses and literals, from some place in it on;
`current` is what was read since the last cut, the last character first. There is no result if the
text is not balanced. -/
def cutFrom? : Nesting → List Char → List Char → Option (List String)
  | here, current, [] => if here = outside then some [String.ofList current.reverse] else none
  | here, current, c :: cs =>
    (here.read? c).bind fun next =>
      if next = outside ∧ andBetween.reverse <+: c :: current then
        (cutFrom? next [] cs).map (String.ofList (current.drop 4).reverse :: ·)
      else cutFrom? next (c :: current) cs

/-- The conditions that a text joins by `AND`. -/
def conjuncts? (text : String) : Option (List String) :=
  cutFrom? outside [] text.toList

section Cut

variable {here there : Nesting} {current cs rest : List Char}

/-- Nothing is cut in parentheses. -/
theorem cutFrom?_inner (read : here.after? cs = some there) :
    cutFrom? here.inner current (cs ++ rest) =
      cutFrom? there.inner (cs.reverse ++ current) rest := by
  induction cs generalizing here current with
  | nil =>
    obtain rfl := Option.some.inj read
    rfl
  | cons c cs ih =>
    obtain ⟨next, first, others⟩ := Option.bind_eq_some_iff.mp read
    have within : ¬ (next.inner = outside ∧ andBetween.reverse <+: c :: current) :=
      fun cut => next.inner_ne_outside cut.1
    rw [List.cons_append, cutFrom?, inner_read? first, Option.bind_some, if_neg within, ih others,
      List.reverse_cons, List.append_assoc, List.singleton_append]

/-- A text that a pair of parentheses spans is not cut. -/
theorem cutFrom?_spans {text : String} (spans : Spans text) (rest : List Char) :
    cutFrom? outside [] (text.toList ++ rest) = cutFrom? outside text.toList.reverse rest := by
  obtain ⟨body, rfl, inside⟩ := spans
  have shape : ("(" ++ body ++ ")").toList ++ rest = '(' :: (body.toList ++ ')' :: rest) := by simp
  have reversed : ("(" ++ body ++ ")").toList.reverse = ')' :: (body.toList.reverse ++ ['(']) := by
    simp
  have opening : outside.read? '(' = some outside.inner := rfl
  have closing : outside.inner.read? ')' = some outside := rfl
  have first : ¬ (outside.inner = outside ∧ andBetween.reverse <+: ['(']) :=
    fun cut => outside.inner_ne_outside cut.1
  have last : ∀ before, ¬ (outside = outside ∧ andBetween.reverse <+: ')' :: before) := by
    rintro before ⟨-, ends⟩
    cases (List.cons_prefix_cons.mp ends).1
  rw [shape, reversed, cutFrom?, opening, Option.bind_some, if_neg first, cutFrom?_inner inside,
    cutFrom?, closing, Option.bind_some, if_neg (last _)]

/-- An `AND` behind a parenthesis is cut at. -/
theorem cutFrom?_and (before rest : List Char) :
    cutFrom? outside (')' :: before) (andBetween ++ rest) =
      (cutFrom? outside [] rest).map (String.ofList (')' :: before).reverse :: ·) := by
  have word : andBetween = [' ', 'A', 'N', 'D', ' '] := by decide
  have backward : andBetween.reverse = [' ', 'D', 'N', 'A', ' '] := by decide
  have blank : outside.read? ' ' = some outside := by decide
  have a : outside.read? 'A' = some outside := by decide
  have n : outside.read? 'N' = some outside := by decide
  have d : outside.read? 'D' = some outside := by decide
  rw [word]
  simp [cutFrom?, blank, a, n, d, backward]

theorem Spans.reverse_eq {text : String} (spans : Spans text) :
    ∃ before, text.toList.reverse = ')' :: before := by
  obtain ⟨body, rfl, -⟩ := spans
  exact ⟨body.toList.reverse ++ ['('], by simp⟩

/-- Texts that pairs of parentheses span are read back, whatever is in the parentheses. -/
theorem conjuncts?_intercalate {texts : List String} (any : texts ≠ [])
    (spans : ∀ text ∈ texts, Spans text) :
    conjuncts? (String.intercalate " AND " texts) = some texts := by
  unfold conjuncts?
  induction texts with
  | nil => exact absurd rfl any
  | cons text others ih =>
    have first := spans text List.mem_cons_self
    cases others with
    | nil =>
      have whole := cutFrom?_spans first []
      rw [List.append_nil] at whole
      rw [String.intercalate_singleton, whole, cutFrom?, if_pos rfl, List.reverse_reverse,
        String.ofList_toList]
    | cons next others =>
      have later := ih nofun fun text member => spans text (List.mem_cons_of_mem _ member)
      obtain ⟨before, ends⟩ := first.reverse_eq
      have whole : String.ofList (')' :: before).reverse = text := by
        rw [← ends, List.reverse_reverse, String.ofList_toList]
      rw [String.intercalate_cons_cons, String.toList_append, String.toList_append,
        List.append_assoc, cutFrom?_spans first, ← andBetween, ends, cutFrom?_and, later, whole]
      rfl

end Cut

end PredicateSql
