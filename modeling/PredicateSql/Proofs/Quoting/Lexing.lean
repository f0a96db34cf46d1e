import PredicateSql.Dialect
import PredicateSql.Sql.Parenthesized

/-!
String literals inside a text. A literal is read back as the text that it was made of and ends where
it was written to end, and a reader that keeps track of quotes comes out of it as it went in.
-/
namespace PredicateSql

/-- Reads on inside a literal: a doubled quote is one quote, and a lone quote ends the literal.
Returns the text of the literal and what follows it. -/
def lexQuoted : List Char → Option (List Char × List Char)
  | [] => none
  | c :: cs =>
    if c ≠ '\'' then (lexQuoted cs).map fun (text, rest) => (c :: text, rest)
    else
      match cs with
      | [] => some ([], [])
      | c' :: cs' =>
        if c' = '\'' then (lexQuoted cs').map fun (text, rest) => ('\'' :: text, rest)
        else some ([], c' :: cs')

/-- Reads the literal that a text begins with. -/
def lexLiteral : List Char → Option (List Char × List Char)
  | [] => none
  | c :: cs => if c = '\'' then lexQuoted cs else none

/-- What follows a literal is not taken for its continuation. -/
def Terminates (rest : List Char) : Prop :=
  rest.head? ≠ some '\''

theorem lexQuoted_cons_of_ne {c : Char} (other : c ≠ '\'') (cs : List Char) :
    lexQuoted (c :: cs) = (lexQuoted cs).map fun (text, rest) => (c :: text, rest) := by
  rw [lexQuoted.eq_def]
  simp only [other, ne_eq, not_false_eq_true, if_true]

theorem lexQuoted_doubleQuotes (text : List Char) {rest : List Char} (ends : Terminates rest) :
    lexQuoted (Dialect.doubleQuotes text ++ '\'' :: rest) = some (text, rest) := by
  induction text with
  | nil =>
    cases rest with
    | nil => rfl
    | cons c cs =>
      have other : c ≠ '\'' := fun same => ends (congrArg some same)
      simp [Dialect.doubleQuotes, lexQuoted, other]
  | cons c cs ih =>
    by_cases quote : c = '\''
    · subst quote
      simp [Dialect.doubleQuotes, lexQuoted, ih]
    · simp [Dialect.doubleQuotes, lexQuoted_cons_of_ne, quote, ih]

theorem toList_stringLiteral (d : Dialect) (text : String) :
    (d.stringLiteral text).toList = '\'' :: (Dialect.doubleQuotes text.toList ++ ['\'']) := by
  simp [Dialect.stringLiteral]

/-- A literal is read back, and it ends where it was written to end. -/
theorem lexLiteral_stringLiteral (d : Dialect) (text : String) {rest : List Char}
    (ends : Terminates rest) :
    lexLiteral ((d.stringLiteral text).toList ++ rest) = some (text.toList, rest) := by
  have written : (d.stringLiteral text).toList ++ rest =
      '\'' :: (Dialect.doubleQuotes text.toList ++ '\'' :: rest) := by
    simp [toList_stringLiteral]
  rw [written, lexLiteral, if_pos rfl, lexQuoted_doubleQuotes text.toList ends]

/-- By itself a literal is read to its end. -/
theorem lexLiteral_stringLiteral_alone (d : Dialect) (text : String) :
    lexLiteral (d.stringLiteral text).toList = some (text.toList, []) := by
  have ends : Terminates [] := nofun
  simpa using lexLiteral_stringLiteral d text ends

/-- What is read as a literal was written as one. -/
theorem eq_of_lexQuoted {cs text rest : List Char} (read : lexQuoted cs = some (text, rest)) :
    cs = Dialect.doubleQuotes text ++ '\'' :: rest := by
  fun_induction lexQuoted cs generalizing text with
  | case1 => cases read
  | case2 c cs other ih =>
    obtain ⟨⟨text', rest'⟩, inner, same⟩ := Option.map_eq_some_iff.mp read
    obtain ⟨rfl, rfl⟩ := Prod.mk.inj same
    rw [Dialect.doubleQuotes, if_neg other, ih inner, List.cons_append]
  | case3 c lone =>
    obtain ⟨rfl, rfl⟩ := Prod.mk.inj (Option.some.inj read)
    rw [Decidable.not_not.mp lone]
    rfl
  | case4 c lone cs ih =>
    obtain ⟨⟨text', rest'⟩, inner, same⟩ := Option.map_eq_some_iff.mp read
    obtain ⟨rfl, rfl⟩ := Prod.mk.inj same
    rw [Decidable.not_not.mp lone, Dialect.doubleQuotes, if_pos rfl, ih inner]
    rfl
  | case5 c lone c' cs other =>
    obtain ⟨rfl, rfl⟩ := Prod.mk.inj (Option.some.inj read)
    rw [Decidable.not_not.mp lone]
    rfl

theorem eq_stringLiteral_of_lexLiteral (d : Dialect) {text : String} {content : List Char}
    (read : lexLiteral text.toList = some (content, [])) :
    text = d.stringLiteral (String.ofList content) := by
  rw [← String.toList_inj, toList_stringLiteral, String.toList_ofList]
  cases spelled : text.toList with
  | nil => simp [spelled, lexLiteral] at read
  | cons c cs =>
    rw [spelled, lexLiteral] at read
    split at read
    next quote => rw [quote, ← eq_of_lexQuoted read]
    · cases read

/-- Whether a reader is inside a literal after some characters. -/
def quotedAfter (quoted : Bool) : List Char → Bool
  | [] => quoted
  | c :: cs => quotedAfter (if c = '\'' then !quoted else quoted) cs

theorem quotedAfter_append (quoted : Bool) (cs cs' : List Char) :
    quotedAfter quoted (cs ++ cs') = quotedAfter (quotedAfter quoted cs) cs' := by
  induction cs generalizing quoted with
  | nil => rfl
  | cons c cs ih => exact ih _

theorem quotedAfter_doubleQuotes (quoted : Bool) (cs : List Char) :
    quotedAfter quoted (Dialect.doubleQuotes cs) = quoted := by
  induction cs with
  | nil => rfl
  | cons c cs ih =>
    by_cases quote : c = '\''
    · simp [Dialect.doubleQuotes, quotedAfter, quote, ih]
    · simp [Dialect.doubleQuotes, quotedAfter, quote, ih]

/-- Every literal that begins in the text ends in it. -/
def QuotesClosed (text : String) : Prop :=
  quotedAfter false text.toList = false

/-- The marks that quote and that group. -/
def marks : List Char := ['\'', '(', ')']

theorem forall_mem_marks {p : Char → Prop} :
    (∀ mark ∈ marks, p mark) ↔ p '\'' ∧ p '(' ∧ p ')' := by
  simp [marks]

def Lacks (mark : Char) (text : String) : Prop :=
  mark ∉ text.toList

instance (mark : Char) (text : String) : Decidable (Lacks mark text) :=
  inferInstanceAs (Decidable (¬ _))

def Unmarked (text : String) : Prop :=
  ∀ mark ∈ marks, Lacks mark text

instance (text : String) : Decidable (Unmarked text) :=
  List.decidableBAll (Lacks · text) marks

def Unquoted (text : String) : Prop :=
  '\'' ∉ text.toList

instance (text : String) : Decidable (Unquoted text) :=
  inferInstanceAs (Decidable (¬ _))

section Lacks

variable {mark : Char}

@[simp]
theorem lacks_append {a b : String} : Lacks mark (a ++ b) ↔ Lacks mark a ∧ Lacks mark b := by
  simp only [Lacks, String.toList_append, List.mem_append, not_or]

theorem lacks_ofList {cs : List Char} : Lacks mark (String.ofList cs) ↔ mark ∉ cs := by
  rw [Lacks, String.toList_ofList]

theorem Lacks.intercalate {separator : String} {texts : List String}
    (between : Lacks mark separator) (all : ∀ text ∈ texts, Lacks mark text) :
    Lacks mark (String.intercalate separator texts) := by
  induction texts with
  | nil => exact List.not_mem_nil
  | cons text rest ih =>
    have others := ih fun text member => all text (List.mem_cons_of_mem _ member)
    have first := all text List.mem_cons_self
    cases rest with
    | nil => simpa using first
    | cons next rest =>
      rw [String.intercalate_cons_cons]
      simp only [lacks_append]
      exact ⟨⟨first, between⟩, others⟩

end Lacks

theorem Unmarked.unquoted {text : String} (h : Unmarked text) : Unquoted text :=
  h '\'' List.mem_cons_self

theorem Unquoted.intercalate {separator : String} {texts : List String}
    (between : Unquoted separator) (all : ∀ text ∈ texts, Unquoted text) :
    Unquoted (String.intercalate separator texts) :=
  Lacks.intercalate between all

theorem QuotesClosed.append {a b : String} (front : QuotesClosed a) (back : QuotesClosed b) :
    QuotesClosed (a ++ b) := by
  rw [QuotesClosed, String.toList_append, quotedAfter_append, front]
  exact back

theorem QuotesClosed.intercalate {separator : String} {texts : List String}
    (between : QuotesClosed separator) (all : ∀ text ∈ texts, QuotesClosed text) :
    QuotesClosed (String.intercalate separator texts) := by
  induction texts with
  | nil => rfl
  | cons text rest ih =>
    have others := ih fun text member => all text (List.mem_cons_of_mem _ member)
    have first := all text List.mem_cons_self
    cases rest with
    | nil => simpa using first
    | cons next rest =>
      rw [String.intercalate_cons_cons]
      exact (first.append between).append others

theorem Unquoted.closed {text : String} (h : Unquoted text) : QuotesClosed text := by
  have kept : ∀ cs : List Char, '\'' ∉ cs → quotedAfter false cs = false := by
    intro cs
    induction cs with
    | nil => exact fun _ => rfl
    | cons c cs ih =>
      intro absent
      simp only [List.mem_cons, not_or] at absent
      rw [quotedAfter, if_neg (Ne.symm absent.1)]
      exact ih absent.2
  exact kept _ h

theorem quotesClosed_stringLiteral (d : Dialect) (text : String) :
    QuotesClosed (d.stringLiteral text) := by
  rw [QuotesClosed, toList_stringLiteral, quotedAfter, quotedAfter_append,
    quotedAfter_doubleQuotes]
  rfl

theorem not_unquoted_stringLiteral (d : Dialect) (text : String) :
    ¬ Unquoted (d.stringLiteral text) := by
  simp [Unquoted, toList_stringLiteral]

theorem stringLiteral_inj (d : Dialect) {text text' : String} :
    d.stringLiteral text = d.stringLiteral text' ↔ text = text' := by
  constructor
  · intro same
    have read := lexLiteral_stringLiteral_alone d text
    rw [same, lexLiteral_stringLiteral_alone] at read
    exact (String.toList_injective (Prod.mk.inj (Option.some.inj read)).1).symm
  · rintro rfl
    rfl

/-- Parentheses inside a literal do not count. -/
theorem closesAtEnd_stringLiteral (d : Dialect) (text : String) (depth : Nat) (rest : List Char) :
    closesAtEnd depth false ((d.stringLiteral text).toList ++ rest) =
      closesAtEnd depth false rest := by
  have inside : ∀ cs : List Char,
      closesAtEnd depth true (Dialect.doubleQuotes cs ++ '\'' :: rest) =
        closesAtEnd depth false rest := by
    intro cs
    induction cs with
    | nil => simp [Dialect.doubleQuotes, closesAtEnd]
    | cons c cs ih =>
      by_cases quote : c = '\''
      · simp [Dialect.doubleQuotes, closesAtEnd, quote, ih]
      · simp [Dialect.doubleQuotes, closesAtEnd, quote, ih]
  rw [toList_stringLiteral, List.cons_append, List.append_assoc, List.singleton_append, closesAtEnd,
    if_pos rfl]
  exact inside text.toList

/-- After the same characters, what a reader finds depends only on what follows. -/
theorem closesAtEnd_append_congr {rest rest' : List Char} (ends : rest.head? = rest'.head?)
    (cs : List Char) (quoted : Bool)
    (same : ∀ depth, closesAtEnd depth (quotedAfter quoted cs) rest =
      closesAtEnd depth (quotedAfter quoted cs) rest') (depth : Nat) :
    closesAtEnd depth quoted (cs ++ rest) = closesAtEnd depth quoted (cs ++ rest') := by
  induction cs generalizing quoted depth with
  | nil => exact same depth
  | cons c cs ih =>
    have empty : (cs ++ rest).isEmpty = (cs ++ rest').isEmpty := by
      rw [Bool.eq_iff_iff, List.isEmpty_iff, List.isEmpty_iff, ← List.head?_eq_none_iff,
        ← List.head?_eq_none_iff, List.head?_append, List.head?_append, ends]
    by_cases quote : c = '\''
    · simp only [List.cons_append, closesAtEnd, quote, if_true]
      exact ih (!quoted) (by simpa [quotedAfter, quote] using same) depth
    · have next := ih quoted (by simpa [quotedAfter, quote] using same)
      simp only [List.cons_append, closesAtEnd, if_neg quote, next, empty]

end PredicateSql
