import PredicateSql.Proofs.Condition.Scalars
import PredicateSql.Proofs.Quoting.Nesting

/-!
Literals are balanced: they close their quotes and their parentheses. Texts are doubled quotes
between quotes, and what is written without quotes is a number or a word that has no mark in it.
-/
namespace PredicateSql

/-- A character of what is written without quotes: numbers and words. -/
def isBareChar (c : Char) : Bool :=
  c.isAlphanum || c = '-' || c = '.'

def IsBare (text : String) : Prop :=
  text.toList.all isBareChar = true

instance (text : String) : Decidable (IsBare text) :=
  inferInstanceAs (Decidable (_ = true))

theorem isBare_ofList {cs : List Char} : IsBare (String.ofList cs) ↔ cs.all isBareChar = true := by
  rw [IsBare, String.toList_ofList]

theorem isBare_append {a b : String} : IsBare (a ++ b) ↔ IsBare a ∧ IsBare b := by
  simp only [IsBare, String.toList_append, List.all_append, Bool.and_eq_true]

/-- No mark is written without quotes. -/
theorem IsBare.unmarked {text : String} (h : IsBare text) : Unmarked text := by
  intro mark isMark member
  have bare := List.all_eq_true.mp h mark member
  have none : ∀ mark ∈ marks, isBareChar mark = false := forall_mem_marks.mpr (by decide)
  rw [none mark isMark] at bare
  cases bare

theorem all_isBareChar_toDigits (n : Nat) : (Nat.toDigits 10 n).all isBareChar = true := by
  refine List.all_eq_true.mpr fun c member => ?_
  have digit := Nat.isDigit_of_mem_toDigits (by decide) (by decide) member
  simp [isBareChar, Char.isAlphanum, digit]

theorem isBare_toString_nat (n : Nat) : IsBare (toString n) := by
  rw [Nat.toString_eq_ofList_toDigits, isBare_ofList]
  exact all_isBareChar_toDigits n

theorem isBare_toString_int (i : Int) : IsBare (toString i) := by
  cases i with
  | ofNat n => exact isBare_toString_nat n
  | negSucc n =>
    have sign : IsBare "-" := by decide
    exact isBare_append.mpr ⟨sign, isBare_toString_nat (n + 1)⟩

namespace Double

theorem all_isBareChar_shortest (tie : Tie) (x : Double) :
    (x.shortest tie).digits.all isBareChar = true := by
  unfold shortest
  split
  · rfl
  · dsimp only
    split
    next c t found =>
      refine List.all_eq_true.mpr fun digit member =>
        List.all_eq_true.mp (all_isBareChar_toDigits c) digit ?_
      have dropped := List.mem_reverse.mp member
      exact List.mem_reverse.mp (List.dropWhile_suffix _ |>.subset dropped)
    · rfl

theorem all_isBareChar_positional {x : Digits} (digits : x.digits.all isBareChar = true) :
    x.positional.all isBareChar = true := by
  unfold Digits.positional
  have zero : isBareChar '0' = true := by decide
  have point : isBareChar '.' = true := by decide
  have all := List.all_eq_true.mp digits
  have front : ∀ n, (x.digits.take n).all isBareChar = true :=
    fun n => List.all_eq_true.mpr fun c member => all c (List.mem_of_mem_take member)
  have back : ∀ n, (x.digits.drop n).all isBareChar = true :=
    fun n => List.all_eq_true.mpr fun c member => all c (List.mem_of_mem_drop member)
  split
  · simp [zero]
  · split
    · simp [digits, zero, point]
    · dsimp only
      split
      · simp [digits, zero]
      · simp [front, back, point]

theorem positional_ne_nil (x : Digits) : x.positional ≠ [] := by
  unfold Digits.positional
  split
  · simp
  next some =>
    have given : x.digits ≠ [] := by simpa using some
    split
    · simp
    · dsimp only
      split
      · simp [given]
      · simp

theorem isBare_text (x : Double) : IsBare x.text := by
  have words : IsBare "NaN" ∧ IsBare "inf" ∧ IsBare "-inf" ∧ IsBare "-" := by decide
  obtain ⟨unknown, infinite, negative, sign⟩ := words
  unfold text
  split
  · exact unknown
  · split
    · split
      · exact negative
      · exact infinite
    · rw [isBare_ofList, List.all_append, Bool.and_eq_true]
      refine ⟨?_, all_isBareChar_positional (all_isBareChar_shortest _ x)⟩
      unfold signText
      split
      · exact sign
      · rfl

end Double

theorem isBare_boolLiteral (d : Dialect) (b : Bool) : IsBare (d.boolLiteral b) := by
  cases d <;> cases b <;> decide

theorem isMark_quote : '\'' ∈ marks :=
  List.mem_cons_self

theorem unquoted_toString_int (i : Int) : Unquoted (toString i) :=
  (isBare_toString_int i).unmarked.unquoted

theorem Double.unquoted_text (x : Double) : Unquoted x.text :=
  x.isBare_text.unmarked.unquoted

theorem unmarked_boolLiteral (d : Dialect) (b : Bool) : Unmarked (d.boolLiteral b) :=
  (isBare_boolLiteral d b).unmarked

theorem unquoted_boolLiteral (d : Dialect) (b : Bool) : Unquoted (d.boolLiteral b) :=
  (unmarked_boolLiteral d b).unquoted

/-- One literal: a number or a word, or a text in quotes. -/
def IsOneLiteral (text : String) : Prop :=
  (text ≠ "" ∧ IsBare text) ∨ ∃ content, lexLiteral text.toList = some (content, [])

instance (text : String) : Decidable (IsOneLiteral text) :=
  decidable_of_iff ((text ≠ "" ∧ IsBare text) ∨
    (lexLiteral text.toList).any (·.2.isEmpty) = true) <| by
    refine or_congr_right ?_
    simp [Option.any_eq_true]

theorem isOneLiteral_stringLiteral (d : Dialect) (content : String) :
    IsOneLiteral (d.stringLiteral content) :=
  .inr ⟨content.toList, lexLiteral_stringLiteral_alone d content⟩

theorem IsOneLiteral.balanced {text : String} (h : IsOneLiteral text) : Balanced text := by
  rcases h with ⟨-, bare⟩ | ⟨content, read⟩
  · exact bare.unmarked.balanced
  · rw [eq_stringLiteral_of_lexLiteral .mssql read]
    exact balanced_stringLiteral _ _

theorem isOneLiteral_toString_int (i : Int) : IsOneLiteral (toString i) := by
  refine .inl ⟨?_, isBare_toString_int i⟩
  cases i with
  | ofNat n => exact Nat.repr_ne_empty
  | negSucc n =>
    have signed : toString (Int.negSucc n) = "-" ++ (n + 1).repr := rfl
    simp [signed, ← String.toList_inj]

theorem Double.isOneLiteral_text (x : Double) : IsOneLiteral x.text := by
  refine .inl ⟨?_, x.isBare_text⟩
  unfold text
  split
  · decide
  · split
    · split <;> decide
    · intro none
      have empty := congrArg String.toList none
      rw [String.toList_ofList] at empty
      exact positional_ne_nil _ (List.append_eq_nil_iff.mp empty).2

theorem isOneLiteral_boolLiteral (d : Dialect) (b : Bool) : IsOneLiteral (d.boolLiteral b) := by
  refine .inl ⟨?_, isBare_boolLiteral d b⟩
  cases d <;> cases b <;> decide

/-- A scalar is written as one literal. -/
theorem Value.isOneLiteral_render (d : Dialect) (w : Wildcard) (hint : Option ColumnKind)
    {v : Value} (single : v.isScalar = true) : IsOneLiteral (v.render d w hint) := by
  have scalar : ∀ {v : Value}, (v.valueClass.isQuoted = false → IsOneLiteral v.text) →
      IsOneLiteral (renderScalar d w hint v) := by
    intro v plain
    cases quoted : v.valueClass.isQuoted with
    | true =>
      simp only [renderScalar, quoted, Bool.or_true, if_true]
      exact isOneLiteral_stringLiteral d _
    | false =>
      cases hint <;> simp only [renderScalar, quoted, Bool.or_false] <;> split
      · exact isOneLiteral_stringLiteral d _
      · exact plain quoted
      · exact isOneLiteral_stringLiteral d _
      · exact plain quoted
  cases v with
  | null | list => cases single
  | bool b => exact isOneLiteral_boolLiteral d b
  | int n => exact scalar fun _ => isOneLiteral_toString_int n.toInt
  | float x => exact scalar fun _ => x.isOneLiteral_text
  | _ => exact scalar fun plain => by cases plain

/-- Whatever parenthesis or quote is in a value, its literal is balanced. -/
theorem Value.balanced_render (d : Dialect) (w : Wildcard) (hint : Option ColumnKind) (v : Value) :
    Balanced (v.render d w hint) := by
  induction v using Value.inductionOnScalars with
  | list items ih =>
    rw [render]
    refine Balanced.intercalate (Unmarked.balanced (by decide)) ?_
    intro text member
    obtain ⟨item, held, rfl⟩ := List.mem_map.mp (renderItems_eq_map d w hint items ▸ member)
    exact ih item held
  | null =>
    have word : Unmarked "NULL" := by decide
    exact word.balanced
  | scalar v single => exact (isOneLiteral_render d w hint single).balanced

/-- Every literal that begins in the text of a value ends in it. -/
theorem Value.quotesClosed_render (d : Dialect) (w : Wildcard) (hint : Option ColumnKind)
    (v : Value) : QuotesClosed (v.render d w hint) :=
  (v.balanced_render d w hint).closed

end PredicateSql
