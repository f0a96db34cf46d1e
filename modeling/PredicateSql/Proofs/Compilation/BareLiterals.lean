import PredicateSql.Proofs.Compilation.Calls
import PredicateSql.Proofs.Number.Numerals
import PredicateSql.Proofs.Quoting.Literals

/-!
What is written without quotes. A scalar is written as a literal of SQL, and a number as a numeral
that is read as that number again, but for infinities and NaN: where no quotes are asked for they
are written as words.
-/
namespace PredicateSql

/-- The decimal stands for the number that the value holds. -/
def Value.IsNumber : Value → Decimal → Prop
  | .int i, d => d.value = i.toInt
  | .float x, d => Double.ofDecimal .double d = x
  | _, _ => False

/-- The text is a literal for the scalar: its text in quotes with the pattern open, a truth value in
the words of the dialect, or a numeral for the number. -/
inductive Value.IsLiteralText (d : Dialect) (w : Wildcard) (v : Value) (text : String) : Prop
  | quoted (read : lexLiteral text.toList = some ((w.apply v.text).toList, []))
  | truth (b : Bool) (held : v = .bool b) (word : text = d.boolLiteral b)
  | numeral (y : Numeral) (spelled : text = y.text) (number : v.IsNumber y.decimal)

/-- An infinity or NaN for which no quotes are asked. -/
def Value.isWord (hint : Option ColumnKind) : Value → Bool
  | .float x => !x.isFinite && !hint.any ColumnKind.isQuoted
  | _ => false

namespace Numeral

/-- No numeral is a word. -/
theorem text_ne {word : String} {c : Char} (x : Numeral)
    (begins : (Decimal.splitSign word.toList).2.head? = some c)
    (letter : Decimal.isDigit c = false) : x.text ≠ word := by
  rintro rfl
  obtain ⟨c', cs, digit, same⟩ := x.exists_cons
  rw [x.splitSign_text, same] at begins
  obtain rfl := Option.some.inj begins
  cases letter.symm.trans digit

end Numeral

namespace Double

def words : List String := ["NaN", "inf", "-inf"]

theorem text_mem_words {x : Double} (infinite : x.isFinite = false) : x.text ∈ words := by
  have field : x.exponentField = 2047 := by simpa [isFinite] using infinite
  rw [text]
  cases unknown : x.isNaN with
  | true => simp [words]
  | false =>
    have endless : x.isInfinite = true := by
      simp only [isNaN, field, decide_true, Bool.true_and, decide_eq_false_iff_not,
        not_not] at unknown
      simp [isInfinite, field, unknown]
    cases x.negative <;> simp [words, endless]

end Double

namespace Value

variable {d : Dialect} {w : Wildcard} {hint : Option ColumnKind} {v : Value}

theorem isLiteralText_stringLiteral (d : Dialect) (w : Wildcard) (v : Value) :
    v.IsLiteralText d w (d.stringLiteral (w.apply v.text)) :=
  .quoted (lexLiteral_stringLiteral_alone d (w.apply v.text))

theorem not_isLiteralText_of_mem_words {x : Double} {text : String} (word : text ∈ Double.words) :
    ¬ (float x).IsLiteralText d w text := by
  simp only [Double.words, List.mem_cons, List.not_mem_nil, or_false] at word
  intro literal
  cases literal with
  | quoted read => rcases word with rfl | rfl | rfl <;> cases read
  | truth b held => cases held
  | numeral y spelled =>
    rcases word with rfl | rfl | rfl
    · exact y.text_ne (c := 'N') rfl rfl spelled.symm
    · exact y.text_ne (c := 'i') rfl rfl spelled.symm
    · exact y.text_ne (c := 'i') rfl rfl spelled.symm

/-- A scalar is written as a literal for it, unless it is a word. -/
theorem isLiteralText_render_iff (d : Dialect) (w : Wildcard) (hint : Option ColumnKind)
    (single : v.isScalar = true) :
    (v.IsLiteralText d w (v.render d w hint) ↔ v.isWord hint = false) ∧
      (v.isWord hint = true → v.render d w hint ∈ Double.words) := by
  have literal (written : v.IsLiteralText d w (v.render d w hint))
      (ordinary : v.isWord hint = false) :
      (v.IsLiteralText d w (v.render d w hint) ↔ v.isWord hint = false) ∧
        (v.isWord hint = true → v.render d w hint ∈ Double.words) :=
    ⟨iff_of_true written ordinary, fun word => absurd word (Bool.eq_false_iff.mp ordinary)⟩
  by_cases truth : ∃ b, v = .bool b
  · obtain ⟨b, rfl⟩ := truth
    exact literal (.truth b rfl rfl) rfl
  · have text := render_of_ne_bool d w hint single fun b same => truth ⟨b, same⟩
    by_cases quoted : (hint.any ColumnKind.isQuoted || v.valueClass.isQuoted) = true
    · rw [if_pos quoted] at text
      refine literal (text ▸ isLiteralText_stringLiteral d w v) ?_
      cases v with
      | float x =>
        have asked : hint.any ColumnKind.isQuoted = true := by
          simpa [valueClass, ValueClass.isQuoted] using quoted
        simp [isWord, asked]
      | _ => rfl
    · rw [if_neg quoted] at text
      rw [Bool.or_eq_true, not_or, Bool.not_eq_true] at quoted
      -- only numbers are bare
      cases v with
      | bool b => exact absurd ⟨b, rfl⟩ truth
      | null | list => cases single
      | int i =>
        obtain ⟨y, spelled, number⟩ := Numeral.exists_toString_int i.toInt
        exact literal (.numeral y (text.trans spelled) number) rfl
      | float x =>
        cases finite : x.isFinite with
        | true =>
          obtain ⟨y, spelled, number⟩ := Double.exists_text finite
          exact literal (.numeral y (text.trans spelled) number) (by simp [isWord, finite])
        | false =>
          have word : (float x).isWord hint = true := by simp [isWord, finite, quoted.1]
          have written : (float x).render d w hint ∈ Double.words :=
            text ▸ Double.text_mem_words finite
          exact ⟨iff_of_false (not_isLiteralText_of_mem_words written) (by simp [word]),
            fun _ => written⟩
      | _ => exact absurd rfl quoted.2

end Value

/-- The finished text is made of the texts of the pieces. -/
theorem Token.renderAll_eq_ok {d : Dialect} {ts : List Token} {text : String}
    (finished : renderAll d ts = .ok text) :
    ∃ pieces : List String, text = String.join pieces ∧
      List.Forall₂ (fun t piece => t.render d = .ok piece) ts pieces := by
  induction ts generalizing text with
  | nil =>
    obtain rfl := Except.ok.inj finished
    exact ⟨[], rfl, .nil⟩
  | cons t rest ih =>
    cases first : t.render d with
    | error e => simp [renderAll, first, bind, Except.bind] at finished
    | ok piece =>
      cases others : renderAll d rest with
      | error e => simp [renderAll, first, others, bind, Except.bind] at finished
      | ok more =>
        obtain ⟨pieces, rfl, each⟩ := ih others
        simp only [renderAll, first, others, bind, Except.bind, Except.ok.injEq] at finished
        exact ⟨piece :: pieces, by rw [← finished, String.join_cons], .cons first each⟩

/-- A finished text is made of the texts of its pieces, and where a literal stands each of its
scalars is a literal of SQL, in quotes or a truth value or a numeral that is read as the number,
unless it is an infinity or NaN for which no quotes are asked. These are written as words. -/
theorem scalars_are_literals_iff {b : TokenBuffer} {d : Dialect} {text : String}
    (finished : b.finish d = .ok text) :
    ∃ pieces : List String, text = String.join pieces ∧ pieces.length = b.tokens.length ∧
      ∀ (i : Nat) (v : Value) (w : Wildcard) (hint : Option ColumnKind),
        b.tokens[i]? = some (.deferred v w hint) →
        ∃ scalar : Value → String, pieces[i]? = some (v.spell scalar) ∧
          ∀ x ∈ v.scalars, (x.IsLiteralText d w (scalar x) ↔ x.isWord hint = false) ∧
            (x.isWord hint = true → scalar x ∈ Double.words) := by
  obtain ⟨pieces, joined, each⟩ := Token.renderAll_eq_ok finished
  refine ⟨pieces, joined, each.length_eq.symm,
    fun i v w hint held => ⟨Value.render d w hint, ?_, ?_⟩⟩
  · obtain ⟨inside, piece⟩ := List.getElem?_eq_some_iff.mp held
    obtain ⟨length, texts⟩ := List.forall₂_iff_get.mp each
    have written := texts i inside (length ▸ inside)
    rw [List.get_eq_getElem, List.get_eq_getElem, piece] at written
    rw [List.getElem?_eq_some_iff]
    exact ⟨length ▸ inside, (Except.ok.inj written).symm.trans (Value.render_eq_spell d w hint v)⟩
  · exact fun x member =>
      Value.isLiteralText_render_iff d w hint (Value.isScalar_of_mem_scalars member)

namespace Bookshelf

def numbers : ColumnRef :=
  ⟨"Books", "Id", .int, none, none⟩

def tenth : Double := ⟨0x3FB999999999999A⟩

end Bookshelf

theorem tenths_are_written_as_numerals :
    let v := Value.list [.int (-5), .float Bookshelf.tenth, .null, .float .nan]
    let b : TokenBuffer :=
      ⟨[.column Bookshelf.numbers, .sql " IN (", .deferred v .trailing (some .int), .sql ")"]⟩
    b.finish .postgreSql = .ok "Books.\"Id\" IN (-5,0.1,NULL,NaN)" ∧
      ∃ (pieces : List String) (scalar : Value → String), pieces[2]? = some (v.spell scalar) ∧
        (Value.float Bookshelf.tenth).IsLiteralText .postgreSql .trailing
        (scalar (.float Bookshelf.tenth)) ∧
        ¬ (Value.float .nan).IsLiteralText .postgreSql .trailing (scalar (.float .nan)) := by
  intro v b
  have finished : b.finish .postgreSql = .ok "Books.\"Id\" IN (-5,0.1,NULL,NaN)" := by
    rfl
  obtain ⟨pieces, -, -, each⟩ := scalars_are_literals_iff finished
  obtain ⟨scalar, written, literals⟩ := each 2 v .trailing (some .int) rfl
  have tenth := literals (.float Bookshelf.tenth) (by simp [v, Value.scalars, Value.itemScalars])
  have unknown := literals (.float .nan) (by simp [v, Value.scalars, Value.itemScalars])
  refine ⟨finished, pieces, scalar, written, tenth.1.mpr (by decide), fun literal => ?_⟩
  exact absurd (unknown.1.mp literal) (by decide)

/-- NaN is written as a word, and a word is no literal. -/
theorem nan_is_no_literal :
    (Bookshelf.books.add .empty
      (.binary .lessThan (.member (.ofText "Id")) (.constant (.float .nan)))).2.fragments =
        ["(Books.\"Id\" < NaN)"] ∧
      ¬ (Value.float .nan).IsLiteralText .postgreSql .none "NaN" :=
  ⟨by decide +kernel, Value.not_isLiteralText_of_mem_words (by decide)⟩

end PredicateSql
