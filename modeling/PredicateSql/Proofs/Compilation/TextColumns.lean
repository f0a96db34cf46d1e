import PredicateSql.Proofs.Compilation.Calls
import PredicateSql.Proofs.Encryption.Literals
import PredicateSql.Proofs.Quoting.Literals

/-!
Literals on columns of text. Every scalar is written in quotes there, with the pattern that is asked
for, except a truth value that is not encrypted: it is written as the literal of the dialect before
it is asked what the column holds.
-/
namespace PredicateSql

/-- The text is one literal in quotes, and what it says is open where the wildcard asks for it. -/
def IsQuotedPattern (w : Wildcard) (text : String) : Prop :=
  ∃ content, lexLiteral text.toList = some ((w.apply content).toList, [])

theorem isQuotedPattern_stringLiteral (d : Dialect) (w : Wildcard) (content : String) :
    IsQuotedPattern w (d.stringLiteral (w.apply content)) :=
  ⟨content, lexLiteral_stringLiteral_alone d (w.apply content)⟩

theorem not_isQuotedPattern_of_unquoted {w : Wildcard} {text : String} (bare : Unquoted text) :
    ¬ IsQuotedPattern w text := by
  rintro ⟨content, read⟩
  rw [eq_stringLiteral_of_lexLiteral .mssql read] at bare
  exact not_unquoted_stringLiteral _ _ bare

namespace Value

theorem render_of_text_hint (d : Dialect) (w : Wildcard) {v : Value} (single : v.isScalar = true)
    (other : ∀ b, v ≠ .bool b) :
    v.render d w (some .string) = d.stringLiteral (w.apply v.text) := by
  rw [render_of_ne_bool d w _ single other]
  rfl

/-- On text a scalar is in quotes exactly if it is no truth value. -/
theorem isQuotedPattern_render_iff (d : Dialect) (w : Wildcard) {v : Value}
    (single : v.isScalar = true) :
    IsQuotedPattern w (v.render d w (some .string)) ↔ ∀ b, v ≠ .bool b := by
  constructor
  · rintro quoted b rfl
    exact not_isQuotedPattern_of_unquoted (unquoted_boolLiteral d b) quoted
  · intro other
    rw [render_of_text_hint d w single other]
    exact isQuotedPattern_stringLiteral d w v.text

end Value

theorem EnumDef.translate_eq_bool_iff {d : EnumDef} {v : Value} {b : Bool} :
    d.translate v = .bool b ↔ v = .bool b := by
  constructor
  · exact EnumDef.eq_of_translate_eq_bool
  · rintro rfl
    rfl

/-- The names that are found for a literal are those of its scalars; truth values are left as they
are. -/
theorem BindingContext.named_spelled {context : BindingContext} {c : ColumnRef} {v v' : Value}
    {w : Wildcard} (named : context.named c v w = .ok v') :
    ∃ scalar : Value → Value, (∀ f, v'.spell f = v.spell fun x => f (scalar x)) ∧
      (∀ x, x.isScalar = true → (scalar x).isScalar = true) ∧
        ∀ x b, scalar x = .bool b ↔ x = .bool b := by
  have same (given : v' = v) : ∃ scalar : Value → Value,
      (∀ f, v'.spell f = v.spell fun x => f (scalar x)) ∧
      (∀ x, x.isScalar = true → (scalar x).isScalar = true) ∧
      ∀ x b, scalar x = .bool b ↔ x = .bool b :=
    ⟨id, fun f => by rw [given]; rfl, fun _ single => single, fun _ _ => Iff.rfl⟩
  unfold BindingContext.named at named
  split at named
  · exact same (Except.ok.inj named).symm
  · split at named
    · split at named
      · cases named
      next d _ =>
        exact ⟨d.translate, Value.spell_resolveEnum named, fun _ => EnumDef.isScalar_translate,
          fun _ _ => EnumDef.translate_eq_bool_iff⟩
    · exact same (Except.ok.inj named).symm

/-- On a column of text every scalar is one literal in quotes with the pattern in it, unless it is a
truth value and the column is not encrypted; then it is the literal of the dialect. -/
theorem bindLiteral_quotes {context : BindingContext} {c : ColumnRef} {v : Value} {w : Wildcard}
    {l : Literal} (bound : bindLiteral context c v w = .ok l) (textual : c.isTextual = true)
    (d : Dialect) :
    ∃ scalar : Value → String, l.sql d = v.spell scalar ∧ ∀ x ∈ v.scalars,
      (IsQuotedPattern w (scalar x) ↔ c.cipher.isSome = true ∨ ∀ b, x ≠ .bool b) ∧
      ∀ b, x = .bool b → c.cipher = none → scalar x = d.boolLiteral b := by
  obtain ⟨v', named, closed⟩ := bindLiteral_eq_ok.mp bound
  obtain ⟨name, spelled, single, truth⟩ := BindingContext.named_spelled named
  cases cipher : c.cipher with
  | some spec =>
    cases derived : FieldCipher.ofSpec context.settings spec with
    | error e => simp [BindingContext.sealed, cipher, derived, Except.map] at closed
    | ok key =>
      simp only [BindingContext.sealed, cipher, derived, Except.map, Except.ok.injEq] at closed
      subst closed
      refine ⟨_, (Value.render_encrypt d key w v').trans (spelled _),
        fun x member => ⟨?_, fun _ _ bare => ?_⟩⟩
      · exact iff_of_true (isQuotedPattern_stringLiteral d w _) (.inl rfl)
      · cases bare
  | none =>
    have hint : (if c.stringify.isSome then ColumnKind.string else c.kind) = .string := by
      rcases Bool.or_eq_true_iff.mp textual with kind | named <;> simp_all
    simp only [BindingContext.sealed, cipher, hint, Except.ok.injEq] at closed
    subst closed
    refine ⟨_, (Value.render_eq_spell d w _ v').trans (spelled _), fun x member => ⟨?_, ?_⟩⟩
    · rw [Value.isQuotedPattern_render_iff d w (single x (Value.isScalar_of_mem_scalars member))]
      simp [truth x]
    · rintro b given -
      rw [(truth x b).mpr given]
      rfl

theorem Token.resolveAll_getElem? {context : BindingContext} {c : ColumnRef} {ts ts' : List Token}
    (resolved : resolveAll context c ts = (.ok (), ts')) {i : Nat} {t : Token}
    (found : ts[i]? = some t) :
    ∃ t', t.resolve context c = (.ok (), t') ∧ ts'[i]? = some t' := by
  induction ts generalizing ts' i with
  | nil => cases found
  | cons first rest ih =>
    obtain ⟨first', rest', one, others, rfl⟩ := resolveAll_cons_ok.mp resolved
    cases i with
    | zero =>
      obtain rfl := Option.some.inj found
      exact ⟨first', one, rfl⟩
    | succ i => exact ih others found

/-- Every literal behind the mark that is not bound yet is bound to the first column there. -/
theorem TokenBuffer.bindSpan_getElem? {context : BindingContext} {b b' : TokenBuffer}
    {start i : Nat} {c : ColumnRef} {v : Value} {w : Wildcard}
    (bound : b.bindSpan context start = (.ok (), b'))
    (first : (b.tokens.drop start).findSome? Token.column? = some c) (behind : start ≤ i)
    (literal : b.tokens[i]? = some (.deferred v w none)) :
    ∃ l, bindLiteral context c v w = .ok l ∧ b'.tokens[i]? = some l.token := by
  rcases span : Token.bindSpan context (b.tokens.drop start) with ⟨outcome, ts⟩
  simp only [TokenBuffer.bindSpan, span, Prod.mk.injEq] at bound
  obtain ⟨rfl, rfl⟩ := bound
  rw [Token.bindSpan, first] at span
  have marked : ((b.tokens.drop start).map (Token.bindTo c))[i - start]? =
      some ((Token.deferred v w none).bindTo c) := by
    rw [List.getElem?_map, List.getElem?_drop, Nat.add_sub_cancel' behind, literal]
    rfl
  obtain ⟨t, resolved, written⟩ := Token.resolveAll_getElem? span marked
  obtain ⟨l, form, rfl⟩ := Token.resolve_bindTo_literal_ok.mp resolved
  have held : i < b.tokens.length := (List.getElem?_eq_some_iff.mp literal).1
  have front : (b.tokens.take start).length = start :=
    List.length_take_of_le (Nat.le_trans behind (Nat.le_of_lt held))
  refine ⟨l, form, ?_⟩
  rw [List.getElem?_append_right (by rwa [front]), front, written]

/-- Where the literals of a span are bound to a column of text, each scalar that is not null is
written as one literal in quotes with the pattern in it, whatever its type, but for truth values on
a column that is not encrypted. -/
theorem scalars_on_text_are_quoted_iff {context : BindingContext} {b b' : TokenBuffer}
    {start i : Nat} {c : ColumnRef} {v : Value} {w : Wildcard}
    (bound : b.bindSpan context start = (.ok (), b'))
    (first : (b.tokens.drop start).findSome? Token.column? = some c) (textual : c.isTextual = true)
    (behind : start ≤ i) (literal : b.tokens[i]? = some (.deferred v w none)) (d : Dialect) :
    ∃ (l : Literal) (scalar : Value → String), b'.tokens[i]? = some l.token ∧
      l.token.render d = .ok (v.spell scalar) ∧
      ∀ x ∈ v.scalars, (IsQuotedPattern w (scalar x) ↔ c.cipher.isSome = true ∨ ∀ b, x ≠ .bool b) ∧
        ∀ b, x = .bool b → c.cipher = none → scalar x = d.boolLiteral b := by
  obtain ⟨l, form, written⟩ := TokenBuffer.bindSpan_getElem? bound first behind literal
  obtain ⟨scalar, text, quotes⟩ := bindLiteral_quotes form textual d
  exact ⟨l, scalar, written, congrArg Except.ok text, quotes⟩

namespace Bookshelf

def titles : ColumnRef :=
  ⟨"Books", "Title", .string, none, none⟩

end Bookshelf

theorem titles_are_compared_as_text :
    let v := Value.list [.int 5, .bool true]
    let b : TokenBuffer := ⟨[.column Bookshelf.titles, .sql " LIKE ", .deferred v .trailing none]⟩
    let b' : TokenBuffer :=
      ⟨[.column Bookshelf.titles, .sql " LIKE ", .deferred v .trailing (some .string)]⟩
    b.bindSpan ⟨.empty, none⟩ 0 = (.ok (), b') ∧
      ∃ (l : Literal) (scalar : Value → String), b'.tokens[2]? = some l.token ∧
        l.token.render .postgreSql = .ok (v.spell scalar) ∧
        IsQuotedPattern .trailing (scalar (.int 5)) ∧ scalar (.bool true) = "true" := by
  intro v b b'
  have bound : b.bindSpan ⟨.empty, none⟩ 0 = (.ok (), b') := rfl
  obtain ⟨l, scalar, held, text, quotes⟩ :=
    scalars_on_text_are_quoted_iff (i := 2) bound rfl rfl (Nat.zero_le 2) rfl .postgreSql
  have five := quotes (.int 5) (by simp [v, Value.scalars, Value.itemScalars])
  have truth := quotes (.bool true) (by simp [v, Value.scalars, Value.itemScalars])
  exact ⟨bound, l, scalar, held, text, five.1.mpr (.inr (by simp)), truth.2 true rfl rfl⟩

/-- A truth value is written bare on a column of text, and without the pattern that is asked for. -/
theorem truth_is_no_text :
    (Bookshelf.books.add .empty
      (.startsWith Bookshelf.title (.constant (.bool true)))).2.fragments =
      ["(Books.\"Title\" LIKE true)"] ∧ ¬ IsQuotedPattern .trailing "true" :=
  ⟨by decide +kernel, not_isQuotedPattern_of_unquoted (by decide)⟩

end PredicateSql
