import PredicateSql.Proofs.Compilation.Acceptance
import PredicateSql.Proofs.Encryption.Booleans

/-!
Truth values in accepted predicates. What becomes of a truth value that is bound to a column is the
same wherever the column and the literal stand.
-/
namespace PredicateSql

open Lowering

variable {n : Nat}

theorem Expr.ne_modifier_of_strip {e e' : Expr} (shape : e.strip = e')
    (other : e'.isModifier = false) (m : Modifier) : e ≠ .modifier m := by
  rintro rfl
  subst shape
  cases other

namespace Compiler

/-- The call of a predicate is accepted and adds the condition, with the joins, aliases and
enumerations of `t` after it. -/
structure Adds (c : Compiler n) (bindings : Bindings) (e : Expr) (t : Progress) (k : Condition n) :
    Prop where
  derived : Lowers (c.context bindings) c.origin e c.progress k t
  accepted : c.add bindings e = (.ok (), c.extend t k)

/-- The call of a predicate is accepted and adds a condition with a literal at some place, which is
written as `text`. -/
def AddsLiteral (c : Compiler n) (bindings : Bindings) (e : Expr) (t : Progress)
    (place : Operand → Condition n) (text : String) : Prop :=
  ∃ l : BoundLiteral, l.written.sql c.input.dialect = text ∧
    c.Adds bindings e t (place (.literal l))

/-- What becomes of a predicate with a truth value at some place of its condition that is bound to
the column of a member. The truth value is written as the literal of the dialect just where the
member neither holds names nor is encrypted; an encrypted member makes it the ciphertext of its
text; and the predicate is rejected if the member holds names or has no key. -/
structure BindsTruth (c : Compiler n) (bindings : Bindings) (e : Expr) (t : Progress)
    (place : Operand → Condition n) (m : Target) (b : Bool) : Prop where
  bare : c.AddsLiteral bindings e t place (c.input.dialect.boolLiteral b) ↔
    m.names = none ∧ m.cipher = none
  encrypted : ∀ spec key, m.names = none → m.cipher = some spec →
    FieldCipher.ofSpec c.input.settings spec = .ok key →
    c.AddsLiteral bindings e t place
      (c.input.dialect.stringLiteral (key.encryptText (Value.bool b).text))
  rejected : m.names ≠ none ∨ (∃ spec ∈ m.cipher, ¬ spec.Keyed c.input.settings) →
    ∃ err c', c.add bindings e = (.error err, c')

section Adds

variable {c : Compiler n} {bindings : Bindings} {e : Expr} {t : Progress} {k : Condition n}

theorem adds_iff (predicate : ∀ m, e ≠ .modifier m) :
    c.Adds bindings e t k ↔ Lowers (c.context bindings) c.origin e c.progress k t :=
  ⟨fun h => h.derived, fun derived => ⟨derived, add_of_lowers predicate derived⟩⟩

theorem exists_adds_iff (predicate : ∀ m, e ≠ .modifier m) :
    (∃ t k, c.Adds bindings e t k) ↔ (c.add bindings e).1 = .ok () := by
  simp only [adds_iff predicate, add_ok_iff_lowers predicate]
  exact exists_comm

/-- The column of a member that the rows of the root have. -/
theorem resolved_column {path : MemberPath} {m : Target} {r : EnumRegistry}
    (resolves : c.input.schema.Resolves c.input.root c.registry.enums path m r)
    (bindings : Bindings) :
    ∃ column t, resolveColumn (c.context bindings) c.origin path c.progress = (.ok column, t) ∧
      t.enums = r ∧ column.Describes r m := by
  have entity : c.origin.entity = c.input.root := rfl
  have enums : c.progress.enums = c.registry.enums := rfl
  exact resolveColumn_of_resolves (c.context bindings) resolves entity enums

/-- A predicate that no condition can be derived for is rejected. -/
theorem error_of_not_lowers (predicate : ∀ m, e ≠ .modifier m)
    (none : ∀ k t, ¬ Lowers (c.context bindings) c.origin e c.progress k t) :
    ∃ err c', c.add bindings e = (.error err, c') := by
  rcases c.add_cases bindings predicate with ⟨err, c', rejected, -⟩ | ⟨k, t, derived, -⟩
  · exact ⟨err, c', rejected⟩
  · exact absurd derived (none k t)

/-- Whatever form the column gives the truth value is derived, and nothing else is. -/
theorem BindsTruth.of_lowers {place : Operand → Condition n} {column : ColumnRef} {m : Target}
    {r : EnumRegistry} {b : Bool} (describes : column.Describes r m)
    (predicate : ∀ m, e ≠ .modifier m)
    (binds : ∀ l, bindLiteral ⟨r, c.input.settings⟩ column (.bool b) .none = .ok l →
      ∃ l' : BoundLiteral, l'.written = l ∧
        Lowers (c.context bindings) c.origin e c.progress (place (.literal l')) t)
    (bound : ∀ k t', Lowers (c.context bindings) c.origin e c.progress k t' →
      ∃ l, bindLiteral ⟨r, c.input.settings⟩ column (.bool b) .none = .ok l ∧
        ∀ l', place (.literal l') = k → l'.written = l) :
    c.BindsTruth bindings e t place m b := by
  have names := describes.names_eq_none
  have cipher := describes.cipher
  have added : ∀ l, bindLiteral ⟨r, c.input.settings⟩ column (.bool b) .none = .ok l →
      c.AddsLiteral bindings e t place (l.sql c.input.dialect) := by
    intro l form
    obtain ⟨l', rfl, derived⟩ := binds l form
    exact ⟨l', rfl, (adds_iff predicate).mpr derived⟩
  constructor
  · have bare : (∃ l, bindLiteral ⟨r, c.input.settings⟩ column (.bool b) .none = .ok l ∧
        l.sql c.input.dialect = c.input.dialect.boolLiteral b) ↔
        column.stringify = none ∧ column.cipher = none := bindLiteral_bool_bare _
    rw [names, ← cipher, ← bare]
    constructor
    · rintro ⟨l, text, adds⟩
      obtain ⟨l', form, same⟩ := bound _ _ adds.derived
      rw [same l rfl] at text
      exact ⟨l', form, text⟩
    · rintro ⟨l, form, text⟩
      rw [← text]
      exact added l form
  · intro spec key unnamed encrypted derived
    exact added _ (bindLiteral_bool.mpr
      ⟨names.mp unnamed, .inr ⟨spec, key, cipher.trans encrypted, derived, rfl⟩⟩)
  · intro untaken
    rw [Ne, names, ← cipher] at untaken
    refine error_of_not_lowers predicate fun k t' derived => ?_
    obtain ⟨l, form, -⟩ := bound k t' derived
    exact bindLiteral_bool_ne_ok untaken form

end Adds
end Compiler
end PredicateSql
