import PredicateSql.Proofs.Acceptance.Literals

/-!
What a literal gives away when it is written. A scalar says its own text or the name that it stands
for, and where the column is encrypted only the ciphertext of that is written.
-/
namespace PredicateSql

/-- What a scalar says to a column that holds these names: the one that it stands for, unless the
pattern is open, and else the text that it is displayed as. -/
def Value.said (names : Option EnumDef) (w : Wildcard) (v : Value) : Option String :=
  match names, w with
  | some d, .none => d.nameFor? v
  | _, _ => some v.text

/-- How a scalar that says `text` may be written. For an encrypted column it is ciphertext in
quotes, with the pattern opened outside of the ciphertext; for any other column no key is used. -/
inductive Written (settings : Option Settings) (d : Dialect) (w : Wildcard) (v : Value)
    (text : String) : Option CipherSpec → String → Prop
  | encrypted {spec key} (derived : FieldCipher.ofSpec settings spec = .ok key) :
      Written settings d w v text (some spec) (d.stringLiteral (w.apply (key.encryptText text)))
  | quoted : Written settings d w v text none (d.stringLiteral (w.apply text))
  | bare : Written settings d w v text none text
  | bool {b} (same : v = .bool b) : Written settings d w v text none (d.boolLiteral b)

namespace EnumDef

variable {d : EnumDef} {v : Value}

theorem text_translate {name : String} (named : d.nameFor? v = some name) :
    (d.translate v).text = name := by
  simp [translate, named, Value.text]

/-- No name stands for a truth value. -/
theorem eq_of_translate_eq_bool {b : Bool} (same : d.translate v = .bool b) : v = .bool b := by
  cases named : d.nameFor? v with
  | none => simpa [translate, named] using same
  | some name => simp [translate, named] at same

theorem isScalar_translate (single : v.isScalar = true) : (d.translate v).isScalar = true := by
  cases named : d.nameFor? v with
  | none => simpa [translate, named] using single
  | some name => simp [translate, named, Value.isScalar]

end EnumDef

namespace Value

variable {names : Option EnumDef} {w : Wildcard} {v : Value}

/-- A scalar in the form that a column with these names holds. -/
def translate (names : Option EnumDef) (w : Wildcard) (v : Value) : Value :=
  match names, w with
  | some d, .none => d.translate v
  | _, _ => v

theorem eq_of_translate_eq_bool {b : Bool} (same : v.translate names w = .bool b) :
    v = .bool b := by
  unfold translate at same
  split at same
  · exact EnumDef.eq_of_translate_eq_bool same
  · exact same

theorem isScalar_translate (single : v.isScalar = true) :
    (v.translate names w).isScalar = true := by
  unfold translate
  split
  · exact EnumDef.isScalar_translate single
  · exact single

end Value

namespace ColumnRef.Describes

variable {settings : Option Settings} {r : EnumRegistry} {c : ColumnRef} {m : Target} {v v' : Value}
  {w : Wildcard} {l : Literal}

/-- Names are found scalar by scalar, and every scalar says something. -/
theorem named_spelled (h : c.Describes r m)
    (named : BindingContext.named ⟨r, settings⟩ c v w = .ok v') :
    (∀ f, v'.spell f = v.spell fun x => f (x.translate m.names w)) ∧
      ∀ x ∈ v.scalars, x.said m.names w = some (x.translate m.names w).text := by
  have takes := h.named_ok.mp ⟨v', named⟩
  have names := h.names
  cases key : c.stringify with
  | none =>
    have unnamed : m.names = none := by simp [names, key]
    simp only [BindingContext.named, key, Except.ok.injEq] at named
    subst named
    simp [unnamed, Value.translate, Value.said]
  | some key' =>
    obtain ⟨d, found⟩ := h.known key' key
    have holds : m.names = some d := by simp [names, key, found]
    by_cases whole : w = .none
    · subst whole
      simp only [BindingContext.named, key, found, if_true] at named
      refine ⟨fun f => ?_, fun x member => ?_⟩
      · simp only [holds, Value.translate]
        exact Value.spell_resolveEnum named f
      · obtain ⟨name, declared⟩ := takes rfl d holds x member
        simp only [holds, Value.translate, Value.said, declared, EnumDef.text_translate declared]
    · simp only [BindingContext.named, key, if_neg whole, Except.ok.injEq] at named
      subst named
      cases w with
      | none => exact absurd rfl whole
      | _ => simp [Value.translate, Value.said]

/-- A literal that was bound is spelt with what its scalars say, encrypted if the column is. -/
theorem bindLiteral_spelled (h : c.Describes r m)
    (bound : bindLiteral ⟨r, settings⟩ c v w = .ok l) (d : Dialect) :
    ∃ scalar : Value → String, l.sql d = v.spell scalar ∧ ∀ x ∈ v.scalars, ∃ text,
      x.said m.names w = some text ∧ Written settings d w x text m.cipher (scalar x) := by
  obtain ⟨v', named, closed⟩ := bindLiteral_eq_ok.mp bound
  obtain ⟨spelled, told⟩ := h.named_spelled named
  rw [← h.cipher]
  cases cipher : c.cipher with
  | some spec =>
    cases derived : FieldCipher.ofSpec settings spec with
    | error e => simp [BindingContext.sealed, cipher, derived, Except.map] at closed
    | ok key =>
      simp only [BindingContext.sealed, cipher, derived, Except.map, Except.ok.injEq] at closed
      subst closed
      refine ⟨_, (Value.render_encrypt d key w v').trans (spelled _), fun x member => ?_⟩
      exact ⟨_, told x member, .encrypted derived⟩
  | none =>
    simp only [BindingContext.sealed, cipher, Except.ok.injEq] at closed
    subst closed
    refine ⟨_, (Value.render_eq_spell d w _ v').trans (spelled _), fun x member => ?_⟩
    refine ⟨_, told x member, ?_⟩
    have single : (x.translate m.names w).isScalar = true :=
      Value.isScalar_translate (Value.isScalar_of_mem_scalars member)
    rcases Value.render_cases d w _ single with ⟨b, same, text⟩ | text | text <;> rw [text]
    · exact .bool (Value.eq_of_translate_eq_bool same)
    · exact .quoted
    · exact .bare

end ColumnRef.Describes
end PredicateSql
