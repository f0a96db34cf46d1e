import PredicateSql.Proofs.Acceptance.Language
import PredicateSql.Proofs.Lowering.Trail

/-!
When a literal can be bound to a column: names are found for it and a key is there, as far as the
member of the column asks for them.
-/
namespace PredicateSql

variable {settings : Option Settings}

theorem FieldCipher.ofPassphrase_ok {passphrase : String} {size : KeySize} :
    (∃ key, ofPassphrase passphrase size = .ok key) ↔ Text.allBlank passphrase = false := by
  cases blank : Text.allBlank passphrase with
  | true => simp [ofPassphrase, blank]
  | false => simp [ofPassphrase, blank]

/-- There is a cipher for an annotation just where there is a key. -/
theorem FieldCipher.ofSpec_ok {spec : CipherSpec} :
    (∃ key, ofSpec settings spec = .ok key) ↔ spec.Keyed settings := by
  unfold ofSpec CipherSpec.Keyed
  cases own : Text.allBlank spec.key with
  | false =>
    have own' : ∃ key, ofPassphrase spec.key spec.keySize = .ok key := ofPassphrase_ok.mpr own
    simp [own']
  | true =>
    cases settings with
    | none => simp
    | some s =>
      cases default : Text.allBlank s.cipher.defaultKey with
      | true => simp [default]
      | false =>
        have key : ∃ key, ofPassphrase s.cipher.defaultKey spec.keySize = .ok key :=
          ofPassphrase_ok.mpr default
        simpa [default] using key

/-- The column is that of the member, with the enumeration that is known for it. -/
structure ColumnRef.Describes (r : EnumRegistry) (c : ColumnRef) (m : Target) : Prop where
  kind : c.kind = m.kind
  cipher : c.cipher = m.cipher
  names : m.names = c.stringify.bind r.find?
  known : c.Known r

namespace ColumnRef.Describes

variable {n : Nat} {schema : Schema n} {r r' : EnumRegistry} {c : ColumnRef} {m : Target}

theorem mono (h : c.Describes r m) (grown : r.Grows schema r') : c.Describes r' m where
  kind := h.kind
  cipher := h.cipher
  names := by
    rw [h.names]
    cases key : c.stringify with
    | none => rfl
    | some key' =>
      obtain ⟨d, found⟩ := h.known key' key
      simp [found, grown.kept key' d found]
  known := h.known.mono grown

theorem isTextual_eq (h : c.Describes r m) : c.isTextual = m.isTextual := by
  have named : c.stringify.isSome = m.names.isSome := by
    rw [h.names]
    cases key : c.stringify with
    | none => rfl
    | some key' =>
      obtain ⟨d, found⟩ := h.known key' key
      simp [found]
  simp [ColumnRef.isTextual, Target.isTextual, h.kind, named]

theorem named_ok (h : c.Describes r m) {v : Value} {w : Wildcard} :
    (∃ v', BindingContext.named ⟨r, settings⟩ c v w = .ok v') ↔
      (w = .none → ∀ d ∈ m.names, d.Declares v) := by
  rw [h.names]
  cases key : c.stringify with
  | none => simp [BindingContext.named, key]
  | some key' =>
    obtain ⟨d, found⟩ := h.known key' key
    by_cases whole : w = .none
    · simp [BindingContext.named, key, found, whole, Value.resolveEnum_ok]
    · simp [BindingContext.named, key, whole]

theorem sealed_ok (h : c.Describes r m) {v : Value} {w : Wildcard} :
    (∃ l, BindingContext.sealed ⟨r, settings⟩ c v w = .ok l) ↔
      ∀ spec ∈ m.cipher, spec.Keyed settings := by
  rw [← h.cipher]
  cases cipher : c.cipher with
  | none => simp [BindingContext.sealed, cipher]
  | some spec =>
    have keyed : (∃ key, FieldCipher.ofSpec settings spec = .ok key) ↔ spec.Keyed settings :=
      FieldCipher.ofSpec_ok
    cases key : FieldCipher.ofSpec settings spec with
    | error e => simpa [BindingContext.sealed, cipher, key, Except.map] using keyed
    | ok key' => simpa [BindingContext.sealed, cipher, key, Except.map] using keyed

/-- A literal can be bound to the column just where the member takes it. -/
theorem bindLiteral_ok (h : c.Describes r m) {v : Value} {w : Wildcard} :
    (∃ l, bindLiteral ⟨r, settings⟩ c v w = .ok l) ↔ m.Takes settings v w := by
  have named : (∃ v', BindingContext.named ⟨r, settings⟩ c v w = .ok v') ↔
      (w = .none → ∀ d ∈ m.names, d.Declares v) := h.named_ok
  constructor
  · rintro ⟨l, bound⟩
    obtain ⟨v', found, closed⟩ := bindLiteral_eq_ok.mp bound
    exact ⟨named.mp ⟨v', found⟩, h.sealed_ok.mp ⟨l, closed⟩⟩
  · intro takes
    obtain ⟨v', found⟩ := named.mpr takes.names
    obtain ⟨l, closed⟩ := (h.sealed_ok (v := v') (w := w)).mpr takes.key
    exact ⟨l, bindLiteral_eq_ok.mpr ⟨v', found, closed⟩⟩

end ColumnRef.Describes
end PredicateSql
