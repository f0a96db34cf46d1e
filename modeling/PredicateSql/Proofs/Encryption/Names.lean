import PredicateSql.Proofs.Encryption.Literals

/-!
Ordinals and the names that they stand for. A literal for a column that holds names is looked up
scalar by scalar, an ordinal is found just as its name is, and one scalar that stands for no name
makes the whole literal fail.
-/
namespace PredicateSql

namespace EnumDef

/-- The second value is the first one with their names in place of some ordinals, at any depth. -/
inductive Renames (d : EnumDef) : Value → Value → Prop
  | same (v) : Renames d v v
  | ordinal {o name} (declared : d.nameOf? o = some name) : Renames d (.int o) (.string name)
  | list {items items'} (each : List.Forall₂ (Renames d) items items') :
      Renames d (.list items) (.list items')

variable {d : EnumDef}

/-- The name of an ordinal is a declared one. -/
theorem hasName_of_nameOf? {o : Int64} {name : String} (declared : d.nameOf? o = some name) :
    d.hasName name = true := by
  obtain ⟨⟨o', _⟩, found, rfl⟩ := Option.map_eq_some_iff.mp declared
  exact List.any_eq_true.mpr ⟨_, List.mem_of_find?_eq_some found, by simp⟩

theorem hasName_of_nameFor? {v : Value} {name : String} (named : d.nameFor? v = some name) :
    d.hasName name = true := by
  cases v with
  | int o => exact hasName_of_nameOf? named
  | string s =>
    rw [nameFor?] at named
    split at named
    next declared =>
      obtain rfl := Option.some.inj named
      exact declared
    · cases named
  | _ => cases named

/-- An ordinal is written as its name is. -/
theorem resolveEnum_renames {v v' : Value} (renames : d.Renames v v') :
    v'.resolveEnum d = v.resolveEnum d := by
  induction v using Value.inductionOn generalizing v' with
  | list items ih =>
    cases renames with
    | same => rfl
    | @list _ items' each =>
      have alike : Value.resolveEnumItems d items' = Value.resolveEnumItems d items := by
        induction each with
        | nil => rfl
        | @cons item item' rest rest' first others restIh =>
          rw [Value.resolveEnumItems, Value.resolveEnumItems, ih item List.mem_cons_self first,
            restIh fun item held => ih item (List.mem_cons_of_mem _ held)]
      rw [Value.resolveEnum, Value.resolveEnum, alike]
  | scalar v other =>
    cases renames with
    | same => rfl
    | ordinal declared => simp [Value.resolveEnum, declared, hasName_of_nameOf? declared]
    | list => exact absurd rfl (other _)

theorem Renames.isNull_eq {v v' : Value} (renames : d.Renames v v') : v'.isNull = v.isNull := by
  cases renames <;> rfl

end EnumDef

namespace Value

variable {d : EnumDef} {v v' : Value}

/-- Where no name is found, the literal is left unresolved. -/
theorem resolveEnum_error {e : Error} (failed : v.resolveEnum d = .error e) :
    ∃ cause, e = .unresolved cause := by
  induction v using Value.inductionOn generalizing e with
  | list items ih =>
    have each : ∀ {e}, resolveEnumItems d items = .error e → ∃ cause, e = .unresolved cause := by
      clear failed
      induction items with
      | nil => rintro _ ⟨⟩
      | cons item rest restIh =>
        intro e failed
        cases first : item.resolveEnum d with
        | error e' =>
          simp only [resolveEnumItems, first, bind, Except.bind, Except.error.injEq] at failed
          exact ih item List.mem_cons_self (failed ▸ first)
        | ok item' =>
          cases others : resolveEnumItems d rest with
          | error e' =>
            simp only [resolveEnumItems, first, others, bind, Except.bind,
              Except.error.injEq] at failed
            exact restIh (fun item held => ih item (List.mem_cons_of_mem _ held)) (failed ▸ others)
          | ok rest' => simp [resolveEnumItems, first, others, bind, Except.bind] at failed
    cases resolved : resolveEnumItems d items with
    | error e' =>
      simp only [resolveEnum, resolved, Except.map, Except.error.injEq] at failed
      exact each (failed ▸ resolved)
    | ok items' => simp [resolveEnum, resolved, Except.map] at failed
  | scalar v other =>
    cases v with
    | null => cases failed
    | list items => exact absurd rfl (other items)
    | int o =>
      rw [resolveEnum] at failed
      split at failed
      · cases failed
      · exact ⟨_, (Except.error.inj failed).symm⟩
    | string s =>
      rw [resolveEnum] at failed
      split at failed
      · cases failed
      · exact ⟨_, (Except.error.inj failed).symm⟩
    | _ => exact ⟨_, (Except.error.inj failed).symm⟩

/-- One scalar that stands for no name is enough. -/
theorem resolveEnum_of_undeclared (undeclared : ∃ x ∈ v.scalars, d.nameFor? x = none) :
    ∃ cause, v.resolveEnum d = .error (.unresolved cause) := by
  cases resolved : v.resolveEnum d with
  | ok v' =>
    obtain ⟨x, held, none⟩ := undeclared
    obtain ⟨name, some⟩ := resolveEnum_ok.mp ⟨v', resolved⟩ x held
    cases none.symm.trans some
  | error e =>
    obtain ⟨cause, rfl⟩ := resolveEnum_error resolved
    exact ⟨cause, rfl⟩

end Value

/-- What a scalar is written as on a column that holds names and perhaps is encrypted: in quotes
stands the name, or the ciphertext of the name, and nothing else. -/
def WritesName (settings : Option Settings) (d : EnumDef) (cipher : Option CipherSpec)
    (dialect : Dialect) (x : Value) (text : String) : Prop :=
  ∃ name, d.nameFor? x = some name ∧ d.hasName name = true ∧
    match cipher with
    | none => text = dialect.stringLiteral name
    | some spec => ∃ key, FieldCipher.ofSpec settings spec = .ok key ∧
        text = dialect.stringLiteral (key.encryptText name)

/-- A literal that is bound to a column with names is written name by name. -/
theorem bindLiteral_writes_names {context : BindingContext} {c : ColumnRef} {key : String}
    {d : EnumDef} {v : Value} {l : Literal} (stringify : c.stringify = some key)
    (known : context.enums.find? key = some d) (bound : bindLiteral context c v .none = .ok l)
    (dialect : Dialect) :
    ∃ scalar : Value → String, l.sql dialect = v.spell scalar ∧
      ∀ x ∈ v.scalars, WritesName context.settings d c.cipher dialect x (scalar x) := by
  obtain ⟨v', named, closed⟩ := bindLiteral_eq_ok.mp bound
  simp only [BindingContext.named, stringify, known, if_true] at named
  have names := Value.resolveEnum_ok.mp ⟨v', named⟩
  have translated {x : Value} {name : String} (declared : d.nameFor? x = some name) :
      d.translate x = .string name := by
    simp [EnumDef.translate, declared]
  cases cipher : c.cipher with
  | some spec =>
    cases derived : FieldCipher.ofSpec context.settings spec with
    | error e => simp [BindingContext.sealed, cipher, derived, Except.map] at closed
    | ok fieldCipher =>
      simp only [BindingContext.sealed, cipher, derived, Except.map, Except.ok.injEq] at closed
      subst closed
      refine ⟨_, (Value.render_encrypt dialect fieldCipher .none v').trans
        (Value.spell_resolveEnum named _), ?_⟩
      intro x held
      obtain ⟨name, declared⟩ := names x held
      refine ⟨name, declared, EnumDef.hasName_of_nameFor? declared, fieldCipher, derived, ?_⟩
      rw [EnumDef.text_translate declared]
      rfl
  | none =>
    simp only [BindingContext.sealed, cipher, stringify, Option.isSome_some, if_true,
      Except.ok.injEq] at closed
    subst closed
    refine ⟨_, (Value.render_eq_spell dialect .none _ v').trans (Value.spell_resolveEnum named _),
      ?_⟩
    intro x held
    obtain ⟨name, declared⟩ := names x held
    refine ⟨name, declared, EnumDef.hasName_of_nameFor? declared, ?_⟩
    rw [translated declared]
    rfl

end PredicateSql
