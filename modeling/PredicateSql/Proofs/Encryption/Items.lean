import PredicateSql.Proofs.Cipher.Encodings
import PredicateSql.Proofs.Encryption.Booleans

/-!
The items of lists, as they are written for the column that they are sought in, and the literal that
stands for the items of an empty list.
-/
namespace PredicateSql

namespace Text.Base64

theorem parenthesis_ne_digit (n : Nat) : '(' ≠ digit n := by
  by_cases low : n < 64
  · have digits : ∀ n < 64, '(' ≠ digit n := by decide
    exact digits n low
  · simp [digit, show ¬ n < 26 by omega, show ¬ n < 52 by omega, show ¬ n < 62 by omega,
      show n ≠ 62 by omega]

theorem parenthesis_not_mem_encode (octets : List UInt8) : '(' ∉ (encode octets).toList := by
  rw [encode, String.toList_ofList]
  fun_induction encodeChars octets with
  | case1 => exact List.not_mem_nil
  | case2 | case3 => simp [parenthesis_ne_digit]
  | case4 a b c rest ih => simp [parenthesis_ne_digit, ih]

end Text.Base64

namespace Target

/-- The values that a member has in its rows, other than null: those that stand for the names of its
enumeration, or else those of the class that its kind is compared with. -/
def Holds (m : Target) (v : Value) : Prop :=
  match m.names with
  | some d => ∃ name, d.nameFor? v = some name
  | none => v.valueClass = m.kind.literalClass

/-- The values of the member are written in quotes: names, texts, ciphertexts, dates and
identifiers. -/
def inQuotes (m : Target) : Bool :=
  m.cipher.isSome || m.names.isSome || m.kind.literalClass.isQuoted

def standIn (m : Target) (tag : String) : String :=
  if m.isTextual then "DefaultValueForEmptyArray(" ++ tag ++ ")" else "-1"

/-- How an item that says `text` is written in a list for the member. -/
inductive WritesItem (d : Dialect) (m : Target) (text : String) : String → Prop
  | encrypted (key : FieldCipher) (sealed : m.cipher ≠ none) :
      WritesItem d m text (d.stringLiteral (key.encryptText text))
  | quoted (plain : m.cipher = none) (quotes : m.inQuotes = true) :
      WritesItem d m text (d.stringLiteral text)
  | bare {item} (plain : m.cipher = none) (quotes : m.inQuotes = false) (unquoted : Unquoted item)
      (number : item = "-1" ↔ text = "-1") : WritesItem d m text item

variable {m : Target} {v : Value} {d : Dialect}

theorem Holds.isScalar (h : m.Holds v) : v.isScalar = true := by
  unfold Holds at h
  split at h
  · obtain ⟨name, named⟩ := h
    cases v <;> simp_all [EnumDef.nameFor?, Value.isScalar]
  · cases v with
    | null | list =>
      cases kind : m.kind <;> simp [kind, Value.valueClass, ColumnKind.literalClass] at h
    | _ => rfl

theorem Holds.scalars (h : m.Holds v) : (Value.list [v]).scalars = [v] := by
  simp [Value.scalars, Value.itemScalars, Value.scalars_of_isScalar h.isScalar]

/-- A name stands for a value that is held. -/
theorem Holds.declares (h : m.Holds v) : ∀ d ∈ m.names, d.Declares (.list [v]) := by
  intro d names x member
  rw [h.scalars, List.mem_singleton] at member
  rw [member]
  simpa [Holds, Option.mem_def.mp names] using h

theorem inQuotes_of_cipher (sealed : m.cipher ≠ none) : m.inQuotes = true := by
  simp [inQuotes, Option.isSome_iff_ne_none.mpr sealed]

theorem inQuotes_of_isTextual (textual : m.isTextual = true) : m.inQuotes = true := by
  simp only [isTextual, Bool.or_eq_true, decide_eq_true_eq] at textual
  rcases textual with kind | named
  · simp [inQuotes, kind, ColumnKind.literalClass, ValueClass.isQuoted]
  · simp [inQuotes, named]

/-- Apart from names and ciphertexts, the stand-in is said by a value that the member holds wherever
it has the form of the values, unless they are truth values. -/
theorem holds_standIn_iff (plain : m.cipher = none) (unnamed : m.names = none)
    (alike : m.inQuotes = m.isTextual) (tag : String) :
    (∃ v, m.Holds v ∧ v.said m.names .none = some (m.standIn tag)) ↔ m.kind ≠ .bool := by
  have said (v : Value) : v.said m.names .none = some v.text := by simp [Value.said, unnamed]
  have holds (v : Value) : m.Holds v ↔ v.valueClass = m.kind.literalClass := by
    simp [Holds, unnamed]
  simp only [said, holds, Option.some.injEq]
  have number (other : m.kind ≠ .string) : m.standIn tag = "-1" := by
    simp [standIn, isTextual, other, unnamed]
  cases kind : m.kind with
  | int | enum =>
    rw [number (by simp [kind])]
    exact iff_of_true ⟨.int (-1), rfl, rfl⟩ (by decide)
  | decimal =>
    rw [number (by simp [kind])]
    have text : (Double.ofFields true 1023 0).text = "-1" := by decide +kernel
    exact iff_of_true ⟨.float (.ofFields true 1023 0), rfl, text⟩ (by decide)
  | string => exact iff_of_true ⟨.string (m.standIn tag), rfl, rfl⟩ (by decide)
  | dateTime | guid =>
    simp [inQuotes, isTextual, kind, unnamed, plain, ColumnKind.literalClass,
      ValueClass.isQuoted] at alike
  | bool =>
    rw [number (by simp [kind])]
    refine iff_of_false ?_ (by simp)
    rintro ⟨v, truth, minus⟩
    cases v with
    | bool b => cases b <;> exact absurd minus (by decide)
    | _ => cases truth

/-- A scalar of the class of its column is written in quotes if this class asks for them. -/
theorem writesItem_of_class (plain : m.cipher = none) (single : v.isScalar = true)
    (same : v.valueClass = m.kind.literalClass) (quotes : m.inQuotes = v.valueClass.isQuoted) :
    m.WritesItem d v.text (v.render d .none (some m.kind)) := by
  have written : v.renderScalar d .none (some m.kind) =
      if v.valueClass.isQuoted then d.stringLiteral v.text else v.text := by
    simp [Value.renderScalar, same, Wildcard.apply]
  cases v with
  | null | list => cases single
  | bool b =>
    refine .bare plain quotes (unquoted_boolLiteral d b) ?_
    have literal : d.boolLiteral b ≠ "-1" := by
      cases d <;> cases b <;> decide
    have text : (Value.bool b).text ≠ "-1" := by
      cases b <;> decide
    exact iff_of_false literal text
  | int i =>
    have text : (Value.int i).render d .none (some m.kind) = toString i.toInt := written
    rw [text]
    exact .bare plain quotes (unquoted_toString_int _) .rfl
  | float x =>
    have text : (Value.float x).render d .none (some m.kind) = x.text := written
    rw [text]
    exact .bare plain quotes x.unquoted_text .rfl
  | _ =>
    simp only [Value.render, written]
    exact .quoted plain quotes

/-- The literal of a value that the member holds, if it is not encrypted. -/
theorem Holds.writesItem {text : String} (h : m.Holds v) (plain : m.cipher = none)
    (said : v.said m.names .none = some text) :
    m.WritesItem d text ((v.translate m.names .none).render d .none
      (some (if m.names.isSome then .string else m.kind))) := by
  have single := h.isScalar
  cases names : m.names with
  | some e =>
    rw [names] at said
    have quotes : m.inQuotes = true := by simp [inQuotes, names]
    have named : e.nameFor? v = some text := said
    simp only [Value.translate, EnumDef.translate, named]
    exact .quoted plain quotes
  | none =>
    rw [names] at said
    obtain rfl : v.text = text := Option.some.inj said
    have same : v.valueClass = m.kind.literalClass := by simpa [Holds, names] using h
    have quotes : m.inQuotes = v.valueClass.isQuoted := by simp [inQuotes, plain, names, same]
    exact writesItem_of_class plain single same quotes

/-- An item is bare just where the member is not written in quotes. -/
theorem WritesItem.unquoted_iff {text item : String} (h : m.WritesItem d text item) :
    Unquoted item ↔ m.inQuotes = false := by
  cases h with
  | encrypted key sealed => simp [not_unquoted_stringLiteral, inQuotes_of_cipher sealed]
  | quoted plain quotes => simp [not_unquoted_stringLiteral, quotes]
  | bare plain quotes unquoted => simp [unquoted, quotes]

end Target

section StandIn

variable {n : Nat} {context : LoweringContext n} {c : ColumnRef} {r : EnumRegistry} {m : Target}
  {v : Value} {l : Literal} {settings : Option Settings} {text item : String}

/-- The literal for an empty list says the stand-in, in quotes if the member is textual. -/
theorem ColumnRef.Describes.emptyListLiteral_eq (h : c.Describes r m) :
    emptyListLiteral context c =
      if m.isTextual then context.dialect.stringLiteral (m.standIn context.emptyListTag)
      else m.standIn context.emptyListTag := by
  cases textual : m.isTextual <;>
    simp [emptyListLiteral, h.isTextual_eq, Target.standIn, textual]

theorem ColumnRef.Describes.unquoted_emptyListLiteral (h : c.Describes r m) :
    Unquoted (emptyListLiteral context c) ↔ m.isTextual = false := by
  rw [h.emptyListLiteral_eq]
  cases textual : m.isTextual with
  | true => simp [not_unquoted_stringLiteral]
  | false =>
    have bare : Unquoted "-1" := by decide
    simp [Target.standIn, textual, bare]

/-- Where it is written like the items, the literal for an empty list is that of an item that says
the stand-in, unless the items are encrypted. -/
theorem ColumnRef.Describes.item_eq_emptyListLiteral (h : c.Describes r m)
    (written : m.WritesItem context.dialect text item) :
    item = emptyListLiteral context c ↔
      m.inQuotes = m.isTextual ∧ m.cipher = none ∧ text = m.standIn context.emptyListTag := by
  have alike (same : item = emptyListLiteral context c) : m.inQuotes = m.isTextual := by
    have bare := written.unquoted_iff
    rw [same, h.unquoted_emptyListLiteral] at bare
    simpa using bare.symm
  rw [h.emptyListLiteral_eq] at alike ⊢
  cases written with
  | encrypted key sealed =>
    refine iff_of_false (fun same => ?_) fun ⟨_, plain, _⟩ => sealed plain
    have textual : m.isTextual = true := (alike same).symm.trans (Target.inQuotes_of_cipher sealed)
    rw [if_pos textual, stringLiteral_inj] at same
    -- A ciphertext has no parenthesis.
    have parenthesis : '(' ∉ (key.encryptText text).toList :=
      Text.Base64.parenthesis_not_mem_encode _
    simp [same, Target.standIn, textual] at parenthesis
  | quoted plain quotes =>
    by_cases textual : m.isTextual = true
    · simp [quotes, plain, textual, stringLiteral_inj]
    · refine iff_of_false (fun same => ?_) fun ⟨other, _, _⟩ => ?_
      · exact textual ((alike same).symm.trans quotes)
      · exact textual (other.symm.trans quotes)
  | bare plain quotes unquoted number =>
    have untextual : m.isTextual = false := by
      cases textual : m.isTextual with
      | true => simp [Target.inQuotes_of_isTextual textual] at quotes
      | false => rfl
    simp [quotes, plain, untextual, Target.standIn, number]

/-- A value that the member holds is written as one item of a list for it. -/
theorem ColumnRef.Describes.writesItem (h : c.Describes r m) (held : m.Holds v)
    (bound : bindLiteral ⟨r, settings⟩ c (.list [v]) .none = .ok l) (d : Dialect) :
    ∃ text, v.said m.names .none = some text ∧ m.WritesItem d text (l.sql d) := by
  have spell (f : Value → String) : (Value.list [v]).spell f = f v := by
    simp [Value.spell, Value.spellItems, Value.spell_of_isScalar held.isScalar]
  cases cipher : m.cipher with
  | some spec =>
    obtain ⟨scalar, spelled, written⟩ := h.bindLiteral_spelled bound d
    obtain ⟨text, said, form⟩ := written v (by simp [held.scalars])
    rw [spelled, spell]
    rw [cipher] at form
    generalize scalar v = item at form ⊢
    cases form with
    | encrypted derived => exact ⟨text, said, .encrypted _ (by simp [cipher])⟩
  | none =>
    obtain ⟨v', named, closed⟩ := bindLiteral_eq_ok.mp bound
    obtain ⟨spelled, told⟩ := h.named_spelled named
    have said := told v (by simp [held.scalars])
    have plain : c.cipher = none := h.cipher.trans cipher
    simp only [BindingContext.sealed, plain, Except.ok.injEq] at closed
    subst closed
    refine ⟨_, said, ?_⟩
    have names : c.stringify.isSome = m.names.isSome := by
      rw [Bool.eq_iff_iff, Option.isSome_iff_ne_none, Option.isSome_iff_ne_none, Ne, Ne,
        h.names_eq_none]
    rw [Literal.sql, Value.render_eq_spell, spelled, spell, names, h.kind]
    exact held.writesItem cipher said

end StandIn
end PredicateSql
