import Mathlib.Data.List.Basic
import PredicateSql.Sql.Literal

/-!
The scalars of a value. A literal is written scalar by scalar: null and lists look the same for
every column, and what becomes of each scalar depends on that scalar and on the column alone.
-/
namespace PredicateSql

def ColumnKind.isQuoted (kind : ColumnKind) : Bool :=
  kind.literalClass.isQuoted

namespace Value

def isScalar : Value → Bool
  | .null | .list _ => false
  | _ => true

mutual

/-- The scalars of a value other than null, at any depth. -/
def scalars : Value → List Value
  | .null => []
  | .list items => itemScalars items
  | v => [v]

def itemScalars : List Value → List Value
  | [] => []
  | item :: rest => item.scalars ++ itemScalars rest

end

mutual

/-- The text of a value from the texts of its scalars. Null stays `NULL`, and the items of a list
are separated by commas. -/
def spell (scalar : Value → String) : Value → String
  | .null => "NULL"
  | .list items => String.intercalate "," (spellItems scalar items)
  | v => scalar v

def spellItems (scalar : Value → String) : List Value → List String
  | [] => []
  | item :: rest => item.spell scalar :: spellItems scalar rest

end

/-- Induction over values down to their scalars. -/
@[elab_as_elim]
theorem inductionOnScalars {motive : Value → Prop} (v : Value) (null : motive .null)
    (list : ∀ items, (∀ item ∈ items, motive item) → motive (.list items))
    (scalar : ∀ v, v.isScalar = true → motive v) : motive v := by
  induction v using Value.inductionOn with
  | list items ih => exact list items ih
  | scalar v other =>
    cases v with
    | null => exact null
    | list items => exact absurd rfl (other items)
    | _ => exact scalar _ rfl

theorem scalars_of_isScalar {v : Value} (single : v.isScalar = true) : v.scalars = [v] := by
  cases v <;> simp [isScalar] at single <;> rfl

theorem spell_of_isScalar {v : Value} (single : v.isScalar = true) (f : Value → String) :
    v.spell f = f v := by
  cases v <;> simp [isScalar] at single <;> rfl

theorem mem_itemScalars {items : List Value} {x : Value} :
    x ∈ itemScalars items ↔ ∃ item ∈ items, x ∈ item.scalars := by
  induction items with
  | nil => simp [itemScalars]
  | cons item rest ih => simp [itemScalars, ih]

theorem spellItems_eq_map (f : Value → String) (items : List Value) :
    spellItems f items = items.map (spell f) := by
  induction items with
  | nil => rfl
  | cons item rest ih => rw [spellItems, ih, List.map_cons]

theorem renderItems_eq_map (d : Dialect) (w : Wildcard) (hint : Option ColumnKind)
    (items : List Value) : renderItems d w hint items = items.map (render d w hint) := by
  induction items with
  | nil => rfl
  | cons item rest ih => rw [renderItems, ih, List.map_cons]

theorem encryptItems_eq_map (key : FieldCipher) (w : Wildcard) (items : List Value) :
    encryptItems key w items = items.map (encrypt key w) := by
  induction items with
  | nil => rfl
  | cons item rest ih => rw [encryptItems, ih, List.map_cons]

theorem isScalar_of_mem_scalars {v x : Value} (member : x ∈ v.scalars) : x.isScalar = true := by
  induction v using inductionOnScalars with
  | null => cases member
  | list items ih =>
    obtain ⟨item, held, inside⟩ := mem_itemScalars.mp member
    exact ih item held inside
  | scalar v single =>
    rw [scalars_of_isScalar single] at member
    obtain rfl := List.mem_singleton.mp member
    exact single

/-- A literal is written scalar by scalar. -/
theorem render_eq_spell (d : Dialect) (w : Wildcard) (hint : Option ColumnKind) (v : Value) :
    v.render d w hint = v.spell (render d w hint) := by
  induction v using inductionOnScalars with
  | null => rfl
  | list items ih =>
    rw [render, spell, renderItems_eq_map, spellItems_eq_map, List.map_congr_left ih]
  | scalar v single => rw [spell_of_isScalar single]

/-- A scalar that is no truth value is in quotes if its column or its own class asks for them, and
bare otherwise. -/
theorem render_of_ne_bool (d : Dialect) (w : Wildcard) (hint : Option ColumnKind) {v : Value}
    (single : v.isScalar = true) (other : ∀ b, v ≠ .bool b) :
    v.render d w hint =
      if hint.any ColumnKind.isQuoted || v.valueClass.isQuoted then d.stringLiteral (w.apply v.text)
      else v.text := by
  have scalar : renderScalar d w hint v =
      if hint.any ColumnKind.isQuoted || v.valueClass.isQuoted then d.stringLiteral (w.apply v.text)
      else v.text := by
    cases hint <;> simp [renderScalar, ColumnKind.isQuoted]
  cases v with
  | null | list => cases single
  | bool b => exact absurd rfl (other b)
  | _ => exact scalar

/-- A truth value is a literal of the dialect; any other scalar is written as its text, in quotes or
bare. -/
theorem render_cases (d : Dialect) (w : Wildcard) (hint : Option ColumnKind) {v : Value}
    (single : v.isScalar = true) :
    (∃ b, v = .bool b ∧ v.render d w hint = d.boolLiteral b) ∨
      v.render d w hint = d.stringLiteral (w.apply v.text) ∨ v.render d w hint = v.text := by
  by_cases truth : ∃ b, v = .bool b
  · obtain ⟨b, rfl⟩ := truth
    exact .inl ⟨b, rfl, rfl⟩
  · rw [render_of_ne_bool d w hint single fun b same => truth ⟨b, same⟩]
    right
    split
    · exact .inl rfl
    · exact .inr rfl

/-- A ciphertext is written in quotes, for each scalar by itself. -/
theorem render_encrypt (d : Dialect) (key : FieldCipher) (w : Wildcard) (v : Value) :
    (v.encrypt key w).render d .none (some .string) =
      v.spell fun x => d.stringLiteral (w.apply (key.encryptText x.text)) := by
  induction v using inductionOnScalars with
  | null => rfl
  | list items ih =>
    have alike : items.map (render d .none (some .string) ∘ encrypt key w) =
        items.map (spell fun x => d.stringLiteral (w.apply (key.encryptText x.text))) :=
      List.map_congr_left ih
    rw [encrypt, render, spell, renderItems_eq_map, encryptItems_eq_map, spellItems_eq_map,
      List.map_map, alike]
  | scalar v single =>
    rw [spell_of_isScalar single]
    cases v <;> simp [isScalar] at single <;> rfl

end Value

namespace EnumDef

variable (d : EnumDef)

/-- The name that a scalar stands for: the one of an ordinal, or a declared name itself. -/
def nameFor? : Value → Option String
  | .int ordinal => d.nameOf? ordinal
  | .string s => if d.hasName s then some s else none
  | _ => none

def Declares (v : Value) : Prop :=
  ∀ x ∈ v.scalars, ∃ name, d.nameFor? x = some name

/-- A scalar as the name that it stands for. -/
def translate (v : Value) : Value :=
  match d.nameFor? v with
  | some name => .string name
  | none => v

end EnumDef

namespace Value

variable {d : EnumDef} {v v' : Value}

theorem resolveEnum_of_isScalar (single : v.isScalar = true) :
    v.resolveEnum d = .ok v' ↔ ∃ name, d.nameFor? v = some name ∧ v' = .string name := by
  cases v with
  | null => cases single
  | list items => cases single
  | int ordinal =>
    cases named : d.nameOf? ordinal <;>
      simp [resolveEnum, EnumDef.nameFor?, named, eq_comm]
  | string s =>
    cases named : d.hasName s <;> simp [resolveEnum, EnumDef.nameFor?, named, eq_comm]
  | _ => simp [resolveEnum, EnumDef.nameFor?]

theorem resolveEnumItems_cons_ok {item : Value} {rest items' : List Value} :
    resolveEnumItems d (item :: rest) = .ok items' ↔
      ∃ v' rest', item.resolveEnum d = .ok v' ∧ resolveEnumItems d rest = .ok rest' ∧
        v' :: rest' = items' := by
  cases first : item.resolveEnum d with
  | error e => simp [resolveEnumItems, first, bind, Except.bind]
  | ok v' =>
    cases others : resolveEnumItems d rest with
    | error e => simp [resolveEnumItems, first, others, bind, Except.bind]
    | ok rest' => simp [resolveEnumItems, first, others, bind, Except.bind]

theorem resolveEnum_list_ok {items : List Value} :
    (list items).resolveEnum d = .ok v' ↔
      ∃ items', resolveEnumItems d items = .ok items' ∧ .list items' = v' := by
  cases resolved : resolveEnumItems d items <;> simp [resolveEnum, resolved, Except.map]

/-- Names are found for a value just where all its scalars stand for names. -/
theorem resolveEnum_ok : (∃ v', v.resolveEnum d = .ok v') ↔ d.Declares v := by
  unfold EnumDef.Declares
  induction v using inductionOnScalars with
  | null => simp [resolveEnum, scalars]
  | list items ih =>
    have all : (∃ items', resolveEnumItems d items = .ok items') ↔
        ∀ x ∈ itemScalars items, ∃ name, d.nameFor? x = some name := by
      induction items with
      | nil => simp [resolveEnumItems, itemScalars]
      | cons item rest restIh =>
        have first := ih item List.mem_cons_self
        have others := restIh fun item held => ih item (List.mem_cons_of_mem _ held)
        simp only [itemScalars, List.forall_mem_append, ← first, ← others,
          resolveEnumItems_cons_ok]
        constructor
        · rintro ⟨_, v', rest', itemOk, restOk, -⟩
          exact ⟨⟨v', itemOk⟩, rest', restOk⟩
        · rintro ⟨⟨v', itemOk⟩, rest', restOk⟩
          exact ⟨_, v', rest', itemOk, restOk, rfl⟩
    rw [scalars, ← all]
    constructor
    · rintro ⟨_, resolved⟩
      obtain ⟨items', itemsOk, -⟩ := resolveEnum_list_ok.mp resolved
      exact ⟨items', itemsOk⟩
    · rintro ⟨items', itemsOk⟩
      exact ⟨_, resolveEnum_list_ok.mpr ⟨items', itemsOk, rfl⟩⟩
  | scalar v single =>
    simp only [scalars_of_isScalar single, List.forall_mem_singleton,
      resolveEnum_of_isScalar single]
    constructor
    · rintro ⟨_, name, named, -⟩
      exact ⟨name, named⟩
    · rintro ⟨name, named⟩
      exact ⟨_, name, named, rfl⟩

/-- What names were found for is written like the names of its scalars. -/
theorem spell_resolveEnum (resolved : v.resolveEnum d = .ok v') (f : Value → String) :
    v'.spell f = v.spell fun x => f (d.translate x) := by
  induction v using inductionOnScalars generalizing v' with
  | null =>
    cases resolved
    rfl
  | list items ih =>
    obtain ⟨items', itemsOk, rfl⟩ := resolveEnum_list_ok.mp resolved
    have alike : spellItems f items' = spellItems (fun x => f (d.translate x)) items := by
      clear resolved
      induction items generalizing items' with
      | nil =>
        cases itemsOk
        rfl
      | cons item rest restIh =>
        obtain ⟨v', rest', itemOk, restOk, rfl⟩ := resolveEnumItems_cons_ok.mp itemsOk
        have others :=
          restIh (fun item held _ => ih item (List.mem_cons_of_mem _ held)) rest' restOk
        rw [spellItems, spellItems, ih item List.mem_cons_self itemOk, others]
    rw [spell, spell, alike]
  | scalar v single =>
    obtain ⟨name, named, rfl⟩ := (resolveEnum_of_isScalar single).mp resolved
    have translated : d.translate v = .string name := by simp [EnumDef.translate, named]
    rw [spell_of_isScalar single, translated]
    rfl

end Value
end PredicateSql
