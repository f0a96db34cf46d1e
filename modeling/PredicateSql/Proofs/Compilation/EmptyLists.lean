import PredicateSql.Proofs.Compilation.Encryption
import PredicateSql.Proofs.Compilation.TruthValues
import PredicateSql.Proofs.Encryption.Items

/-!
Membership in an empty list. A literal stands for the items that are not there, and it is compared
with what the items of other lists are written as for the same column.
-/
namespace PredicateSql

open Lowering

variable {n : Nat}

/-- The expression seeks the member at the path in a list. -/
def Expr.Seeks (bindings : Bindings) (e : Expr) (items : List Value) (path : MemberPath) : Prop :=
  ∃ receiver source arg, e.strip = .call .contains receiver [arg] ∧
    receiver.map Expr.strip = some source ∧ source.IsLiteral bindings (.list items) ∧
    arg.strip = .member path

section Seeking

variable {context : LoweringContext n} {origin : Origin n} {e : Expr} {items : List Value}
  {path : MemberPath} {s t : Progress} {c : ColumnRef} {l : Literal}

theorem Expr.Seeks.ne_modifier {bindings : Bindings} (h : e.Seeks bindings items path)
    (m : Modifier) :
    e ≠ .modifier m := by
  obtain ⟨_, _, _, call, -⟩ := h
  exact ne_modifier_of_strip call rfl m

theorem lowers_of_seeks_nil (seeks : e.Seeks context.bindings [] path)
    (column : resolveColumn context origin path s = (.ok c, t)) :
    Lowers context origin e s (.emptyMembership c (emptyListLiteral context c)) t := by
  obtain ⟨receiver, source, arg, call, collection, literal, member⟩ := seeks
  apply lowers_strip.mp
  rw [call]
  exact .emptyMembership collection ((literal_iff context).mpr literal) member column

theorem lowers_of_seeks (seeks : e.Seeks context.bindings items path) (nonempty : items ≠ [])
    (column : resolveColumn context origin path s = (.ok c, t))
    (bound : bindLiteral ⟨t.enums, context.settings⟩ c (.list items) .none = .ok l) :
    ∃ l' : BoundLiteral, l'.written = l ∧ Lowers context origin e s (.membership c l') t := by
  obtain ⟨receiver, source, arg, call, collection, literal, member⟩ := seeks
  refine ⟨⟨source, .list items, .none, some c, l⟩, rfl, lowers_strip.mp ?_⟩
  rw [call]
  exact .membership collection ((literal_iff context).mpr literal) member column nonempty bound

end Seeking

/-- Membership in an empty list is accepted and tested with a literal that should stand for no
value. It is the stand-in of the member, in quotes if the member is textual. An item of any other
list is written in this form just where the values in quotes are the textual ones. Membership in a
list of one value is tested in the very same words just where moreover the column is not encrypted
and the value says the stand-in, which is `-1` for a number; so there is such a value unless the
member holds truth values, or names and none of them is this. -/
theorem empty_lists_stand_for_a_value {c : Compiler n} {bindings : Bindings} {e : Expr}
    {path : MemberPath} {m : Target} {r : EnumRegistry} (seeks : e.Seeks bindings [] path)
    (resolves : c.input.schema.Resolves c.input.root c.registry.enums path m r) :
    let d := c.input.dialect
    let schema := c.input.schema
    let standIn := m.standIn c.input.emptyListTag
    let emptyItem := if m.isTextual then d.stringLiteral standIn else standIn
    (∃ column t, column.Describes r m ∧ c.Adds bindings e t (.emptyMembership column emptyItem) ∧
      ∀ e' v, e'.Seeks bindings [v] path → m.Holds v →
        (∀ spec ∈ m.cipher, spec.Keyed c.input.settings) →
        ∃ l : BoundLiteral, c.Adds bindings e' t (.membership column l) ∧
          ((Unquoted (l.written.sql d) ↔ Unquoted emptyItem) ↔ m.inQuotes = m.isTextual) ∧
          ((Condition.membership column l).sql schema d =
              (Condition.emptyMembership column emptyItem).sql schema d ↔
            m.inQuotes = m.isTextual ∧ m.cipher = none ∧ v.said m.names .none = some standIn)) ∧
      (m.inQuotes = m.isTextual → m.cipher = none → m.names = none →
        ((∃ v, m.Holds v ∧ v.said m.names .none = some standIn) ↔ m.kind ≠ .bool)) := by
  intro d schema standIn emptyItem
  obtain ⟨column, t, resolved, rfl, describes⟩ := Compiler.resolved_column resolves bindings
  have written : emptyListLiteral (c.context bindings) column = emptyItem :=
    describes.emptyListLiteral_eq
  have lowered : Lowers (c.context bindings) c.origin e c.progress
      (.emptyMembership column emptyItem) t :=
    written ▸ lowers_of_seeks_nil seeks resolved
  refine ⟨⟨column, t, describes, (Compiler.adds_iff seeks.ne_modifier).mpr lowered, ?_⟩,
    fun alike plain unnamed => Target.holds_standIn_iff plain unnamed alike _⟩
  intro e' v seeks' held keyed
  have takes : m.Takes c.input.settings (.list [v]) .none := ⟨fun _ => held.declares, keyed⟩
  obtain ⟨l, bound⟩ := describes.bindLiteral_ok.mpr takes
  obtain ⟨l', rfl, lowered'⟩ : ∃ l' : BoundLiteral, l'.written = l ∧
      Lowers (c.context bindings) c.origin e' c.progress (.membership column l') t :=
    lowers_of_seeks seeks' (List.cons_ne_nil _ _) resolved bound
  obtain ⟨text, said, item⟩ := describes.writesItem held bound d
  refine ⟨l', (Compiler.adds_iff seeks'.ne_modifier).mpr lowered', ?_, ?_⟩
  · rw [item.unquoted_iff, ← written, describes.unquoted_emptyListLiteral]
    simp
  · have same : l'.written.sql d = emptyItem ↔
        m.inQuotes = m.isTextual ∧ m.cipher = none ∧ text = standIn := by
      rw [← written]
      exact describes.item_eq_emptyListLiteral item
    rw [said, Option.some.injEq, ← same]
    simp [Condition.sql]

namespace Bookshelf

/-- The copies of books, each with a number of its own choice. -/
def copy : Entity 1 where
  typeName := "Copy"
  table := "Copies"
  columns := [{ column "Id" .guid with isPrimaryKey := true }, column "Number" .int]
  navigations := []

def copies : Compiler 1 :=
  .start { readers.input with schema := ⟨#v[copy]⟩, dialect := .postgreSql } .empty

def oneOf (items : List Value) (property : String) : Expr :=
  .contains (.constant (.list items)) (.member (.ofText property))

theorem number_resolves : copies.input.schema.Resolves copies.input.root copies.registry.enums
    (.ofText "Number") ⟨.int, none, none⟩ .empty where
  nonempty := by decide
  declared := ⟨0, column "Number" .int, .here, rfl, rfl, rfl, rfl⟩

end Bookshelf

theorem no_numbers_stand_for_minus_one :
    let numbers := Value.list [.int (-1)]
    let bindings := Bindings.empty.bind "numbers" numbers
    let other := Expr.contains (.captured "numbers") (.convert (.member (.ofText "Number")))
    ∃ column t l, Bookshelf.copies.Adds bindings (Bookshelf.oneOf [] "Number") t
        (.emptyMembership column "-1") ∧
      Bookshelf.copies.Adds bindings other t (.membership column l) ∧
      (Condition.membership column l : Condition 1).sql ⟨#v[Bookshelf.copy]⟩ .postgreSql =
        (Condition.emptyMembership column "-1" : Condition 1).sql ⟨#v[Bookshelf.copy]⟩
        .postgreSql := by
  intro numbers bindings other
  have nothing : (Bookshelf.oneOf [] "Number").Seeks bindings [] (.ofText "Number") :=
    ⟨_, _, _, rfl, rfl, .inl rfl, rfl⟩
  have minusOne : other.Seeks bindings [.int (-1)] (.ofText "Number") :=
    ⟨_, _, _, rfl, rfl, .inr ⟨"numbers", rfl, rfl⟩, rfl⟩
  obtain ⟨⟨column, t, -, adds, others⟩, -⟩ :=
    empty_lists_stand_for_a_value nothing Bookshelf.number_resolves
  obtain ⟨l, adds', -, same⟩ := others other (.int (-1)) minusOne rfl nofun
  exact ⟨column, t, l, adds, adds', same.mpr ⟨rfl, rfl, rfl⟩⟩

/-- Seeking a number in an empty list finds the copies numbered `-1`, and seeking an identifier
there compares it with a number, although identifiers are written in quotes. -/
theorem copies_are_found_in_nothing :
    let fragments (items : List Value) (property : String) :=
      (Bookshelf.copies.add .empty (Bookshelf.oneOf items property)).2.fragments
    fragments [] "Number" = ["(Copies.\"Number\" IN (-1))"] ∧
      fragments [.int (-1)] "Number" = ["(Copies.\"Number\" IN (-1))"] ∧
      fragments [] "Id" = ["(Copies.\"Id\" IN (-1))"] ∧
      fragments [.uuid ⟨1⟩] "Id" =
        ["(Copies.\"Id\" IN ('00000000-0000-0000-0000-000000000001'))"] := by
  decide +kernel

end PredicateSql
