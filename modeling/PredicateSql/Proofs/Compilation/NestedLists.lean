import PredicateSql.Proofs.Compilation.EmptyLists
import PredicateSql.Proofs.Quoting.Listing

/-!
The items behind `IN`. A list without items is replaced by a literal before it is written, and a
list inside of it is not: its items are those of the outer list, and if it has none an item without
text is left.
-/
namespace PredicateSql

open Lowering

variable {n : Nat}

section Seeking

variable {context : LoweringContext n} {origin : Origin n} {e : Expr} {items : List Value}
  {path : MemberPath} {s t : Progress} {k : Condition n}

/-- Seeking a member in a list is lowered to one of two tests of its column. -/
theorem Expr.Seeks.lowers_cases (seeks : e.Seeks context.bindings items path)
    (derived : Lowers context origin e s k t) :
    ∃ c, resolveColumn context origin path s = (.ok c, t) ∧
      ((items = [] ∧ k = .emptyMembership c (emptyListLiteral context c)) ∨
        ∃ l : BoundLiteral, bindLiteral ⟨t.enums, context.settings⟩ c (.list items) .none =
          .ok l.written ∧
          items ≠ [] ∧ k = .membership c l) := by
  obtain ⟨receiver, source, arg, call, collection, literal, member⟩ := seeks
  have value := (literal_iff context).mpr literal
  have derived := lowers_strip.mpr derived
  rw [call] at derived
  cases derived with
  | like opening member' =>
    -- A member is no list.
    cases collection.symm.trans member'
    cases value
  | membership collection' value' member' column nonempty bound =>
    cases collection.symm.trans collection'
    cases value.symm.trans value'
    cases member.symm.trans member'
    exact ⟨_, column, .inr ⟨_, bound, nonempty, rfl⟩⟩
  | emptyMembership collection' value' member' column =>
    cases collection.symm.trans collection'
    cases value.symm.trans value'
    cases member.symm.trans member'
    exact ⟨_, column, .inl ⟨rfl, rfl⟩⟩
  | truth _ boolean => cases boolean

end Seeking

/-- Where the expression seeks a member in a list, the condition is a test of the column of the
member, and what is between its parentheses is a sequence of literals exactly if no list inside the
list is empty. -/
def ListsItems (bindings : Bindings) (schema : Schema n) (d : Dialect) : ScopeProperty n :=
  fun origin joins e k => ∀ items path, e.Seeks bindings items path →
    ∃ column text, Denotes schema joins origin path column ∧
      k.sql schema d = "(" ++ column.render d ++ " IN (" ++ text ++ "))" ∧ Balanced text ∧
      (IsListing text ↔ ∀ item ∈ items, item.IsFilled)

theorem Lowered.listsItems {context : LoweringContext n} {r : EnumRegistry} {origin : Origin n}
    {joins : List JoinClause} {e : Expr} {k : Condition n}
    (h : Lowered context r origin joins e k) :
    ListsItems context.bindings context.schema context.dialect origin joins e k := by
  obtain ⟨s, t, derived, linked, kept, -⟩ := h
  intro items path seeks
  obtain ⟨c, column, form⟩ := seeks.lowers_cases derived
  have denotes := (resolveColumn_denotes context linked column).2.mono kept
  rcases form with ⟨rfl, rfl⟩ | ⟨l, bound, nonempty, rfl⟩
  · have standIn : IsOneLiteral (emptyListLiteral context c) := isOneLiteral_emptyListLiteral c
    exact ⟨c, _, denotes, rfl, standIn.balanced, iff_of_true standIn.isListing nofun⟩
  · have filled : IsListing (l.written.sql context.dialect) ↔ (Value.list items).IsFilled :=
      isListing_bindLiteral_iff bound context.dialect
    rw [Value.isFilled_list, and_iff_right nonempty] at filled
    exact ⟨c, _, denotes, rfl, Value.balanced_render _ _ _ _, filled⟩

/-- An accepted predicate adds a condition. Each of its tests of a member against a list, at any
depth and in any subquery, has a text between its parentheses that ends where they do. It is a
sequence of literals with commas between them, at least one and each with a text, exactly if no list
inside the list is empty; the list itself may be. -/
theorem lists_are_written_as_literals_iff {c c' : Compiler n} (reached : c.Reachable)
    {bindings : Bindings} {e : Expr} (unmodified : e.isModifier = false)
    (accepted : c.add bindings e = (.ok (), c')) :
    ∃ k : Condition n, c'.fragments = c.fragments ++ [c.input.fragment k] ∧
      Throughout (ListsItems bindings c.input.schema c.input.dialect) c.origin c'.joins e k :=
  reached.throughout unmodified accepted Lowered.listsItems

namespace Bookshelf

def numbered : Expr :=
  .or (.not (.convert (oneOf [.int 1, .list [.int 2, .null]] "Number"))) (oneOf [] "Number")

end Bookshelf

theorem numbers_are_written_as_literals :
    let c' := (Bookshelf.copies.add .empty Bookshelf.numbered).2
    Bookshelf.copies.add .empty Bookshelf.numbered = (.ok (), c') ∧
      ∃ k : Condition 1, c'.fragments = [Bookshelf.copies.input.fragment k] ∧
        Throughout (ListsItems .empty Bookshelf.copies.input.schema .postgreSql)
        Bookshelf.copies.origin c'.joins
          Bookshelf.numbered k := by
  intro c'
  have reached : Bookshelf.copies.Reachable := .start _ _
  have accepted : Bookshelf.copies.add .empty Bookshelf.numbered = (.ok (), c') :=
    Compiler.accepted_of_toBool (by decide +kernel)
  exact ⟨accepted, lists_are_written_as_literals_iff reached rfl accepted⟩

/-- An empty list inside of a list leaves nothing between the parentheses, or nothing behind a
comma. -/
theorem lists_of_nothing_are_written :
    let fragments (items : List Value) :=
  (Bookshelf.copies.add .empty (Bookshelf.oneOf items "Number")).2.fragments
    fragments [.list []] = ["(Copies.\"Number\" IN ())"] ∧ ¬ IsListing "" ∧
      fragments [.list [.int 1], .list []] = ["(Copies.\"Number\" IN (1,))"] ∧
      ¬ IsListing "1," := by
  decide +kernel

end PredicateSql
