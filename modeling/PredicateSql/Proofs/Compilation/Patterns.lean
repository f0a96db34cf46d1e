import PredicateSql.Proofs.Compilation.Emptiness
import PredicateSql.Proofs.Meaning.Patterns

/-!
Tests of a part of a text. The given text is put between quotes as it is, so its percent signs and
underscores are those of a pattern: no text is missed, and others are found.
-/
namespace PredicateSql

open Lowering

variable {n : Nat}

/-- The expression asks by a method whether the text is a part of the member at the path. -/
def Expr.AsksFor (bindings : Bindings) (e : Expr) (method : Method) (path : MemberPath)
    (given : String) : Prop :=
  ∃ receiver pattern, e.strip = .call method receiver [pattern] ∧
    receiver.map Expr.strip = some (.member path) ∧ pattern.IsLiteral bindings (.string given)

/-- The condition tests a column against a pattern, which is what the literal behind `LIKE` is read
as. -/
def Condition.TestsPattern (schema : Schema n) (d : Dialect) (k : Condition n) (column : ColumnRef)
    (pattern : List Char) : Prop :=
  ∃ literal : String, k.sql schema d = "(" ++ column.render d ++ " LIKE " ++ literal ++ ")" ∧
    lexLiteral (literal.toList ++ [')']) = some (pattern, [')'])

theorem Expr.AsksFor.ne_modifier {bindings : Bindings} {e : Expr} {method : Method}
    {path : MemberPath} {given : String} (h : e.AsksFor bindings method path given)
    (m : Modifier) : e ≠ .modifier m := by
  obtain ⟨_, _, call, -⟩ := h
  exact ne_modifier_of_strip call rfl m

/-- For a column that is not encrypted, a text is written in an open pattern as it is, whatever
names the column holds. -/
theorem bindLiteral_pattern {context : BindingContext} {column : ColumnRef} {w : Wildcard}
    {given : String} {l : Literal} (opened : w ≠ .none) (plain : column.cipher = none)
    (bound : bindLiteral context column (.string given) w = .ok l) (d : Dialect) :
    l.sql d = d.stringLiteral (w.apply given) := by
  obtain ⟨v, named, closed⟩ := bindLiteral_eq_ok.mp bound
  have kept : context.named column (.string given) w = .ok (.string given) := by
    unfold BindingContext.named
    cases column.stringify with
    | none => rfl
    | some key => exact if_neg opened
  cases kept.symm.trans named
  rw [BindingContext.sealed, plain] at closed
  cases closed
  simp [Literal.sql, Value.render, Value.renderScalar, Value.valueClass, ValueClass.isQuoted,
    Value.text]

/-- A match of a member with a pattern is lowered to a test of its column, which has to be
textual. -/
theorem Lowers.of_pattern {context : LoweringContext n} {origin : Origin n} {s t : Progress}
    {k : Condition n} {method : Method} {w : Wildcard} {receiver : Option Expr} {path : MemberPath}
    {pattern : Expr} {v : Value} (opening : method.wildcard? = some w)
    (member : receiver.map Expr.strip = some (.member path))
    (value : literal context pattern = .ok v)
    (derived : Lowers context origin (.call method receiver [pattern]) s k t) :
    ∃ c l, resolveColumn context origin path s = (.ok c, t) ∧ c.isTextual = true ∧
      bindLiteral ⟨t.enums, context.settings⟩ c v w = .ok l ∧
      k = .like c ⟨pattern.strip, v, w, some c, l⟩ := by
  cases derived with
  | like opening' member' column textual value' bound =>
    cases opening.symm.trans opening'
    cases member.symm.trans member'
    cases value.symm.trans value'
    exact ⟨_, _, column, textual, bound, rfl⟩
  | membership collection value' | emptyMembership collection value' =>
    -- A member is no collection.
    cases member.symm.trans collection
    cases value'
  | truth _ boolean => cases method <;> cases opening <;> cases boolean
  | anyWhere => cases opening

/-- Where the expression asks whether a text is a part of a member, the condition tests the column
of the member against a pattern. If the column is not encrypted, the pattern is the given text, open
as the method asks. -/
def TestsParts (bindings : Bindings) (schema : Schema n) (d : Dialect) : ScopeProperty n :=
  fun origin joins e k => ∀ method w path given, method.wildcard? = some w →
    e.AsksFor bindings method path given →
    ∃ column, Denotes schema joins origin path column ∧
      (column.cipher = none → ∃ pattern,
        k.TestsPattern schema d column pattern ∧ method.SoughtBy given pattern)

theorem Lowered.testsParts {context : LoweringContext n} {r : EnumRegistry} {origin : Origin n}
    {joins : List JoinClause} {e : Expr} {k : Condition n}
    (h : Lowered context r origin joins e k) :
    TestsParts context.bindings context.schema context.dialect origin joins e k := by
  obtain ⟨s, t, derived, linked, kept, -⟩ := h
  intro method w path given opening asks
  obtain ⟨receiver, operand, call, member, literal⟩ := asks
  have derived := lowers_strip.mpr derived
  rw [call] at derived
  obtain ⟨c, l, column, -, bound, rfl⟩ :=
    derived.of_pattern opening member ((literal_iff context).mpr literal)
  refine ⟨c, (resolveColumn_denotes context linked column).2.mono kept, fun plain => ?_⟩
  have text := bindLiteral_pattern (Method.wildcard?_ne_none opening) plain bound context.dialect
  have ends : Terminates [')'] := fun same => absurd (Option.some.inj same) (by decide)
  refine ⟨(w.apply given).toList, ⟨l.sql context.dialect, rfl, ?_⟩,
    Method.soughtBy_apply opening given⟩
  rw [text]
  exact lexLiteral_stringLiteral _ _ ends

/-- Asking whether a text is a part of a textual member that is not encrypted is accepted. And
wherever an accepted predicate asks this, at any depth and in any subquery, the condition is true of
a stored text just where a text that matches the given one as a pattern stands at the asked place:
of all that the method asks for, and of nothing else exactly if the given text has no percent sign
and no underscore in it. -/
theorem given_texts_are_patterns {c : Compiler n} (reached : c.Reachable) (bindings : Bindings) :
    (∀ e method w path given m r, method.wildcard? = some w → e.AsksFor bindings method path given →
      c.input.schema.Resolves c.input.root c.registry.enums path m r → m.isTextual = true →
      m.cipher = none →
      (c.add bindings e).1 = .ok ()) ∧
    ∀ e c', e.isModifier = false → c.add bindings e = (.ok (), c') →
      ∃ k : Condition n, c'.fragments = c.fragments ++ [c.input.fragment k] ∧
        Throughout (TestsParts bindings c.input.schema c.input.dialect) c.origin c'.joins e k := by
  constructor
  · intro e method w path given m r opening asks resolves textual plain
    obtain ⟨column, t, resolved, rfl, describes⟩ := Compiler.resolved_column resolves bindings
    have takes : m.Takes c.input.settings (.string given) w :=
      ⟨fun closed => absurd closed (Method.wildcard?_ne_none opening), by simp [plain]⟩
    obtain ⟨l, bound⟩ := describes.bindLiteral_ok.mpr takes
    have predicate := asks.ne_modifier
    obtain ⟨receiver, operand, call, member, literal⟩ := asks
    have lowered : Lowers (c.context bindings) c.origin e c.progress
        (.like column ⟨operand.strip, .string given, w, some column, l⟩) t := by
      apply lowers_strip.mp
      rw [call]
      exact .like opening member resolved (describes.isTextual_eq.trans textual)
        ((literal_iff _).mpr literal) bound
    exact (Compiler.add_ok_iff_lowers predicate).mpr ⟨_, t, lowered⟩
  · intro e c' unmodified accepted
    exact reached.throughout unmodified accepted Lowered.testsParts

namespace Bookshelf

def entitled : Expr :=
  .or (.convert (.endsWith (.convert title) (.captured "sought")))
    (.not (.startsWith title (.constant (.string "100%"))))

end Bookshelf

theorem titles_are_sought_by_patterns :
    let bindings := Bindings.empty.bind "sought" (.string "Emma's 'Who's")
    let asked := Expr.endsWith (.convert Bookshelf.title) (.captured "sought")
    let c' := (Bookshelf.books.add bindings Bookshelf.entitled).2
    (Bookshelf.books.add bindings asked).1 = .ok () ∧
      Bookshelf.books.add bindings Bookshelf.entitled = (.ok (), c') ∧
      ∃ k : Condition 2, c'.fragments = [Bookshelf.books.input.fragment k] ∧
        Throughout (TestsParts bindings Bookshelf.schema .postgreSql)
        Bookshelf.books.origin c'.joins
          Bookshelf.entitled k := by
  intro bindings asked c'
  have reached : Bookshelf.books.Reachable := .start _ _
  have asks : asked.AsksFor bindings .endsWith (.ofText "Title") "Emma's 'Who's" :=
    ⟨_, _, rfl, rfl, .inr ⟨"sought", rfl, rfl⟩⟩
  have accepted : Bookshelf.books.add bindings Bookshelf.entitled = (.ok (), c') :=
    Compiler.accepted_of_toBool (by decide +kernel)
  obtain ⟨accepts, finds⟩ := given_texts_are_patterns reached bindings
  exact ⟨accepts _ _ _ _ _ _ _ rfl asks Bookshelf.title_resolves rfl rfl, accepted,
    finds _ _ rfl accepted⟩

/-- Seeking `100%` in the titles finds one that does not have it. -/
theorem titles_without_a_percentage_are_found :
    let given := "100%"
    let e := Expr.contains Bookshelf.title (.constant (.string given))
    let stored := "1000 nights".toList
    (Bookshelf.books.add .empty e).2.fragments = ["(Books.\"Title\" LIKE '%100%%')"] ∧
      lexLiteral "'%100%%')".toList = some ("%100%%".toList, ")".toList) ∧
      likeMatches "%100%%".toList stored = true ∧ ¬ Method.contains.Asks given.toList stored := by
  refine ⟨by decide +kernel, by decide +kernel, by decide +kernel, ?_⟩
  have other : ¬ "100%".toList <:+: "1000 nights".toList := by decide +kernel
  exact other

end PredicateSql
