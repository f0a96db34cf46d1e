import PredicateSql.Proofs.Acceptance.Predicates
import PredicateSql.Proofs.Compilation.Conditions

/-!
The accepted expressions. Whatever a compilation has been through, it accepts the predicates on the
rows of its root and nothing else, apart from modifiers.
-/
namespace PredicateSql

variable {n : Nat}

namespace Compiler

/-- The states of a compilation. It shares the registry and the settings with the rest of the
program, which may change them between two calls. -/
inductive Reachable : Compiler n → Prop
  | start (input : CompilerInput n) (registry : Registry) : Reachable (.start input registry)
  | add {c} (reached : Reachable c) (bindings : Bindings) (e : Expr) :
      Reachable (c.add bindings e).2
  | elsewhere {c} (reached : Reachable c) (settings : Option Settings) (registry : Registry) :
      Reachable { c with input := { c.input with settings := settings }, registry := registry }

/-- The joins of a compilation are those of walks from its root. -/
theorem Reachable.linked {c : Compiler n} (h : Reachable c) :
    Linked c.input.schema c.input.dialect c.origin c.joins := by
  induction h with
  | start input registry => exact .nil _ _ _
  | @add c reached bindings e ih =>
    obtain ⟨conditions, built⟩ := c.add_builds ih ⟨bindings, e⟩
    rw [c.add_origin bindings e, c.add_input bindings e]
    exact built.linked
  | elsewhere reached settings registry ih => exact ih

/-- An accepted predicate adds a condition, and whatever follows from being lowered in a scope holds
of each test in it. -/
theorem Reachable.throughout {c c' : Compiler n} (reached : c.Reachable) {bindings : Bindings}
    {e : Expr} (unmodified : e.isModifier = false) (accepted : c.add bindings e = (.ok (), c'))
    {P : ScopeProperty n}
    (each : ∀ {origin joins e k}, Lowered (c.context bindings) c'.registry.enums origin joins e k →
      P origin joins e k) :
    ∃ k : Condition n, c'.fragments = c.fragments ++ [c.input.fragment k] ∧
      Throughout P c.origin c'.joins e k := by
  cases add_ok.mp accepted with
  | condition _ derived =>
    refine ⟨_, rfl, (derived.throughout reached.linked List.prefix_rfl (.refl _ _)).imp ?_ ?_⟩
    · exact fun _ _ _ _ _ here => each here
    · exact fun _ _ _ _ _ _ _ here _ => each here
  | ordered | ignored | skip | take => cases unmodified

theorem add_ok_iff_lowers {c : Compiler n} {bindings : Bindings} {e : Expr}
    (predicate : ∀ m, e ≠ .modifier m) :
    (c.add bindings e).1 = .ok () ↔
      ∃ k t, Lowers (c.context bindings) c.origin e c.progress k t := by
  constructor
  · intro accepted
    rcases c.add_cases bindings predicate with ⟨err, c', rejected, -⟩ | ⟨k, t, derived, -⟩
    · rw [rejected] at accepted
      cases accepted
    · exact ⟨k, t, derived⟩
  · rintro ⟨k, t, derived⟩
    rw [add_of_lowers predicate derived]

end Compiler

/-- In every state of a compilation, an expression other than a modifier is accepted just where it
is a predicate on the rows of the root, for the bound values, the keys and the enumerations that are
known then. -/
theorem accepted_iff_isPredicate {c : Compiler n} (reached : c.Reachable) (bindings : Bindings)
    {e : Expr} (unmodified : e.isModifier = false) :
    (c.add bindings e).1 = .ok () ↔
      ∃ r, IsPredicate ⟨c.input.schema, bindings, c.input.settings⟩ c.input.root c.registry.enums
        e r := by
  have predicate : ∀ m, e ≠ .modifier m := by
    rintro m rfl
    cases unmodified
  have language : ∀ r,
      (∃ k t, Lowers (c.context bindings) c.origin e c.progress k t ∧ t.enums = r) ↔
      IsPredicate (c.context bindings).vocabulary c.input.root c.registry.enums e r :=
    fun r => lowers_iff reached.linked
  rw [Compiler.add_ok_iff_lowers predicate]
  constructor
  · rintro ⟨k, t, derived⟩
    exact ⟨t.enums, (language t.enums).mp ⟨k, t, derived, rfl⟩⟩
  · rintro ⟨r, isPredicate⟩
    obtain ⟨k, t, derived, -⟩ := (language r).mpr isPredicate
    exact ⟨k, t, derived⟩

/-- The shelf was joined by an earlier predicate; that it is full is a predicate, and a title is
none. -/
theorem full_shelves_are_predicates :
    let c := (Bookshelf.books.add .empty Bookshelf.shelfFull).2
    let voc : Vocabulary 2 := ⟨Bookshelf.schema, .empty, none⟩
    c.Reachable ∧ c.joins.length = 1 ∧
      (∃ r, IsPredicate voc 0 c.registry.enums (.and Bookshelf.shelfFull Bookshelf.lent) r) ∧
      ¬ ∃ r, IsPredicate voc 0 c.registry.enums (.and Bookshelf.shelfFull Bookshelf.title) r := by
  intro c voc
  have reached : c.Reachable := .add (.start _ _) _ _
  have accepted : (c.add .empty (.and Bookshelf.shelfFull Bookshelf.lent)).1.toBool = true := by
    decide +kernel
  have rejected : (c.add .empty (.and Bookshelf.shelfFull Bookshelf.title)).1.toBool = false := by
    decide +kernel
  refine ⟨reached, by decide +kernel, ?_, fun isPredicate => ?_⟩
  · exact (accepted_iff_isPredicate reached .empty rfl).mp
      (congrArg Prod.fst (Compiler.accepted_of_toBool accepted))
  · rw [(accepted_iff_isPredicate reached .empty rfl).mpr isPredicate] at rejected
    cases rejected

end PredicateSql
