import PredicateSql.Proofs.Compilation.Rejection
import PredicateSql.Proofs.Compilation.Strings
import PredicateSql.Proofs.Scoping.Aliases

/-!
What a sequence of calls builds: one condition for each accepted predicate, lowered test by test in
a scope that starts from the root and has the joins of the query. The joins continue one another,
and the aliases are all drawn from the supply.
-/
namespace PredicateSql

open Lowering

variable {n : Nat}

def Expr.isModifier : Expr → Bool
  | modifier _ => true
  | _ => false

theorem Expr.isModifier_eq_false {e : Expr} (predicate : ∀ m, e ≠ .modifier m) :
    e.isModifier = false := by
  cases e with
  | modifier m => exact absurd rfl (predicate m)
  | _ => rfl

def CompilerInput.fragment (input : CompilerInput n) (k : Condition n) : String :=
  parenthesize (k.sql input.schema input.dialect)

namespace Compiler

def acceptedCalls (c : Compiler n) (calls : List Call) : List Call :=
  (c.accepted calls).map (·.2)

def predicates (c : Compiler n) (calls : List Call) : List Call :=
  (c.acceptedCalls calls).filter (!·.expr.isModifier)

/-- What the calls add to the conditions, one after the other, each with the call that adds it. -/
def additions (c : Compiler n) : List Call → List (Call × String)
  | [] => []
  | call :: rest =>
    let c' := (c.add call.bindings call.expr).2
    (c'.fragments.drop c.fragments.length).map (call, ·) ++ c'.additions rest

/-- What the accepted ones of some calls add. The conditions stay what they are when more joins and
enumerations follow. -/
structure Builds (c : Compiler n) (calls : List Call) (c' : Compiler n)
    (conditions : List (Condition n)) : Prop where
  fragments : c'.fragments = c.fragments ++ conditions.map c.input.fragment
  linked : Linked c.input.schema c.input.dialect c.origin c'.joins
  lowered : ∀ joins r, c'.joins <+: joins → c'.registry.enums.Grows c.input.schema r →
    List.Forall₂ (fun call k =>
        Throughout (Lowered (c.context call.bindings) r) c.origin joins call.expr k)
      (c.predicates calls) conditions
  ordering : ∀ o, c'.orderBy = some o → c.orderBy = some o ∨
    ∃ call ∈ c.acceptedCalls calls, ∃ m path column, call.expr = .modifier m ∧
      m.ordering? = some (path, o.descending) ∧ o.column = column.render c.input.dialect ∧
      Denotes c.input.schema c'.joins c.origin path column
  grows : c.progress.Grows c.input.schema c'.progress
  draws : Progress.Draws c.input.aliases c.progress c'.progress
    (conditions.flatMap Condition.aliases)

theorem acceptedCalls_cons (c : Compiler n) (call : Call) (rest : List Call) :
    c.acceptedCalls (call :: rest) = c.acceptedCalls [call] ++
      (c.add call.bindings call.expr).2.acceptedCalls rest := by
  rcases run : c.add call.bindings call.expr with ⟨err | ⟨⟩, c₁⟩
  · simp [acceptedCalls, accepted, run]
  · simp [acceptedCalls, accepted, run]

theorem predicates_cons (c : Compiler n) (call : Call) (rest : List Call) :
    c.predicates (call :: rest) = c.predicates [call] ++
      (c.add call.bindings call.expr).2.predicates rest := by
  simp only [predicates, c.acceptedCalls_cons call rest, List.filter_append]

theorem additions_singleton (c : Compiler n) (call : Call) :
    c.additions [call] =
      ((c.add call.bindings call.expr).2.fragments.drop c.fragments.length).map (call, ·) := by
  simp only [additions, List.append_nil]

theorem additions_cons (c : Compiler n) (call : Call) (rest : List Call) :
    c.additions (call :: rest) =
      c.additions [call] ++ (c.add call.bindings call.expr).2.additions rest := by
  rw [additions_singleton]
  rfl

section Single

variable {c c₁ : Compiler n} {call : Call}

theorem acceptedCalls_of_error {err : Error}
    (run : c.add call.bindings call.expr = (.error err, c₁)) : c.acceptedCalls [call] = [] := by
  simp [acceptedCalls, accepted, run]

theorem acceptedCalls_of_ok (run : c.add call.bindings call.expr = (.ok (), c₁)) :
    c.acceptedCalls [call] = [call] := by
  simp [acceptedCalls, accepted, run]

theorem predicates_of_error {err : Error} (run : c.add call.bindings call.expr = (.error err, c₁)) :
    c.predicates [call] = [] := by
  rw [predicates, acceptedCalls_of_error run, List.filter_nil]

theorem predicates_of_ok (run : c.add call.bindings call.expr = (.ok (), c₁))
    (predicate : ∀ m, call.expr ≠ .modifier m) : c.predicates [call] = [call] := by
  rw [predicates, acceptedCalls_of_ok run]
  simp [Expr.isModifier_eq_false predicate]

/-- A modifier is no predicate, accepted or not. -/
theorem predicates_of_modifier {m : Modifier} (isModifier : call.expr = .modifier m) :
    c.predicates [call] = [] := by
  rcases run : c.add call.bindings call.expr with ⟨err | ⟨⟩, c₁⟩
  · exact predicates_of_error run
  · rw [predicates, acceptedCalls_of_ok run]
    simp [isModifier, Expr.isModifier]

theorem additions_of_kept (kept : (c.add call.bindings call.expr).2.fragments = c.fragments) :
    c.additions [call] = [] := by
  rw [additions_singleton, kept, List.drop_length, List.map_nil]

theorem additions_of_extend {k : Condition n} {t : Progress}
    (run : (c.add call.bindings call.expr).2 = c.extend t k) :
    c.additions [call] = [(call, c.input.fragment k)] := by
  rw [additions_singleton, run]
  simp [extend, CompilerInput.fragment]

end Single

/-- A single call adds one condition if it is an accepted predicate, and none otherwise. -/
theorem add_additions (c : Compiler n) (call : Call) :
    (c.add call.bindings call.expr).2.fragments = c.fragments ++ (c.additions [call]).map (·.2) ∧
      (c.additions [call]).map (·.1) = c.predicates [call] := by
  rcases c.add_outcome call.bindings call.expr with
    ⟨err, c₁, run, ⟨⟨t, rfl⟩, -, -⟩⟩ | ⟨c₁, run, accepts⟩
  · have kept : (c.add call.bindings call.expr).2.fragments = c.fragments := by
      rw [run]
      rfl
    simp [additions_of_kept kept, kept, predicates_of_error run]
  · have after : (c.add call.bindings call.expr).2 = c₁ := by rw [run]
    obtain ⟨e, shown⟩ : ∃ e, call.expr = e := ⟨_, rfl⟩
    rw [shown] at accepts
    cases accepts with
    | condition predicate derived =>
      rw [← shown] at predicate
      rw [additions_of_extend after, predicates_of_ok run predicate, after]
      exact ⟨rfl, rfl⟩
    | ordered | ignored | skip | take =>
      have kept : (c.add call.bindings call.expr).2.fragments = c.fragments :=
        (congrArg fragments after).trans rfl
      simp [additions_of_kept kept, kept, predicates_of_modifier shown]

/-- The conditions are those of the accepted predicates, in the order of the calls. -/
theorem after_additions (c : Compiler n) (calls : List Call) :
    (c.after calls).fragments = c.fragments ++ (c.additions calls).map (·.2) ∧
      (c.additions calls).map (·.1) = c.predicates calls := by
  induction calls generalizing c with
  | nil => exact ⟨(List.append_nil _).symm, rfl⟩
  | cons call rest ih =>
    obtain ⟨first, single⟩ := c.add_additions call
    obtain ⟨others, several⟩ := ih (c.add call.bindings call.expr).2
    constructor
    · rw [after, others, first, c.additions_cons call rest, List.map_append, List.append_assoc]
    · rw [additions_cons, predicates_cons, List.map_append, single, several]

namespace Builds

variable {c c' : Compiler n} {call : Call} {rest : List Call}

theorem nil (linked : Linked c.input.schema c.input.dialect c.origin c.joins) :
    c.Builds [] c [] where
  fragments := by simp
  linked := linked
  lowered _ _ _ _ := .nil
  ordering _ set := .inl set
  grows := .refl _ _
  draws := .of_kept rfl (Nat.le_refl _)

/-- What one call adds and what the calls after it add. -/
theorem cons {c₁ : Compiler n} {ks ks' : List (Condition n)}
    (run : (c.add call.bindings call.expr).2 = c₁) (first : c.Builds [call] c₁ ks)
    (others : c₁.Builds rest c' ks') : c.Builds (call :: rest) c' (ks ++ ks') := by
  have calls := c.acceptedCalls_cons call rest
  have predicates := c.predicates_cons call rest
  have input : c₁.input = c.input := run ▸ c.add_input _ _
  rw [run] at calls predicates
  -- Both halves are about one input, so about one scope.
  obtain ⟨input₁, joins₁, fragments₁, orderBy₁, skip₁, take₁, issued₁, registry₁⟩ := c₁
  obtain rfl : input₁ = c.input := input
  constructor
  · rw [others.fragments, first.fragments, List.map_append, List.append_assoc]
  · exact others.linked
  · intro joins r kept known
    rw [predicates]
    have early := first.lowered joins r (others.grows.joins.trans kept)
      (others.grows.enums.trans known)
    exact List.rel_append early (others.lowered joins r kept known)
  · intro o set
    rw [calls]
    rcases others.ordering o set with before | ⟨later, member, rest⟩
    · rcases first.ordering o before with old | ⟨only, member, m, path, column, rest⟩
      · exact .inl old
      · obtain ⟨isModifier, ordering, text, denotes⟩ := rest
        have widened := denotes.mono others.grows.joins
        exact .inr ⟨only, List.mem_append_left _ member, m, path, column, isModifier,
          ordering, text, widened⟩
    · exact .inr ⟨later, List.mem_append_right _ member, rest⟩
  · exact first.grows.trans others.grows
  · rw [List.flatMap_append]
    exact first.draws.trans others.draws

/-- A call that adds no condition and changes no ordering. -/
theorem of_kept {c₁ : Compiler n} (linked : Linked c.input.schema c.input.dialect c.origin c.joins)
    (predicates : c.predicates [call] = []) (joins : c₁.joins = c.joins)
    (fragments : c₁.fragments = c.fragments) (orderBy : c₁.orderBy = c.orderBy)
    (issued : c.issued ≤ c₁.issued)
    (enums : c.registry.enums.Grows c.input.schema c₁.registry.enums) : c.Builds [call] c₁ [] where
  fragments := by simp [fragments]
  linked := joins ▸ linked
  lowered _ _ _ _ := by
    rw [predicates]
    exact .nil
  ordering o set := .inl (orderBy ▸ set)
  grows := ⟨⟨[], by simp [progress, joins]⟩, issued, enums⟩
  draws := .of_kept joins issued

/-- The first ordering that takes effect. -/
theorem of_ordered {m : Modifier} {path : MemberPath} {descending : Bool} {column : ColumnRef}
    {t : Progress} (linked : Linked c.input.schema c.input.dialect c.origin c.joins)
    (accepted : c.acceptedCalls [call] = [call]) (isModifier : call.expr = .modifier m)
    (ordering : m.ordering? = some (path, descending))
    (resolved : resolveColumn (c.context .empty) c.origin path c.progress = (.ok column, t)) :
    c.Builds [call] (c.ordered t column descending) [] := by
  obtain ⟨linked', denotes⟩ := resolveColumn_denotes _ linked resolved
  have grown := resolveColumn_growing (c.context .empty) c.origin path c.progress
  rw [resolved] at grown
  have drawn := resolveColumn_draws _ resolved
  constructor
  · simp [ordered, advance]
  · exact linked'
  · intro _ _ _ _
    rw [predicates_of_modifier isModifier]
    exact .nil
  · intro o set
    obtain rfl := Option.some.inj set
    refine .inr ⟨call, ?_, m, path, column, isModifier, ordering, rfl, denotes⟩
    rw [accepted]
    exact List.mem_singleton_self _
  · exact ⟨grown.joins, grown.issued, grown.enums⟩
  · exact ⟨drawn.issued, drawn.drawn⟩

/-- An accepted predicate. -/
theorem of_lowers {k : Condition n} {t : Progress}
    (linked : Linked c.input.schema c.input.dialect c.origin c.joins)
    (predicates : c.predicates [call] = [call])
    (derived : Lowers (c.context call.bindings) c.origin call.expr c.progress k t) :
    c.Builds [call] (c.extend t k) [k] := by
  have grown := derived.grows
  have drawn := derived.draws
  constructor
  · rfl
  · exact derived.linked linked
  · intro joins r kept known
    rw [predicates]
    exact .cons (derived.throughout linked kept known) .nil
  · exact fun o set => .inl set
  · exact ⟨grown.joins, grown.issued, grown.enums⟩
  · rw [List.flatMap_singleton]
    exact ⟨drawn.issued, drawn.drawn⟩

end Builds

/-- What a single call adds: nothing if it is rejected, else a condition, an ordering or a bound. -/
theorem add_builds (c : Compiler n)
    (linked : Linked c.input.schema c.input.dialect c.origin c.joins) (call : Call) :
    ∃ conditions, c.Builds [call] (c.add call.bindings call.expr).2 conditions := by
  have refl := EnumRegistry.Grows.refl c.input.schema c.registry.enums
  rcases c.add_outcome call.bindings call.expr with ⟨err, c₁, run, rejects⟩ | ⟨c₁, run, accepts⟩
  · obtain ⟨⟨t, rfl⟩, issued, enums⟩ := rejects
    rw [run]
    exact ⟨[], .of_kept linked (predicates_of_error run) rfl rfl rfl issued enums⟩
  · rw [run]
    generalize shown : call.expr = e at accepts
    cases accepts with
    | condition predicate derived =>
      rw [← shown] at predicate derived
      exact ⟨_, .of_lowers linked (predicates_of_ok run predicate) derived⟩
    | ordered ordering unset resolved =>
      exact ⟨[], .of_ordered linked (acceptedCalls_of_ok run) shown ordering resolved⟩
    | ignored | skip | take =>
      exact ⟨[], .of_kept linked (predicates_of_modifier shown) rfl rfl rfl (Nat.le_refl _) refl⟩

/-- What a sequence of calls adds. -/
theorem after_builds (c : Compiler n)
    (linked : Linked c.input.schema c.input.dialect c.origin c.joins) (calls : List Call) :
    ∃ conditions, c.Builds calls (c.after calls) conditions := by
  induction calls generalizing c with
  | nil => exact ⟨[], .nil linked⟩
  | cons call rest ih =>
    obtain ⟨ks, first⟩ := c.add_builds linked call
    have linked' := first.linked
    rw [← c.add_input call.bindings call.expr, ← c.add_origin call.bindings call.expr] at linked'
    obtain ⟨ks', others⟩ := ih _ linked'
    exact ⟨ks ++ ks', .cons rfl first others⟩

/-- The joins continue one another after any calls. -/
theorem after_linked (c : Compiler n)
    (linked : Linked c.input.schema c.input.dialect c.origin c.joins) (calls : List Call) :
    Linked (c.after calls).input.schema (c.after calls).input.dialect (c.after calls).origin
      (c.after calls).joins := by
  obtain ⟨_, built⟩ := c.after_builds linked calls
  rw [c.after_origin calls, c.after_input calls]
  exact built.linked

/-- What the calls of a whole compilation build. -/
theorem start_builds (input : CompilerInput n) (registry : Registry) (calls : List Call) :
    ∃ conditions, (start input registry).Builds calls ((start input registry).after calls)
      conditions :=
  (start input registry).after_builds (.nil _ _ _) calls

end Compiler
end PredicateSql
