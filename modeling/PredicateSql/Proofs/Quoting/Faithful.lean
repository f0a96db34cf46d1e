import PredicateSql.Proofs.Condition.Derivation
import PredicateSql.Proofs.Quoting.Pieces

/-!
Where the literals of a condition come from. A captured literal has the value that is bound to its
name, and a column that asks for nothing else gets that value as it is.
-/
namespace PredicateSql

open Lowering

variable {n : Nat}

/-- A column that takes literals as they are never rejects one. -/
theorem bindLiteral_verbatim {context : BindingContext} {c : ColumnRef}
    (verbatim : c.isVerbatim = true) (v : Value) (w : Wildcard) :
    bindLiteral context c v w = .ok ⟨v, w, some c.kind⟩ := by
  simp only [ColumnRef.isVerbatim, Bool.and_eq_true, Option.isNone_iff_eq_none] at verbatim
  obtain ⟨named, sealed⟩ := verbatim
  simp [bindLiteral, BindingContext.named, BindingContext.sealed, named, sealed, Except.bind]

section Lowering

variable {context : LoweringContext n} {s t : Progress}

theorem literal_captured {e : Expr} {name : String} {v : Value} (source : e.strip = .captured name)
    (value : literal context e = .ok v) : context.bindings.get? name = some v := by
  rcases (literal_ok context).mp value with constant | ⟨name', captured, bound⟩
  · rw [source] at constant
    cases constant
  · rw [source] at captured
    cases captured
    exact bound

/-- A literal by itself is written as it is. -/
theorem faithful_unbound {e : Expr} {v : Value} {w : Wildcard}
    (value : literal context e = .ok v) :
    (BoundLiteral.unbound e.strip v w).Faithful context.bindings where
  given _ source := literal_captured (e.strip_strip ▸ source) value
  written _ := rfl

theorem faithful_bound {e : Expr} {b : BindingContext} {v : Value} {w : Wildcard} {c : ColumnRef}
    {l : Literal} (value : literal context e = .ok v) (bound : bindLiteral b c v w = .ok l) :
    (BoundLiteral.mk e.strip v w (some c) l).Faithful context.bindings where
  given _ source := literal_captured source value
  written verbatim := by
    rw [bindLiteral_verbatim verbatim] at bound
    rw [← Except.ok.inj bound]

theorem readOperand_faithful {origin : Origin n} {e : Expr} {o : Operand}
    (run : readOperand context origin e s = (.ok o, t)) :
    ∀ l ∈ o.literals, l.Faithful context.bindings := by
  rcases (readOperand_ok context).mp run with ⟨_, c, -, -, rfl⟩ | ⟨v, value, rfl, -⟩ |
    ⟨_, _, c, -, -, rfl⟩
  · exact fun _ member => absurd member List.not_mem_nil
  · intro l member
    obtain rfl := List.mem_singleton.mp member
    exact faithful_unbound value
  · exact fun _ member => absurd member List.not_mem_nil

theorem Operand.faithful_bind {b : BindingContext} {c : Option ColumnRef} {o o' : Operand}
    (faithful : ∀ l ∈ o.literals, l.Faithful context.bindings) (bound : o.bind b c = .ok o') :
    ∀ l ∈ o'.literals, l.Faithful context.bindings := by
  rcases bind_cases bound with rfl | ⟨column, l, written, -, rfl, form, rfl⟩
  · exact faithful
  · intro l' member
    obtain rfl := List.mem_singleton.mp member
    refine ⟨(faithful l List.mem_cons_self).given, fun verbatim => ?_⟩
    rw [bindLiteral_verbatim verbatim] at form
    rw [← Except.ok.inj form]

/-- The literals of a derived condition are made of what is bound to their names. -/
theorem Lowers.faithful {origin : Origin n} {e : Expr} {k : Condition n}
    (h : Lowers context origin e s k t) : ∀ l ∈ k.literals, l.Faithful context.bindings := by
  induction h with
  | logical _ _ _ first second =>
    simp only [Condition.literals, List.forall_mem_append]
    exact ⟨first, second⟩
  | comparison _ _ leftRead rightRead leftBound rightBound =>
    simp only [Condition.literals, List.forall_mem_append]
    exact ⟨Operand.faithful_bind (readOperand_faithful leftRead) leftBound,
      Operand.faithful_bind (readOperand_faithful rightRead) rightBound⟩
  | nullTest _ _ read => exact readOperand_faithful read
  | inverted boolean run =>
    exact readOperand_faithful (readOperand_of_readBoolean? context boolean run)
  | truth _ boolean run =>
    exact readOperand_faithful (readOperand_of_readBoolean? context boolean run)
  | not _ _ inner => exact inner
  | convert _ inner => exact inner
  | like _ _ _ _ value bound =>
    intro l member
    obtain rfl := List.mem_singleton.mp member
    exact faithful_bound value bound
  | membership collection value _ _ _ bound =>
    intro l member
    obtain rfl := List.mem_singleton.mp member
    have faithful := faithful_bound value bound
    rwa [Expr.strip_of_map collection] at faithful
  | anyWhere _ _ _ inner => exact inner
  | emptyMembership => exact fun _ member => absurd member List.not_mem_nil
  | hasValue => exact fun _ member => absurd member List.not_mem_nil
  | any => exact fun _ member => absurd member List.not_mem_nil

end Lowering
end PredicateSql
