import PredicateSql.Proofs.Buffer.Markers

/-!
What is bound is bound for good. Binding changes only the unbound literals behind its mark, and all
of these if there is a column; no operation changes a bound literal.
-/
namespace PredicateSql

namespace TokenBuffer

variable {b b' : TokenBuffer} {ops : List Operation} {context : BindingContext} {start i : Nat}
  {t : Token}

/-- A piece stays where it is if the pieces behind a mark are replaced by others among which it is
in its place. -/
theorem getElem?_take_append {ts span : List Token} (held : ts[i]? = some t)
    (kept : start ≤ i → span[i - start]? = some t) : (ts.take start ++ span)[i]? = some t := by
  have inside : i < ts.length := (List.getElem?_eq_some_iff.mp held).1
  rcases Nat.lt_or_ge i start with before | behind
  · rw [List.getElem?_append_left (by rw [List.length_take]; omega),
      List.getElem?_take_of_lt before, held]
  · have front : (ts.take start).length = start := List.length_take_of_le (by omega)
    rw [List.getElem?_append_right (by omega), front, kept behind]

theorem getElem?_drop_sub {ts : List Token} (held : ts[i]? = some t) (behind : start ≤ i) :
    (ts.drop start)[i - start]? = some t := by
  rw [List.getElem?_drop, Nat.add_sub_cancel' behind, held]

theorem mark_bindSpan (b : TokenBuffer) (context : BindingContext) (start : Nat) :
    (b.bindSpan context start).2.mark = b.mark := by
  simp only [bindSpan_eq, mark, List.length_append, Token.bindSpan_length, List.length_take,
    List.length_drop]
  omega

/-- What is before the mark stays, and so does what is final. -/
theorem bindSpan_getElem?_of_kept (held : b.tokens[i]? = some t) (kept : i < start ∨ t.IsFinal) :
    (b.bindSpan context start).2.tokens[i]? = some t := by
  refine getElem?_take_append held fun behind => ?_
  have final := kept.resolve_left (Nat.not_lt.mpr behind)
  exact final.bindSpan_getElem? (getElem?_drop_sub held behind)

/-- No operation changes a bound literal. -/
theorem perform_getElem?_of_bound {v : Value} {w : Wildcard} {kind : ColumnKind} (op : Operation)
    (held : b.tokens[i]? = some (.deferred v w (some kind))) :
    (b.perform op).2.tokens[i]? = some (.deferred v w (some kind)) := by
  have inside : i < b.tokens.length := (List.getElem?_eq_some_iff.mp held).1
  cases op with
  | bindSpan context start =>
    exact bindSpan_getElem?_of_kept held (.inr (Token.isFinal_bound v w kind))
  | collapseBooleans d start =>
    refine getElem?_take_append held fun behind => ?_
    rw [List.getElem?_map, getElem?_drop_sub held behind]
    rfl
  | _ => exact (List.getElem?_append_left inside).trans held

theorem after_getElem?_of_bound {v : Value} {w : Wildcard} {kind : ColumnKind}
    (ops : List Operation) (held : b.tokens[i]? = some (.deferred v w (some kind))) :
    (b.after ops).tokens[i]? = some (.deferred v w (some kind)) := by
  induction ops generalizing b with
  | nil => exact held
  | cons op rest ih => exact ih (perform_getElem?_of_bound op held)

theorem bindSpan_of_no_column (missing : (b.tokens.drop start).findSome? Token.column? = none)
    (context : BindingContext) : b.bindSpan context start = (.ok (), b) := by
  rw [bindSpan_eq, Token.bindSpan, missing, List.take_append_drop]

/-- Where there is a column, binding that succeeds leaves final pieces only. -/
theorem isFinal_of_bindSpan (bound : b.bindSpan context start = (.ok (), b'))
    (column : (b.tokens.drop start).findSome? Token.column? ≠ none) :
    ∀ t ∈ b'.tokens.drop start, t.IsFinal := by
  rw [bindSpan_eq] at bound
  rcases Token.bindSpan_cases context (b.tokens.drop start) with
    ⟨missing, -⟩ | ⟨ts, run, final⟩ | ⟨e, _, _, _, run, -⟩
  · exact absurd missing column
  · rw [run] at bound
    obtain ⟨-, rfl⟩ := Prod.mk.inj bound
    intro t held
    rw [List.drop_append, List.drop_take, Nat.sub_self, List.take_zero, List.nil_append] at held
    exact final t (List.mem_of_mem_drop held)
  · rw [run] at bound
    cases bound

theorem bindSpan_of_isFinal (final : ∀ t ∈ b.tokens.drop start, t.IsFinal)
    (context : BindingContext) :
    b.bindSpan context start = (.ok (), b) := by
  rw [bindSpan_eq, Token.bindSpan_of_isFinal final, List.take_append_drop]

/-- Binding a second time changes nothing, whatever is known by then. -/
theorem bindSpan_again (bound : b.bindSpan context start = (.ok (), b'))
    (context' : BindingContext) :
    b'.bindSpan context' start = (.ok (), b') := by
  by_cases missing : (b.tokens.drop start).findSome? Token.column? = none
  · rw [bindSpan_of_no_column missing] at bound
    obtain ⟨-, rfl⟩ := Prod.mk.inj bound
    exact bindSpan_of_no_column missing context'
  · exact bindSpan_of_isFinal (isFinal_of_bindSpan bound missing) context'

end TokenBuffer

/-- The first binding of a literal is final. When all bindings have succeeded so far and one more
does, it keeps the number of pieces, all pieces before its mark, and behind it all but the unbound
literals; of these none is left if there is a column, and otherwise nothing changes. From then on
bound literals stay as they are, whatever is done and whether it succeeds. In particular, binding
again changes nothing. -/
theorem first_bindings_are_final {ops : List TokenBuffer.Operation} {context : BindingContext}
    {start : Nat} {b' : TokenBuffer} (succeed : TokenBuffer.empty.Succeeds ops)
    (bound : (TokenBuffer.empty.after ops).bindSpan context start = (.ok (), b')) :
    let b := TokenBuffer.empty.after ops
    b'.mark = b.mark ∧
      (∀ i t, b.tokens[i]? = some t → i < start ∨ t.isUnbound = false → b'.tokens[i]? = some t) ∧
      ((b.tokens.drop start).findSome? Token.column? ≠ none → ∀ t ∈ b'.tokens.drop start,
        t.isUnbound = false) ∧
      ((b.tokens.drop start).findSome? Token.column? = none → b' = b) ∧
      (∀ later (i : Nat) v w kind, b'.tokens[i]? = some (Token.deferred v w (some kind)) →
        (b'.after later).tokens[i]? = some (Token.deferred v w (some kind))) ∧
      ∀ context', b'.bindSpan context' start = (.ok (), b') := by
  intro b
  have run : (b.bindSpan context start).2 = b' := congrArg Prod.snd bound
  refine ⟨?_, fun i t held kept => ?_, fun column t held => ?_, fun missing => ?_, ?_, ?_⟩
  · rw [← run, TokenBuffer.mark_bindSpan]
  · rw [← run]
    refine TokenBuffer.bindSpan_getElem?_of_kept held (kept.imp_right fun bound => ⟨?_, bound⟩)
    exact succeed.isResolved t (List.mem_of_getElem? held)
  · exact (TokenBuffer.isFinal_of_bindSpan bound column t held).bound
  · rw [← run, TokenBuffer.bindSpan_of_no_column missing]
  · exact fun later i v w kind held => TokenBuffer.after_getElem?_of_bound later held
  · exact TokenBuffer.bindSpan_again bound

namespace Bookshelf

def numberedState : List TokenBuffer.Operation :=
  [.pushColumn ⟨"Loans", "Id", .int, none, none⟩,
    .pushColumn ⟨"Loans", "State", .enum, some "Loan.State", none⟩, .pushValue (.int 1) .none]

end Bookshelf

/-- The ordinal is bound to the state and stays a name in a span where the number comes first. -/
theorem states_are_bound_once :
    let b := TokenBuffer.empty.after Bookshelf.numberedState
    let context : BindingContext :=
      ⟨⟨[("Loan.State", ⟨"LoanState", [(0, "Open"), (1, "Closed")]⟩)]⟩, none⟩
    let b' := (b.bindSpan context 1).2
    TokenBuffer.empty.Succeeds Bookshelf.numberedState ∧ b.bindSpan context 1 = (.ok (), b') ∧
      b'.tokens[2]? = some (.deferred (.string "Closed") .none (some .string)) ∧
      (b'.after [.bindSpan context 0]).tokens[2]? =
        some (.deferred (.string "Closed") .none (some .string)) ∧
      b'.bindSpan context 1 = (.ok (), b') := by
  intro b context b'
  have outcomes : (TokenBuffer.empty.steps Bookshelf.numberedState).map (·.outcome) =
      [.ok (), .ok (), .ok ()] := rfl
  have succeed : TokenBuffer.empty.Succeeds Bookshelf.numberedState :=
    TokenBuffer.succeeds_iff.mpr (by rw [outcomes]; simp)
  have bound : b.bindSpan context 1 = (.ok (), b') := rfl
  have named : b'.tokens[2]? = some (.deferred (.string "Closed") .none (some .string)) := rfl
  obtain ⟨-, -, -, -, stays, again⟩ := first_bindings_are_final succeed bound
  exact ⟨succeed, bound, named, stays _ _ _ _ _ named, again context⟩

end PredicateSql
