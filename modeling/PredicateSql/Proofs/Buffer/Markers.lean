import PredicateSql.Proofs.Buffer.Operations
import PredicateSql.Proofs.Compilation.Calls

/-!
Markers never reach the text. As long as binding succeeds it leaves no marker behind, so the buffer
can be finished; where it fails, the marker that it stopped at keeps the buffer from being finished.
-/
namespace PredicateSql

namespace Token

variable {ts : List Token}

/-- Pieces are written in every dialect if there is no marker among them, and in none otherwise. -/
theorem renderAll_cases (d : Dialect) (ts : List Token) :
    ((∀ t ∈ ts, t.isMarker = false) ∧ ∃ text, renderAll d ts = .ok text) ∨
      (∃ t ∈ ts, t.isMarker = true) ∧ ∃ cause, renderAll d ts = .error (.unresolved cause) := by
  induction ts with
  | nil => exact .inl ⟨List.forall_mem_nil _, "", rfl⟩
  | cons t rest ih =>
    have head : (t.isMarker = false ∧ ∃ text, t.render d = .ok text) ∨
        t.isMarker = true ∧ ∃ cause, t.render d = .error (.unresolved cause) := by
      cases t with
      | stringify => exact .inr ⟨rfl, _, rfl⟩
      | cipher => exact .inr ⟨rfl, _, rfl⟩
      | _ => exact .inl ⟨rfl, _, rfl⟩
    rcases head with ⟨resolved, text, first⟩ | ⟨marker, cause, first⟩
    · rcases ih with ⟨others, more, rendered⟩ | ⟨⟨u, held, marker⟩, cause, failed⟩
      · refine .inl ⟨List.forall_mem_cons.mpr ⟨resolved, others⟩, text ++ more, ?_⟩
        simp [renderAll, first, rendered, bind, Except.bind]
      · refine .inr ⟨⟨u, List.mem_cons_of_mem _ held, marker⟩, cause, ?_⟩
        simp [renderAll, first, failed, bind, Except.bind]
    · refine .inr ⟨⟨t, List.mem_cons_self, marker⟩, cause, ?_⟩
      simp [renderAll, first, bind, Except.bind]

end Token

namespace TokenBuffer

def IsResolved (b : TokenBuffer) : Prop :=
  ∀ t ∈ b.tokens, t.isMarker = false

variable {b b' : TokenBuffer} {op : Operation} {context : BindingContext} {start : Nat} {e : Error}

theorem IsResolved.finish_ok (h : b.IsResolved) (d : Dialect) : ∃ text, b.finish d = .ok text := by
  rcases Token.renderAll_cases d b.tokens with ⟨-, finished⟩ | ⟨⟨t, held, marker⟩, -⟩
  · exact finished
  · cases (h t held).symm.trans marker

theorem isResolved_of_finish {d : Dialect} {text : String} (finished : b.finish d = .ok text) :
    b.IsResolved := by
  rcases Token.renderAll_cases d b.tokens with ⟨resolved, -⟩ | ⟨-, cause, failed⟩
  · exact resolved
  · cases finished.symm.trans failed

theorem finish_error {t : Token} (held : t ∈ b.tokens) (marker : t.isMarker = true) (d : Dialect) :
    ∃ cause, b.finish d = .error (.unresolved cause) := by
  rcases Token.renderAll_cases d b.tokens with ⟨resolved, -⟩ | ⟨-, failed⟩
  · cases (resolved t held).symm.trans marker
  · exact failed

theorem IsResolved.push (h : b.IsResolved) {t : Token} (resolved : t.isMarker = false) :
    (b.push t).IsResolved := by
  intro u held
  rcases List.mem_append.mp held with old | new
  · exact h u old
  · obtain rfl := List.mem_singleton.mp new
    exact resolved

theorem IsResolved.bindSpan (h : b.IsResolved) (bound : b.bindSpan context start = (.ok (), b')) :
    b'.IsResolved := by
  rw [bindSpan_eq] at bound
  have front : ∀ t ∈ b.tokens.take start, t.isMarker = false :=
    fun t held => h t (List.mem_of_mem_take held)
  rcases Token.bindSpan_cases context (b.tokens.drop start) with
    ⟨-, run⟩ | ⟨ts, run, final⟩ | ⟨e, _, _, _, run, -⟩
  · rw [run, List.take_append_drop] at bound
    obtain ⟨-, rfl⟩ := Prod.mk.inj bound
    exact h
  · rw [run] at bound
    obtain ⟨-, rfl⟩ := Prod.mk.inj bound
    exact List.forall_mem_append.mpr ⟨front, fun t held => (final t held).resolved⟩
  · rw [run] at bound
    cases bound

theorem IsResolved.collapseBooleans (h : b.IsResolved) (d : Dialect) (start : Nat) :
    (b.collapseBooleans d start).IsResolved := by
  refine List.forall_mem_append.mpr ⟨fun t held => h t (List.mem_of_mem_take held), ?_⟩
  intro t held
  obtain ⟨t, old, rfl⟩ := List.mem_map.mp held
  have resolved := h t (List.mem_of_mem_drop old)
  cases t with
  | bool invert => rfl
  | _ => exact resolved

/-- A successful operation leaves no marker behind. -/
theorem IsResolved.perform (h : b.IsResolved) (run : b.perform op = (.ok (), b')) :
    b'.IsResolved := by
  cases op with
  | bindSpan context start => exact h.bindSpan run
  | collapseBooleans d start =>
    cases run
    exact h.collapseBooleans d start
  | _ =>
    cases run
    exact h.push rfl

theorem Succeeds.isResolved {ops : List Operation} (succeed : empty.Succeeds ops) :
    (empty.after ops).IsResolved :=
  succeed.after_of_kept (List.forall_mem_nil _) fun h run => h.perform run

/-- Binding that fails has stopped at a marker. Before it, the span is final. -/
theorem bindSpan_error (failed : b.bindSpan context start = (.error e, b')) :
    ∃ i marker, start ≤ i ∧ b'.tokens[i]? = some marker ∧ marker.isMarker = true ∧
      ∀ j t, start ≤ j → j < i → b'.tokens[j]? = some t → t.IsFinal := by
  rw [bindSpan_eq] at failed
  rcases Token.bindSpan_cases context (b.tokens.drop start) with ⟨-, run⟩ | ⟨ts, run, -⟩ |
    ⟨e', front, marker, back, run, final, remains⟩
  · rw [run] at failed
    cases failed
  · rw [run] at failed
    cases failed
  · rw [run] at failed
    obtain ⟨-, rfl⟩ := Prod.mk.inj failed
    have inside : start ≤ b.tokens.length := by
      refine Nat.le_of_not_lt fun beyond => ?_
      have nothing : b.tokens.drop start = [] := List.drop_eq_nil_of_le (Nat.le_of_lt beyond)
      rw [nothing] at run
      cases run
    have start_eq : (b.tokens.take start).length = start := List.length_take_of_le inside
    refine ⟨start + front.length, marker, Nat.le_add_right _ _, ?_, remains,
      fun j t behind before held => ?_⟩
    · rw [List.getElem?_append_right (by omega), start_eq, Nat.add_sub_cancel_left,
        List.getElem?_append_right (Nat.le_refl _), Nat.sub_self]
      rfl
    · rw [List.getElem?_append_right (by omega), start_eq,
        List.getElem?_append_left (by omega)] at held
      exact final t (List.mem_of_getElem? held)

end TokenBuffer

/-- The buffer of a predicate that was lowered has no marker. -/
theorem isResolved_of_predicate {n : Nat} {context : LoweringContext n} {origin : Origin n}
    {e : Expr} {s t : Progress} (fresh : s.buffer = .empty)
    (run : predicate context e origin s = (.ok (), t)) :
    t.buffer.IsResolved := by
  obtain ⟨k, u, derived, rfl⟩ := (predicate_ok context).mp run
  have text := k.renderAll_tokens context.schema context.dialect
  have tokens : (u.write (k.tokens context.schema context.dialect)).buffer.tokens =
      k.tokens context.schema context.dialect := by
    simp [Progress.write, derived.buffer_eq, fresh, TokenBuffer.empty]
  have finished : (u.write (k.tokens context.schema context.dialect)).buffer.finish
      context.dialect =
      .ok (k.sql context.schema context.dialect) := by
    rw [TokenBuffer.finish, tokens, text]
  exact TokenBuffer.isResolved_of_finish finished

/-- If all bindings of some operations succeed, no marker is left and the buffer can be finished in
every dialect. Right after a binding that fails it cannot be finished in any: what binding stopped
at is still a marker, although the literals before it are resolved. And the buffer of a predicate
that was lowered can be finished. -/
theorem unresolved_literals_are_not_written :
    (∀ ops, TokenBuffer.empty.Succeeds ops →
      (TokenBuffer.empty.after ops).IsResolved ∧ ∀ d, ∃ text,
        (TokenBuffer.empty.after ops).finish d = .ok text) ∧
    (∀ ops, ∀ step ∈ TokenBuffer.empty.steps ops, ∀ context start e,
      step.operation = .bindSpan context start →
      step.outcome = .error e →
        (∀ d, ∃ cause, step.after.finish d = .error (.unresolved cause)) ∧
        ∃ i marker, start ≤ i ∧ step.after.tokens[i]? = some marker ∧ marker.isMarker = true ∧
          ∀ j t, start ≤ j → j < i → step.after.tokens[j]? = some t → t.IsFinal) ∧
    ∀ {n : Nat} (context : LoweringContext n) origin e s t, s.buffer = .empty →
      predicate context e origin s = (.ok (), t) → ∀ d, ∃ text, t.buffer.finish d = .ok text := by
  refine ⟨fun ops succeed => ?_, fun ops step _ context start e binding failed => ?_, ?_⟩
  · exact ⟨succeed.isResolved, succeed.isResolved.finish_ok⟩
  · have run : step.before.perform step.operation = (step.outcome, step.after) := rfl
    rw [binding, failed] at run
    obtain ⟨i, marker, behind, stopped, remains, settled⟩ := TokenBuffer.bindSpan_error run
    exact ⟨TokenBuffer.finish_error (List.mem_of_getElem? stopped) remains, i, marker, behind,
      stopped, remains, settled⟩
  · intro n context origin e s t fresh run
    exact (isResolved_of_predicate fresh run).finish_ok

namespace Bookshelf

def statePieces (first second : Int64) : List TokenBuffer.Operation :=
  [.pushColumn ⟨"Loans", "State", .enum, some "Loan.State", none⟩, .pushValue (.int first) .none,
    .pushValue (.int second) .none,
    .bindSpan ⟨⟨[("Loan.State", ⟨"LoanState", [(0, "Open"), (1, "Closed")]⟩)]⟩, none⟩ 0]

end Bookshelf

/-- Of the states 0 and 2 only the first is declared. Its name is found, and still nothing is
written. -/
theorem undeclared_states_are_not_written :
    (∀ d, ∃ text, (TokenBuffer.empty.after (Bookshelf.statePieces 0 1)).finish d = .ok text) ∧
      (TokenBuffer.empty.after (Bookshelf.statePieces 0 2)).tokens[1]? =
        some (.deferred (.string "Open") .none (some .string)) ∧
      (∀ d, ∃ cause, (TokenBuffer.empty.after (Bookshelf.statePieces 0 2)).finish d =
        .error (.unresolved cause)) ∧
      ∀ d, ∃ text, (predicate (Bookshelf.books.context .empty) Bookshelf.lent Bookshelf.books.origin
        Bookshelf.books.progress).2.buffer.finish d = .ok text := by
  obtain ⟨finished, unfinished, lowered⟩ := unresolved_literals_are_not_written
  have outcomes : (TokenBuffer.empty.steps (Bookshelf.statePieces 0 1)).map (·.outcome) =
      [.ok (), .ok (), .ok (), .ok ()] := rfl
  have succeed : TokenBuffer.empty.Succeeds (Bookshelf.statePieces 0 1) :=
    TokenBuffer.succeeds_iff.mpr (by rw [outcomes]; simp)
  have run : predicate (Bookshelf.books.context .empty) Bookshelf.lent Bookshelf.books.origin
      Bookshelf.books.progress = (.ok (), _) := Lowering.ok_of_toBool (by decide +kernel)
  refine ⟨(finished _ succeed).2, rfl, ?_, lowered _ _ _ _ _ rfl run⟩
  exact (unfinished (Bookshelf.statePieces 0 2) _ (List.mem_of_getElem? (i := 3) rfl)
    _ _ _ rfl rfl).1

end PredicateSql
