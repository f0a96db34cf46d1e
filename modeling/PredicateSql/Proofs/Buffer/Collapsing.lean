import Mathlib.Logic.Relation
import PredicateSql.Proofs.Buffer.Operations
import PredicateSql.Proofs.Condition.Basic

/-!
Writing out boolean tests early. Binding does not tell a boolean test from text, and a test that was
not written out early is written out in the same way at the end. So calls that write tests out in
the dialect of the end can be left out or put in anywhere.
-/
namespace PredicateSql

namespace Token

/-- A piece that binding passes over without a look: text, or a boolean test. -/
def isPlain : Token → Bool
  | sql _ | bool _ => true
  | _ => false

/-- The pieces are equal, but for texts and boolean tests. -/
def Blurred (t t' : Token) : Prop :=
  t = t' ∨ t.isPlain = true ∧ t'.isPlain = true

structure Blends (R : Token → Token → Prop) : Prop where
  refl : ∀ t, R t t
  blurred : ∀ {t t'}, R t t' → Blurred t t'

variable {R : Token → Token → Prop} {t t' : Token} {ts ts' : List Token} {d d' : Dialect}

theorem column?_of_isPlain (h : t.isPlain = true) : t.column? = none := by
  cases t <;> first | rfl | cases h

theorem isFinal_of_isPlain (h : t.isPlain = true) : t.IsFinal := by
  cases t <;> first | exact ⟨rfl, rfl⟩ | cases h

theorem isPlain_collapse (d : Dialect) (t : Token) : (t.collapse d).isPlain = t.isPlain := by
  cases t <;> rfl

theorem Blends.respects (blends : Blends R) (context : BindingContext) :
    Respects context R Eq Eq where
  success := rfl
  both same := by rw [same]
  column? := by
    intro t t' related
    rcases blends.blurred related with rfl | ⟨plain, plain'⟩
    · cases t.column? with
      | none => exact .none
      | some c => exact .some rfl
    · rw [column?_of_isPlain plain, column?_of_isPlain plain']
      exact .none
  bindTo := by
    rintro t t' c _ related rfl
    rcases blends.blurred related with rfl | ⟨plain, plain'⟩
    · exact blends.refl _
    · rwa [(isFinal_of_isPlain plain).bindTo_eq, (isFinal_of_isPlain plain').bindTo_eq]
  resolve := by
    rintro t t' c _ related rfl
    rcases blends.blurred related with rfl | ⟨plain, plain'⟩
    · exact ⟨rfl, blends.refl _⟩
    · rw [(isFinal_of_isPlain plain).resolve_eq, (isFinal_of_isPlain plain').resolve_eq]
      exact ⟨rfl, related⟩

/-- The second piece is the first one, which may be a boolean test that is written out for the
dialect. -/
def IsEarly (d : Dialect) (t t' : Token) : Prop :=
  t' = t ∨ t' = t.collapse d

theorem collapse_eq_or_isPlain (d : Dialect) (t : Token) : t.collapse d = t ∨ t.isPlain = true := by
  cases t with
  | bool invert => exact .inr rfl
  | _ => exact .inl rfl

theorem collapse_collapse (d d' : Dialect) (t : Token) :
    (t.collapse d).collapse d' = t.collapse d := by
  cases t <;> rfl

theorem collapse_of_boolLiteral (same : d'.boolLiteral = d.boolLiteral) (t : Token) :
    t.collapse d' = t.collapse d := by
  cases t with
  | bool invert => rw [collapse, collapse, same]
  | _ => rfl

theorem blends_blurred : Blends Blurred where
  refl _ := .inl rfl
  blurred := id

theorem blends_isEarly (d : Dialect) : Blends (IsEarly d) where
  refl _ := .inl rfl
  blurred := by
    rintro t t' (rfl | rfl)
    · exact .inl rfl
    · rcases collapse_eq_or_isPlain d t with same | plain
      · exact .inl same.symm
      · exact .inr ⟨plain, (isPlain_collapse d t).trans plain⟩

theorem Blurred.collapse_right (h : Blurred t t') (d : Dialect) : Blurred t (t'.collapse d) := by
  rcases collapse_eq_or_isPlain d t' with same | plain
  · rwa [same]
  · rcases h with rfl | ⟨plain', -⟩
    · exact .inr ⟨plain, (isPlain_collapse d t).trans plain⟩
    · exact .inr ⟨plain', (isPlain_collapse d t').trans plain⟩

theorem Blurred.collapse (h : Blurred t t') (d : Dialect) :
    Blurred (t.collapse d) (t'.collapse d) := by
  rcases h with rfl | ⟨plain, plain'⟩
  · exact .inl rfl
  · exact .inr ⟨(isPlain_collapse d t).trans plain, (isPlain_collapse d t').trans plain'⟩

theorem IsEarly.collapse_right (h : IsEarly d t t') : IsEarly d t (t'.collapse d) := by
  rcases h with rfl | rfl
  · exact .inr rfl
  · exact .inr (collapse_collapse d d t)

/-- Writing out once more for a dialect that spells truth values alike leaves the same. -/
theorem IsEarly.collapse (h : IsEarly d t t') (same : d'.boolLiteral = d.boolLiteral) :
    IsEarly d (t.collapse d') (t'.collapse d') := by
  rcases h with rfl | rfl
  · exact .inl rfl
  · exact .inl (by rw [collapse_collapse, collapse_of_boolLiteral same])

/-- What a dialect finds written out already was no boolean test. -/
theorem IsEarly.collapse_of_kept (h : IsEarly d t t') (kept : t.collapse d' = t) :
    IsEarly d t (t'.collapse d') := by
  rcases h with rfl | rfl
  · exact .inl kept
  · exact .inr (collapse_collapse d d' t)

theorem renderAll_of_isEarly (early : List.Forall₂ (IsEarly d) ts ts') :
    renderAll d ts' = renderAll d ts := by
  induction early with
  | nil => rfl
  | cons first _ ih =>
    rcases first with rfl | rfl
    · rw [renderAll, renderAll, ih]
    · rw [renderAll, renderAll, ih, render_collapse]

end Token

namespace TokenBuffer

variable {R : Token → Token → Prop} {b b' : TokenBuffer} {d : Dialect} {start : Nat}
  {op : Operation} {ops ops' : List Operation}

/-- Operations that write out no boolean tests keep the relation and have the same outcome. -/
theorem perform_blends (blends : Token.Blends R) (related : List.Forall₂ R b.tokens b'.tokens)
    (op : Operation)
    (collapsed : ∀ d start, op = .collapseBooleans d start →
      List.Forall₂ R (b.collapseBooleans d start).tokens (b'.collapseBooleans d start).tokens) :
    (b.perform op).1 = (b'.perform op).1 ∧
      List.Forall₂ R (b.perform op).2.tokens (b'.perform op).2.tokens := by
  have pushed (t : Token) : List.Forall₂ R (b.push t).tokens (b'.push t).tokens :=
    List.rel_append related (.cons (blends.refl t) .nil)
  cases op with
  | bindSpan context start => exact forall₂_bindSpan related start (blends.respects context)
  | collapseBooleans d start => exact ⟨rfl, collapsed d start rfl⟩
  | _ => exact ⟨rfl, pushed _⟩

/-- A call in the second run only. -/
theorem forall₂_collapseBooleans_right (related : List.Forall₂ R b.tokens b'.tokens)
    (collapsed : ∀ t ∈ b.tokens.drop start, ∀ {t'}, R t t' → R t (t'.collapse d)) :
    List.Forall₂ R b.tokens (b'.collapseBooleans d start).tokens := by
  have span : List.Forall₂ R (b.tokens.drop start)
      ((b'.tokens.drop start).map (Token.collapse d)) := by
    rw [List.forall₂_map_right_iff]
    exact ((List.forall₂_and_left _ _).mpr ⟨collapsed, List.forall₂_drop start related⟩).imp
      fun _ _ pieces => pieces.1 pieces.2
  rw [← List.take_append_drop start b.tokens]
  exact List.rel_append (List.forall₂_take start related) span

/-- A call that changes nothing finds no boolean test behind its mark. -/
theorem collapse_eq_of_collapseBooleans_eq (h : b.collapseBooleans d start = b) :
    ∀ t ∈ b.tokens.drop start, t.collapse d = t := by
  have tokens : b.tokens.take start ++ (b.tokens.drop start).map (Token.collapse d) =
      b.tokens.take start ++ b.tokens.drop start :=
    (congrArg TokenBuffer.tokens h).trans (List.take_append_drop start b.tokens).symm
  exact List.map_inj_left.mp ((List.append_cancel_left tokens).trans (List.map_id _).symm)

namespace Operation

def collapsesFor (d : Dialect) : Operation → Bool
  | collapseBooleans d' _ => d' = d
  | _ => false

def Misspells (d : Dialect) : Operation → Prop
  | collapseBooleans d' _ => d'.boolLiteral ≠ d.boolLiteral
  | _ => False

theorem eq_of_collapsesFor (h : op.collapsesFor d = true) :
    ∃ start, op = .collapseBooleans d start := by
  cases op with
  | collapseBooleans d' start =>
    obtain rfl : d' = d := of_decide_eq_true h
    exact ⟨start, rfl⟩
  | _ => cases h

end Operation

/-- A span begins in the buffer or at its end. To take any other one is a panic. -/
def Step.InBounds (s : Step) : Prop :=
  match s.operation with
  | .bindSpan _ start | .collapseBooleans _ start => start ≤ s.before.mark
  | _ => True

/-- No operation panics. -/
def Completes (b : TokenBuffer) (ops : List Operation) : Prop :=
  ∀ step ∈ b.steps ops, step.InBounds

/-- There is one more call that writes out boolean tests for the dialect. It can be anywhere, and
what it is about begins in the buffer of that place or at its end. -/
inductive Inserts (d : Dialect) : List Operation → List Operation → Prop
  | intro (front rest : List Operation) (start : Nat) (bound : start ≤ (empty.after front).mark) :
      Inserts d (front ++ rest) (front ++ .collapseBooleans d start :: rest)

def withoutCollapsing (d : Dialect) (ops : List Operation) : List Operation :=
  ops.filter (!·.collapsesFor d)

/-- What a caller sees of a step: its outcome, and the marks before and after it. -/
def Step.seen (s : Step) : Except Error Unit × Nat × Nat :=
  (s.outcome, s.before.mark, s.after.mark)

/-- What a caller sees of the steps that do not write out boolean tests for the dialect. -/
def seen (d : Dialect) (b : TokenBuffer) (ops : List Operation) :
    List (Except Error Unit × Nat × Nat) :=
  ((b.steps ops).filter (!·.operation.collapsesFor d)).map Step.seen

theorem withoutCollapsing_cons_of_collapsesFor (h : op.collapsesFor d = true)
    (ops : List Operation) :
    withoutCollapsing d (op :: ops) = withoutCollapsing d ops := by
  rw [withoutCollapsing, List.filter_cons_of_neg (by simp [h])]
  rfl

theorem withoutCollapsing_cons_of_not (h : ¬op.collapsesFor d = true) (ops : List Operation) :
    withoutCollapsing d (op :: ops) = op :: withoutCollapsing d ops := by
  rw [withoutCollapsing, List.filter_cons_of_pos (by simp [h])]
  rfl

theorem Inserts.withoutCollapsing_eq (h : Inserts d ops ops') :
    withoutCollapsing d ops = withoutCollapsing d ops' := by
  obtain ⟨front, rest, start, -⟩ := h
  have call : (Operation.collapseBooleans d start).collapsesFor d = true := decide_eq_true rfl
  rw [withoutCollapsing, withoutCollapsing, List.filter_append, List.filter_append]
  exact congrArg _ (withoutCollapsing_cons_of_collapsesFor call rest).symm

/-! ### A run with the calls beside the run without them -/

theorem completes_cons :
    b.Completes (op :: ops) ↔ Step.InBounds ⟨b, op⟩ ∧ (b.perform op).2.Completes ops :=
  List.forall_mem_cons

theorem completes_append :
    b.Completes (ops ++ ops') ↔ b.Completes ops ∧ (b.after ops).Completes ops' := by
  induction ops generalizing b with
  | nil => exact (and_iff_right (List.forall_mem_nil _)).symm
  | cons op rest ih => rw [List.cons_append, completes_cons, completes_cons, ih, and_assoc, after]

theorem perform_blurred (related : List.Forall₂ Token.Blurred b.tokens b'.tokens)
    (op : Operation) :
    (b.perform op).1 = (b'.perform op).1 ∧
      List.Forall₂ Token.Blurred (b.perform op).2.tokens (b'.perform op).2.tokens :=
  perform_blends Token.blends_blurred related op fun d' start _ =>
    forall₂_collapseBooleans related start fun pieces => pieces.collapse d'

/-- Spans begin at numbers of pieces, which texts and boolean tests do not change. -/
theorem completes_iff_of_blurred (related : List.Forall₂ Token.Blurred b.tokens b'.tokens) :
    b.Completes ops ↔ b'.Completes ops := by
  induction ops generalizing b b' with
  | nil => exact Iff.rfl
  | cons op rest ih =>
    have marks : b.mark = b'.mark := related.length_eq
    have bounds : Step.InBounds ⟨b, op⟩ ↔ Step.InBounds ⟨b', op⟩ := by
      cases op <;> simp only [Step.InBounds, marks]
    rw [completes_cons, completes_cons, bounds, ih (perform_blurred related op).2]

theorem Inserts.completes_iff (h : Inserts d ops ops') :
    empty.Completes ops ↔ empty.Completes ops' := by
  obtain ⟨front, rest, start, bound⟩ := h
  have same : List.Forall₂ Token.Blurred (empty.after front).tokens (empty.after front).tokens :=
    List.forall₂_same.mpr fun t _ => Token.blends_blurred.refl t
  have others : (empty.after front).Completes rest ↔
      ((empty.after front).perform (.collapseBooleans d start)).2.Completes rest :=
    completes_iff_of_blurred
      (forall₂_collapseBooleans_right same fun _ _ _ pieces => pieces.collapse_right d)
  rw [completes_append, completes_append, completes_cons, ← others]
  exact and_congr_right fun _ => (and_iff_right bound).symm

/-- By induction on the operations: a call for the dialect is a step of the second run only. -/
theorem seen_eq_of_blurred (related : List.Forall₂ Token.Blurred b.tokens b'.tokens) :
    seen d b' ops = (b.steps (withoutCollapsing d ops)).map Step.seen := by
  induction ops generalizing b b' with
  | nil => rfl
  | cons op rest ih =>
    by_cases call : op.collapsesFor d = true
    · obtain ⟨start, rfl⟩ := Operation.eq_of_collapsesFor call
      rw [withoutCollapsing_cons_of_collapsesFor call, seen, steps,
        List.filter_cons_of_neg (by simp [call])]
      exact ih (forall₂_collapseBooleans_right related fun _ _ _ pieces => pieces.collapse_right d)
    · obtain ⟨outcome, tokens⟩ := perform_blurred related op
      have first : Step.seen ⟨b', op⟩ = Step.seen ⟨b, op⟩ :=
        Prod.ext outcome.symm (Prod.ext related.length_eq.symm tokens.length_eq.symm)
      rw [withoutCollapsing_cons_of_not call, seen, steps, steps,
        List.filter_cons_of_pos (by simp [call]), List.map_cons, List.map_cons, first, ← ih tokens]
      rfl

theorem seen_empty (d : Dialect) (ops : List Operation) :
    seen d empty ops = (empty.steps (withoutCollapsing d ops)).map Step.seen :=
  seen_eq_of_blurred .nil

/-- By induction on the operations, as above. A call in other words finds nothing to write out in
the first run, so what it writes out in the second was text already. -/
theorem isEarly_after (early : List.Forall₂ (Token.IsEarly d) b.tokens b'.tokens)
    (idle : ∀ step ∈ b.steps (withoutCollapsing d ops),
      step.operation.Misspells d → step.after = step.before) :
    List.Forall₂ (Token.IsEarly d) (b.after (withoutCollapsing d ops)).tokens
      (b'.after ops).tokens := by
  induction ops generalizing b b' with
  | nil => exact early
  | cons op rest ih =>
    by_cases call : op.collapsesFor d = true
    · obtain ⟨start, rfl⟩ := Operation.eq_of_collapsesFor call
      rw [withoutCollapsing_cons_of_collapsesFor call] at idle ⊢
      exact ih (forall₂_collapseBooleans_right early fun _ _ _ pieces => pieces.collapse_right) idle
    · rw [withoutCollapsing_cons_of_not call] at idle ⊢
      refine ih (perform_blends (Token.blends_isEarly d) early op ?_).2
        fun step later => idle step (List.mem_cons_of_mem _ later)
      rintro d' start rfl
      by_cases same : d'.boolLiteral = d.boolLiteral
      · exact forall₂_collapseBooleans early start fun pieces => pieces.collapse same
      · -- In the first run there is no boolean test behind the mark, so there are texts at most in
        -- the second.
        have unchanged : b.collapseBooleans d' start = b := idle ⟨b, _⟩ List.mem_cons_self same
        have kept := collapse_eq_of_collapseBooleans_eq unchanged
        rw [unchanged]
        exact forall₂_collapseBooleans_right early fun t held _ pieces =>
          pieces.collapse_of_kept (kept t held)

end TokenBuffer

/-- Boolean tests that are written out early cannot be told from those that are written out at the
end. If calls for the dialect are put in and taken out anywhere, what they are about beginning in
the buffer, then both sequences of operations panic or neither does. If they do not, they have the
same outcomes and marks, and the same text at the end, or the same error, if no call in words that
the dialect does not use finds a boolean test that is not written out yet. -/
theorem early_collapsing_is_unobservable {d : Dialect} {ops ops' : List TokenBuffer.Operation}
    (calls : Relation.EqvGen (TokenBuffer.Inserts d) ops ops') :
    (TokenBuffer.empty.Completes ops ↔ TokenBuffer.empty.Completes ops') ∧
      (TokenBuffer.empty.Completes ops →
        TokenBuffer.seen d .empty ops = TokenBuffer.seen d .empty ops' ∧
        ((∀ step ∈ TokenBuffer.empty.steps (TokenBuffer.withoutCollapsing d ops),
            step.operation.Misspells d → step.after = step.before) →
          (TokenBuffer.empty.after ops).finish d = (TokenBuffer.empty.after ops').finish d)) := by
  obtain ⟨completes, same⟩ : (TokenBuffer.empty.Completes ops ↔ TokenBuffer.empty.Completes ops') ∧
      TokenBuffer.withoutCollapsing d ops = TokenBuffer.withoutCollapsing d ops' := by
    induction calls with
    | rel _ _ inserted => exact ⟨inserted.completes_iff, inserted.withoutCollapsing_eq⟩
    | refl => exact ⟨Iff.rfl, rfl⟩
    | symm _ _ _ ih => exact ⟨ih.1.symm, ih.2.symm⟩
    | trans _ _ _ _ _ first second => exact ⟨first.1.trans second.1, first.2.trans second.2⟩
  refine ⟨completes, fun _ => ⟨?_, fun idle => ?_⟩⟩
  · rw [TokenBuffer.seen_empty, TokenBuffer.seen_empty, same]
  · have early := TokenBuffer.isEarly_after .nil idle
    have early' := TokenBuffer.isEarly_after .nil (same ▸ idle)
    have text : (TokenBuffer.empty.after ops).finish d = _ := Token.renderAll_of_isEarly early
    have text' : (TokenBuffer.empty.after ops').finish d = _ := Token.renderAll_of_isEarly early'
    rw [text, text', same]

namespace Bookshelf

def full : ColumnRef :=
  ⟨"Shelves", "Full", .bool, none, none⟩

/-- A test for shelves with room; the call for the other dialect is about the bracket behind it. -/
def roomLeft : List TokenBuffer.Operation :=
  [.pushColumn full, .pushBool true, .pushSql ")", .collapseBooleans .mssql 2]

def roomLeftWritten : List TokenBuffer.Operation :=
  [.pushColumn full, .pushBool true, .collapseBooleans .postgreSql 0, .pushSql ")",
    .collapseBooleans .mssql 2]

end Bookshelf

theorem test_for_room_is_written_early_or_late :
    TokenBuffer.Inserts .postgreSql Bookshelf.roomLeft Bookshelf.roomLeftWritten ∧
      TokenBuffer.empty.Completes Bookshelf.roomLeft ∧
      TokenBuffer.empty.Completes Bookshelf.roomLeftWritten ∧
      (TokenBuffer.empty.after Bookshelf.roomLeftWritten).finish .postgreSql =
        (TokenBuffer.empty.after Bookshelf.roomLeft).finish .postgreSql ∧
      (TokenBuffer.empty.after Bookshelf.roomLeft).finish .postgreSql =
        .ok "Shelves.\"Full\" = false)" := by
  have inserted : TokenBuffer.Inserts .postgreSql Bookshelf.roomLeft Bookshelf.roomLeftWritten :=
    .intro [.pushColumn Bookshelf.full, .pushBool true] _ 0 (Nat.zero_le _)
  have completes : TokenBuffer.empty.Completes Bookshelf.roomLeft := by
    rw [Bookshelf.roomLeft, TokenBuffer.Completes]
    simp only [TokenBuffer.steps, List.forall_mem_cons]
    exact ⟨trivial, trivial, trivial, Nat.le_succ 2, List.forall_mem_nil _⟩
  have idle : ∀ step ∈ TokenBuffer.empty.steps Bookshelf.roomLeft,
      step.operation.Misspells .postgreSql → step.after = step.before := by
    rw [Bookshelf.roomLeft]
    simp only [TokenBuffer.steps, List.forall_mem_cons]
    exact ⟨False.elim, False.elim, False.elim, fun _ => rfl, List.forall_mem_nil _⟩
  obtain ⟨both, same⟩ := early_collapsing_is_unobservable (.rel _ _ inserted)
  exact ⟨inserted, completes, both.mp completes, ((same completes).2 idle).symm, rfl⟩

namespace Bookshelf

def misspelled : List TokenBuffer.Operation :=
  [.pushBool false, .collapseBooleans .mssql 0, .collapseBooleans .postgreSql 0]

def spelled : List TokenBuffer.Operation :=
  [.pushBool false, .collapseBooleans .postgreSql 0, .collapseBooleans .mssql 0]

end Bookshelf

/-- A call for another dialect is seen at the end, unless a call for its own dialect comes before
it. -/
theorem misspelled_test_is_seen :
    Relation.EqvGen (TokenBuffer.Inserts .postgreSql) Bookshelf.misspelled Bookshelf.spelled ∧
      TokenBuffer.empty.Completes Bookshelf.misspelled ∧
      (TokenBuffer.empty.after Bookshelf.misspelled).finish .postgreSql = .ok " = 1" ∧
      (TokenBuffer.empty.after Bookshelf.spelled).finish .postgreSql = .ok " = true" := by
  let test : TokenBuffer.Operation := .pushBool false
  let other : TokenBuffer.Operation := .collapseBooleans .mssql 0
  have late : TokenBuffer.Inserts .postgreSql [test, other] Bookshelf.misspelled :=
    .intro [test, other] [] 0 (Nat.zero_le _)
  have early : TokenBuffer.Inserts .postgreSql [test, other] Bookshelf.spelled :=
    .intro [test] [other] 0 (Nat.zero_le _)
  have completes : TokenBuffer.empty.Completes Bookshelf.misspelled := by
    rw [Bookshelf.misspelled, TokenBuffer.Completes]
    simp only [TokenBuffer.steps, List.forall_mem_cons]
    exact ⟨trivial, Nat.zero_le _, Nat.zero_le _, List.forall_mem_nil _⟩
  exact ⟨.trans _ _ _ (.symm _ _ (.rel _ _ late)) (.rel _ _ early), completes, rfl, rfl⟩

end PredicateSql
