import Mathlib.Data.List.Forall2
import PredicateSql.Sql.TokenBuffer

/-!
Operations on a buffer, one after the other. A piece is final if it is neither a marker nor an
unbound literal. Binding makes the pieces of a span final, in their places and up to the first
error, and passes over those that are final already. Two spans are bound alike if a relation of
their pieces is one that binding keeps.
-/
namespace PredicateSql

namespace Token

def isMarker : Token → Bool
  | stringify _ _ _ | cipher _ _ _ => true
  | _ => false

def isUnbound : Token → Bool
  | deferred _ _ none => true
  | _ => false

/-- Nothing is left to be looked up for the piece. -/
structure IsFinal (t : Token) : Prop where
  resolved : t.isMarker = false
  bound : t.isUnbound = false

variable {context : BindingContext} {c : ColumnRef} {t t' : Token} {ts : List Token} {e : Error}

theorem isFinal_bound (v : Value) (w : Wildcard) (kind : ColumnKind) :
    (deferred v w (some kind)).IsFinal :=
  ⟨rfl, rfl⟩

theorem IsFinal.bindTo_eq (h : t.IsFinal) (c : ColumnRef) : t.bindTo c = t := by
  obtain ⟨-, bound⟩ := h
  cases t with
  | deferred v w hint =>
    cases hint with
    | none => cases bound
    | some kind => rfl
  | _ => rfl

theorem IsFinal.resolve_eq (h : t.IsFinal) (context : BindingContext) (c : ColumnRef) :
    t.resolve context c = (.ok (), t) := by
  obtain ⟨resolved, -⟩ := h
  cases t with
  | stringify => cases resolved
  | cipher => cases resolved
  | _ => rfl

/-- A literal is marked, or it gets the kind of its column. -/
theorem isUnbound_bindTo (c : ColumnRef) (t : Token) : (t.bindTo c).isUnbound = false := by
  cases t with
  | deferred v w hint =>
    cases hint with
    | none =>
      rw [bindTo]
      split
      · split
        · rfl
        · split <;> rfl
      · rfl
      · rfl
    | some kind => rfl
  | _ => rfl

/-! ### What becomes of a marker -/

/-- A name that is found for an enumeration marker is a bound literal, or it has to be encrypted. -/
theorem resolveStringify_cases (context : BindingContext) (c : ColumnRef) (v : Value) (w : Wildcard)
    (key : String) :
    (∃ e, (stringify v w key).resolveStringify context c = .error e) ∨
      (∃ v', (stringify v w key).resolveStringify context c = .ok (deferred v' w (some .string))) ∨
      ∃ v' spec, (stringify v w key).resolveStringify context c = .ok (cipher v' w spec) := by
  cases found : context.enums.find? key with
  | none => exact .inl ⟨.unresolved (.enumUnknown key), by simp only [resolveStringify, found]⟩
  | some d =>
    cases value : v.resolveEnum d with
    | error e => exact .inl ⟨e, by simp only [resolveStringify, found, value]⟩
    | ok v' =>
      cases sealed : c.cipher with
      | none => exact .inr (.inl ⟨v', by simp only [resolveStringify, found, value, sealed]⟩)
      | some spec =>
        exact .inr (.inr ⟨v', spec, by simp only [resolveStringify, found, value, sealed]⟩)

theorem resolve_cipher_cases (context : BindingContext) (c : ColumnRef) (v : Value) (w : Wildcard)
    (spec : CipherSpec) :
    (∃ v', (cipher v w spec).resolve context c = (.ok (), deferred v' .none (some .string))) ∨
      ∃ e, (cipher v w spec).resolve context c = (.error e, cipher v w spec) := by
  cases key : FieldCipher.ofSpec context.settings spec with
  | error e => exact .inr ⟨e, by simp [resolve, resolveStringify, resolveCipher, key]⟩
  | ok key' =>
    exact .inl ⟨v.encrypt key' w, by simp [resolve, resolveStringify, resolveCipher, key]⟩

/-- A marker is resolved to a bound literal, or it stays a marker and there is an error; other
pieces are passed over. -/
theorem resolve_cases (context : BindingContext) (c : ColumnRef) (t : Token) :
    (t.isMarker = false ∧ t.resolve context c = (.ok (), t)) ∨
      (∃ v w kind, t.resolve context c = (.ok (), deferred v w (some kind))) ∨
      ∃ e marker, marker.isMarker = true ∧ t.resolve context c = (.error e, marker) := by
  cases t with
  | cipher v w spec =>
    rcases resolve_cipher_cases context c v w spec with ⟨v', run⟩ | ⟨e, run⟩
    · exact .inr (.inl ⟨_, _, _, run⟩)
    · exact .inr (.inr ⟨e, _, rfl, run⟩)
  | stringify v w key =>
    rcases resolveStringify_cases context c v w key with
      ⟨e, failed⟩ | ⟨v', named⟩ | ⟨v', spec, named⟩
    · exact .inr (.inr ⟨e, stringify v w key, rfl, by rw [resolve, failed]⟩)
    · exact .inr (.inl ⟨v', w, .string, by rw [resolve, named]; rfl⟩)
    · have next : (stringify v w key).resolve context c = (cipher v' w spec).resolve context c := by
        rw [resolve, named]
        rfl
      rw [next]
      rcases resolve_cipher_cases context c v' w spec with ⟨v'', run⟩ | ⟨e, run⟩
      · exact .inr (.inl ⟨_, _, _, run⟩)
      · exact .inr (.inr ⟨e, _, rfl, run⟩)
  | _ => exact .inl ⟨rfl, rfl⟩

theorem isFinal_of_resolve (bound : t.isUnbound = false)
    (run : t.resolve context c = (.ok (), t')) : t'.IsFinal := by
  rcases resolve_cases context c t with
    ⟨resolved, same⟩ | ⟨v, w, kind, form⟩ | ⟨e, marker, -, failed⟩
  · cases run.symm.trans same
    exact ⟨resolved, bound⟩
  · cases run.symm.trans form
    exact isFinal_bound v w kind
  · cases run.symm.trans failed

theorem isMarker_of_resolve_error (run : t.resolve context c = (.error e, t')) :
    t'.isMarker = true := by
  rcases resolve_cases context c t with
    ⟨-, same⟩ | ⟨v, w, kind, form⟩ | ⟨e, marker, remains, failed⟩
  · cases run.symm.trans same
  · cases run.symm.trans form
  · cases run.symm.trans failed
    exact remains

/-! ### Spans -/

/-- All pieces become final, or there is an error at a marker with final pieces before it. -/
theorem resolveAll_cases (bound : ∀ t ∈ ts, t.isUnbound = false) :
    (∃ ts', resolveAll context c ts = (.ok (), ts') ∧ ∀ t ∈ ts', t.IsFinal) ∨
      ∃ e front marker back, resolveAll context c ts = (.error e, front ++ marker :: back) ∧
        (∀ t ∈ front, t.IsFinal) ∧ marker.isMarker = true := by
  induction ts with
  | nil => exact .inl ⟨[], rfl, List.forall_mem_nil _⟩
  | cons t rest ih =>
    rcases first : t.resolve context c with ⟨e | ⟨⟩, t'⟩
    · exact .inr ⟨e, [], t', rest, by
        simp [resolveAll, first], List.forall_mem_nil _, isMarker_of_resolve_error first⟩
    · have done := isFinal_of_resolve (bound t List.mem_cons_self) first
      rcases ih fun t held => bound t (List.mem_cons_of_mem _ held) with
        ⟨ts', run, final⟩ | ⟨e, front, marker, back, run, final, remains⟩
      · exact .inl ⟨t' :: ts', by
          simp [resolveAll, first, run], List.forall_mem_cons.mpr ⟨done, final⟩⟩
      · exact .inr ⟨e, t' :: front, marker, back, by simp [resolveAll, first, run],
          List.forall_mem_cons.mpr ⟨done, final⟩, remains⟩

theorem resolveAll_length (context : BindingContext) (c : ColumnRef) (ts : List Token) :
    (resolveAll context c ts).2.length = ts.length := by
  induction ts with
  | nil => rfl
  | cons t rest ih =>
    rcases first : t.resolve context c with ⟨e | ⟨⟩, t'⟩
    · simp [resolveAll, first]
    · simp [resolveAll, first, ih]

/-- Final pieces are passed over before an error, and they are not reached behind it. -/
theorem IsFinal.resolveAll_getElem? (h : t.IsFinal) {i : Nat} (held : ts[i]? = some t) :
    (resolveAll context c ts).2[i]? = some t := by
  induction ts generalizing i with
  | nil => cases held
  | cons u rest ih =>
    rcases first : u.resolve context c with ⟨e | ⟨⟩, u'⟩
    · cases i with
      | zero =>
        cases held
        rw [h.resolve_eq] at first
        cases first
      | succ i => simpa [resolveAll, first] using held
    · cases i with
      | zero =>
        cases held
        simp [resolveAll, h.resolve_eq]
      | succ i => simpa [resolveAll, first] using ih held

theorem bindSpan_length (context : BindingContext) (ts : List Token) :
    (bindSpan context ts).2.length = ts.length := by
  unfold bindSpan
  split
  · rfl
  · rw [resolveAll_length, List.length_map]

theorem IsFinal.bindSpan_getElem? (h : t.IsFinal) {i : Nat} (held : ts[i]? = some t) :
    (bindSpan context ts).2[i]? = some t := by
  unfold bindSpan
  split
  · exact held
  next c _ =>
    refine h.resolveAll_getElem? ?_
    rw [List.getElem?_map, held, Option.map_some, h.bindTo_eq]

/-- There is nothing to bind among final pieces. -/
theorem bindSpan_of_isFinal (final : ∀ t ∈ ts, t.IsFinal) (context : BindingContext) :
    bindSpan context ts = (.ok (), ts) := by
  have passed (c : ColumnRef) : resolveAll context c ts = (.ok (), ts) := by
    induction ts with
    | nil => rfl
    | cons t rest ih =>
      obtain ⟨first, others⟩ := List.forall_mem_cons.mp final
      rw [resolveAll, first.resolve_eq, ih others]
  unfold bindSpan
  split
  · rfl
  next c _ =>
    have same : ts.map (bindTo c) = ts :=
      (List.map_congr_left fun t held => (final t held).bindTo_eq c).trans (List.map_id ts)
    rw [same, passed]

/-- A span without a column stays as it is. In any other all pieces become final, or there is an
error at a marker with final pieces before it. -/
theorem bindSpan_cases (context : BindingContext) (ts : List Token) :
    (ts.findSome? column? = none ∧ bindSpan context ts = (.ok (), ts)) ∨
      (∃ ts', bindSpan context ts = (.ok (), ts') ∧ ∀ t ∈ ts', t.IsFinal) ∨
      ∃ e front marker back, bindSpan context ts = (.error e, front ++ marker :: back) ∧
        (∀ t ∈ front, t.IsFinal) ∧ marker.isMarker = true := by
  cases first : ts.findSome? column? with
  | none => exact .inl ⟨rfl, by rw [bindSpan, first]⟩
  | some c =>
    have marked : ∀ t ∈ ts.map (bindTo c), t.isUnbound = false := by
      intro t held
      obtain ⟨t, -, rfl⟩ := List.mem_map.mp held
      exact isUnbound_bindTo c t
    rw [bindSpan, first]
    exact .inr (resolveAll_cases marked)

/-! ### Related spans -/

/-- Binding keeps a relation of pieces, whatever related columns they are bound to, and its outcomes
are related. -/
structure Respects (context : BindingContext) (R : Token → Token → Prop)
    (C : ColumnRef → ColumnRef → Prop)
    (P : Except Error Unit → Except Error Unit → Prop) : Prop where
  success : P (.ok ()) (.ok ())
  both : ∀ {r r'}, P r r' → r.toBool = r'.toBool
  column? : ∀ {t t'}, R t t' → Option.Rel C t.column? t'.column?
  bindTo : ∀ {t t' c c'}, R t t' → C c c' → R (t.bindTo c) (t'.bindTo c')
  resolve : ∀ {t t' c c'}, R t t' → C c c' → P (t.resolve context c).1 (t'.resolve context c').1 ∧
    R (t.resolve context c).2 (t'.resolve context c').2

namespace Respects

variable {R : Token → Token → Prop} {C : ColumnRef → ColumnRef → Prop}
  {P : Except Error Unit → Except Error Unit → Prop} {c' : ColumnRef} {ts' : List Token}
  (respects : Respects context R C P)
include respects

theorem resolveAll (related : List.Forall₂ R ts ts') (columns : C c c') :
    P (resolveAll context c ts).1 (resolveAll context c' ts').1 ∧
      List.Forall₂ R (resolveAll context c ts).2 (resolveAll context c' ts').2 := by
  induction related with
  | nil => exact ⟨respects.success, .nil⟩
  | @cons t t' rest rest' first others ih =>
    obtain ⟨outcome, piece⟩ := respects.resolve first columns
    unfold Token.resolveAll
    generalize t.resolve context c = r, t'.resolve context c' = r' at outcome piece
    obtain ⟨result, u⟩ := r
    obtain ⟨result', u'⟩ := r'
    -- Both runs stop here, or both go on.
    have both : result.toBool = result'.toBool := respects.both outcome
    cases result with
    | error e =>
      cases result' with
      | error e' => exact ⟨outcome, .cons piece others⟩
      | ok => cases both
    | ok =>
      cases result' with
      | error e' => cases both
      | ok => exact ⟨ih.1, .cons piece ih.2⟩

theorem findSome?_column? (related : List.Forall₂ R ts ts') :
    Option.Rel C (ts.findSome? Token.column?) (ts'.findSome? Token.column?) := by
  induction related with
  | nil => exact .none
  | @cons t t' rest rest' first _ ih =>
    have columns := respects.column? first
    simp only [List.findSome?_cons]
    generalize t.column? = c, t'.column? = c' at columns
    cases columns with
    | some related => exact .some related
    | none => exact ih

/-- Related spans are bound to related columns. -/
theorem bindSpan (related : List.Forall₂ R ts ts') :
    P (bindSpan context ts).1 (bindSpan context ts').1 ∧
      List.Forall₂ R (bindSpan context ts).2 (bindSpan context ts').2 := by
  have columns := respects.findSome?_column? related
  unfold Token.bindSpan
  generalize ts.findSome? Token.column? = c, ts'.findSome? Token.column? = c' at columns
  cases columns with
  | none => exact ⟨respects.success, related⟩
  | some columns =>
    refine respects.resolveAll ?_ columns
    rw [List.forall₂_map_left_iff, List.forall₂_map_right_iff]
    exact related.imp fun _ _ pieces => respects.bindTo pieces columns

end Respects

end Token

namespace TokenBuffer

section Related

variable {R : Token → Token → Prop} {b b' : TokenBuffer}
  (related : List.Forall₂ R b.tokens b'.tokens) (start : Nat)
include related

theorem forall₂_bindSpan {C : ColumnRef → ColumnRef → Prop}
    {P : Except Error Unit → Except Error Unit → Prop} {context : BindingContext}
    (respects : Token.Respects context R C P) :
    P (b.bindSpan context start).1 (b'.bindSpan context start).1 ∧
      List.Forall₂ R (b.bindSpan context start).2.tokens (b'.bindSpan context start).2.tokens := by
  obtain ⟨outcome, span⟩ := respects.bindSpan (List.forall₂_drop start related)
  exact ⟨outcome, List.rel_append (List.forall₂_take start related) span⟩

theorem forall₂_collapseBooleans {d d' : Dialect}
    (collapsed : ∀ {t t'}, R t t' → R (t.collapse d) (t'.collapse d')) :
    List.Forall₂ R (b.collapseBooleans d start).tokens (b'.collapseBooleans d' start).tokens := by
  have span : List.Forall₂ R ((b.tokens.drop start).map (Token.collapse d))
      ((b'.tokens.drop start).map (Token.collapse d')) := by
    rw [List.forall₂_map_left_iff, List.forall₂_map_right_iff]
    exact (List.forall₂_drop start related).imp fun _ _ => collapsed
  exact List.rel_append (List.forall₂_take start related) span

end Related

/-- What can be done to a buffer. Binding is given what is known at its time. -/
inductive Operation where
  | pushSql (text : String)
  | pushColumn (column : ColumnRef)
  | pushValue (value : Value) (wildcard : Wildcard)
  | pushBool (invert : Bool)
  | bindSpan (context : BindingContext) (start : Nat)
  | collapseBooleans (d : Dialect) (start : Nat)

/-- The outcome of an operation, and the buffer after it. -/
def perform (b : TokenBuffer) : Operation → Except Error Unit × TokenBuffer
  | .pushSql text => (.ok (), b.push (.sql text))
  | .pushColumn c => (.ok (), b.push (.column c))
  | .pushValue v w => (.ok (), b.push (.deferred v w none))
  | .pushBool invert => (.ok (), b.push (.bool invert))
  | .bindSpan context start => b.bindSpan context start
  | .collapseBooleans d start => (.ok (), b.collapseBooleans d start)

structure Step where
  before : TokenBuffer
  operation : Operation

namespace Step

def outcome (s : Step) : Except Error Unit :=
  (s.before.perform s.operation).1

def after (s : Step) : TokenBuffer :=
  (s.before.perform s.operation).2

end Step

/-- Performs operations in order, also past an error. -/
def steps (b : TokenBuffer) : List Operation → List Step
  | [] => []
  | op :: rest => ⟨b, op⟩ :: (b.perform op).2.steps rest

def after (b : TokenBuffer) : List Operation → TokenBuffer
  | [] => b
  | op :: rest => (b.perform op).2.after rest

def Succeeds (b : TokenBuffer) (ops : List Operation) : Prop :=
  ∀ step ∈ b.steps ops, step.outcome = .ok ()

variable {b b' : TokenBuffer} {op : Operation} {ops : List Operation} {context : BindingContext}
  {start : Nat}

theorem succeeds_iff : b.Succeeds ops ↔
    ∀ outcome ∈ (b.steps ops).map (·.outcome), outcome = .ok () := by
  rw [List.forall_mem_map]
  rfl

/-- What every successful operation keeps is kept by all of them. -/
theorem Succeeds.after_of_kept {P : TokenBuffer → Prop} (succeed : b.Succeeds ops) (start : P b)
    (kept : ∀ {b b' : TokenBuffer} {op : Operation}, P b → b.perform op = (.ok (), b') → P b') :
    P (b.after ops) := by
  induction ops generalizing b with
  | nil => exact start
  | cons op rest ih =>
    have succeeded : (b.perform op).1 = .ok () := succeed ⟨b, op⟩ List.mem_cons_self
    have first : b.perform op = (.ok (), (b.perform op).2) := by rw [← succeeded]
    exact ih (fun step later => succeed step (List.mem_cons_of_mem _ later)) (kept start first)

theorem bindSpan_eq (b : TokenBuffer) (context : BindingContext) (start : Nat) :
    b.bindSpan context start = ((Token.bindSpan context (b.tokens.drop start)).1,
      ⟨b.tokens.take start ++ (Token.bindSpan context (b.tokens.drop start)).2⟩) := rfl

end TokenBuffer
end PredicateSql
