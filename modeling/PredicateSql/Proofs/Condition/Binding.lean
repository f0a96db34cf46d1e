import PredicateSql.Proofs.Condition.Basic

/-!
Binding of literals. What a span of the buffer becomes when it is bound to its first column is
worked out for each literal by itself: its form depends on the column and on nothing else in the
span.
-/
namespace PredicateSql

/-- The value of a literal on a column that may hold names. An open pattern is not a whole name and
stays as it is. -/
def BindingContext.named (context : BindingContext) (c : ColumnRef) (v : Value) (w : Wildcard) :
    Except Error Value :=
  match c.stringify with
  | none => .ok v
  | some key =>
    if w = Wildcard.none then
      match context.enums.find? key with
      | none => .error (.unresolved (.enumUnknown key))
      | some d => v.resolveEnum d
    else .ok v

/-- The form of a literal on a column that may be encrypted. -/
def BindingContext.sealed (context : BindingContext) (c : ColumnRef) (v : Value) (w : Wildcard) :
    Except Error Literal :=
  match c.cipher with
  | some spec => (FieldCipher.ofSpec context.settings spec).map fun key =>
      ⟨v.encrypt key w, Wildcard.none, some .string⟩
  | none => .ok ⟨v, w, some (if c.stringify.isSome then .string else c.kind)⟩

/-- The form that a literal takes when it is bound to a column. -/
def bindLiteral (context : BindingContext) (c : ColumnRef) (v : Value) (w : Wildcard) :
    Except Error Literal :=
  (context.named c v w).bind fun v => context.sealed c v w

theorem bindLiteral_eq_ok {context : BindingContext} {c : ColumnRef} {v : Value} {w : Wildcard}
    {l : Literal} :
    bindLiteral context c v w = .ok l ↔
      ∃ v', context.named c v w = .ok v' ∧ context.sealed c v' w = .ok l := by
  cases named : context.named c v w <;> simp [bindLiteral, named, Except.bind]

/-- Binds an operand; without a column it stays as it is. -/
def Operand.bind (context : BindingContext) : Option ColumnRef → Operand → Except Error Operand
  | some c, .literal l => (bindLiteral context c l.given l.wildcard).map fun written =>
      .literal { l with column := some c, written := written }
  | _, o => .ok o

def Operand.Unbound : Operand → Prop
  | .literal l => l = .unbound l.source l.given l.wildcard
  | _ => True

namespace Token

variable {context : BindingContext} {c : ColumnRef}

/-- What a literal is marked as when no name has to be found for it any more. -/
def sealing (c : ColumnRef) (v : Value) (w : Wildcard) : Token :=
  match c.cipher with
  | some spec => cipher v w spec
  | none => deferred v w (some (if c.stringify.isSome then .string else c.kind))

theorem bindTo_literal (c : ColumnRef) (v : Value) (w : Wildcard) :
    (deferred v w none).bindTo c = match c.stringify with
      | some key => if w = Wildcard.none then stringify v w key else sealing c v w
      | none => sealing c v w := by
  cases named : c.stringify <;> cases sealed : c.cipher <;> simp [bindTo, sealing, named, sealed]

theorem resolve_sealing_ok {v : Value} {w : Wildcard} {t : Token} :
    (sealing c v w).resolve context c = (.ok (), t) ↔
      ∃ l, context.sealed c v w = .ok l ∧ l.token = t := by
  cases sealed : c.cipher with
  | none =>
    simp [sealing, resolve, resolveStringify, resolveCipher, BindingContext.sealed, sealed,
      Literal.token]
  | some spec =>
    cases key : FieldCipher.ofSpec context.settings spec <;>
      simp [sealing, resolve, resolveStringify, resolveCipher, BindingContext.sealed, sealed, key,
        Except.map, Literal.token]

theorem resolveStringify_ok {key : String} (named : c.stringify = some key) {v : Value}
    {t : Token} :
    (stringify v Wildcard.none key).resolveStringify context c = .ok t ↔
      ∃ v', context.named c v Wildcard.none = .ok v' ∧ sealing c v' Wildcard.none = t := by
  cases found : context.enums.find? key with
  | none => simp [resolveStringify, BindingContext.named, named, found]
  | some d =>
    cases value : v.resolveEnum d with
    | error e => simp [resolveStringify, BindingContext.named, named, found, value]
    | ok v' =>
      cases sealed : c.cipher <;>
        simp [resolveStringify, BindingContext.named, named, found, value, sealing, sealed]

theorem resolve_stringify_ok {key : String} (named : c.stringify = some key) {v : Value}
    {t : Token} :
    (stringify v Wildcard.none key).resolve context c = (.ok (), t) ↔
      ∃ v', context.named c v Wildcard.none = .ok v' ∧
        (sealing c v' Wildcard.none).resolve context c = (.ok (), t) := by
  cases first : (stringify v Wildcard.none key).resolveStringify context c with
  | error e =>
    have failed : ∀ v', context.named c v Wildcard.none ≠ .ok v' := by
      intro v' ok
      have := (resolveStringify_ok named).mpr ⟨v', ok, rfl⟩
      rw [first] at this
      cases this
    simp [resolve, first, failed]
  | ok marked =>
    obtain ⟨v', ok, rfl⟩ := (resolveStringify_ok named).mp first
    have kept : (sealing c v' Wildcard.none).resolveStringify context c =
        .ok (sealing c v' Wildcard.none) := by
      cases sealed : c.cipher <;> simp [sealing, sealed, resolveStringify]
    simp [resolve, first, ok, kept]

theorem resolve_bindTo_literal_ok {v : Value} {w : Wildcard} {t : Token} :
    ((deferred v w none).bindTo c).resolve context c = (.ok (), t) ↔
      ∃ l, bindLiteral context c v w = .ok l ∧ l.token = t := by
  rw [bindTo_literal, bindLiteral]
  cases named : c.stringify with
  | none =>
    have same : context.named c v w = .ok v := by simp [BindingContext.named, named]
    rw [same]
    exact resolve_sealing_ok
  | some key =>
    by_cases whole : w = Wildcard.none
    · subst whole
      refine (resolve_stringify_ok named).trans ?_
      cases found : context.named c v Wildcard.none with
      | error e => simp [Except.bind]
      | ok v' => simp [Except.bind, resolve_sealing_ok]
    · have same : context.named c v w = .ok v := by simp [BindingContext.named, named, whole]
      simp only [if_neg whole, same]
      exact resolve_sealing_ok

theorem resolveAll_cons_ok {t : Token} {rest ts : List Token} :
    resolveAll context c (t :: rest) = (.ok (), ts) ↔
      ∃ t' rest', t.resolve context c = (.ok (), t') ∧
        resolveAll context c rest = (.ok (), rest') ∧ t' :: rest' = ts := by
  rcases first : t.resolve context c with ⟨e | ⟨⟩, t'⟩
  · simp [resolveAll, first]
  · rcases others : resolveAll context c rest with ⟨e | ⟨⟩, rest'⟩
    · simp [resolveAll, first, others]
    · simp [resolveAll, first, others]

theorem resolveAll_append_ok {xs ys ts : List Token} :
    resolveAll context c (xs ++ ys) = (.ok (), ts) ↔
      ∃ xs' ys', resolveAll context c xs = (.ok (), xs') ∧
        resolveAll context c ys = (.ok (), ys') ∧ xs' ++ ys' = ts := by
  induction xs generalizing ts with
  | nil => simp [resolveAll]
  | cons t rest ih =>
    simp only [List.cons_append, resolveAll_cons_ok, ih]
    constructor
    · rintro ⟨t', _, first, ⟨xs', ys', front, back, rfl⟩, rfl⟩
      exact ⟨t' :: xs', ys', ⟨t', xs', first, front, rfl⟩, back, rfl⟩
    · rintro ⟨_, ys', ⟨t', xs', first, front, rfl⟩, back, rfl⟩
      exact ⟨t', xs' ++ ys', first, ⟨xs', ys', front, back, rfl⟩, rfl⟩

/-- A piece that is no literal is not changed by binding. -/
theorem resolveAll_sql_ok {text : String} {ts : List Token} :
    resolveAll context c ([sql text].map (bindTo c)) = (.ok (), ts) ↔ [sql text] = ts := by
  simp [resolveAll, resolve, bindTo, resolveStringify, resolveCipher]

theorem map_collapse_sql (d : Dialect) (text : String) :
    [sql text].map (collapse d) = [sql text] := rfl

end Token

namespace Operand

variable {context : BindingContext}

/-- A literal is bound in the form that it takes on the column. -/
theorem bind_literal_eq_ok {l : BoundLiteral} {c : ColumnRef} {o : Operand} :
    (literal l).bind context (some c) = .ok o ↔
      ∃ written, bindLiteral context c l.given l.wildcard = .ok written ∧
        literal { l with column := some c, written := written } = o := by
  cases form : bindLiteral context c l.given l.wildcard <;> simp [bind, form, Except.map]

/-- Binding changes nothing but literals. -/
theorem bind_cases {c : Option ColumnRef} {o o' : Operand} (bound : o.bind context c = .ok o') :
    o' = o ∨ ∃ column l written, c = some column ∧ o = .literal l ∧
      bindLiteral context column l.given l.wildcard = .ok written ∧
      o' = .literal { l with column := some column, written := written } := by
  cases c with
  | none => exact .inl (Except.ok.inj bound).symm
  | some column =>
    cases o with
    | literal l =>
      obtain ⟨written, form, rfl⟩ := bind_literal_eq_ok.mp bound
      exact .inr ⟨column, l, written, rfl, rfl, form, rfl⟩
    | _ => exact .inl (Except.ok.inj bound).symm

/-- Binding changes no column. -/
theorem bind_column? {c : Option ColumnRef} {o o' : Operand}
    (bound : o.bind context c = .ok o') : o'.column? = o.column? := by
  rcases bind_cases bound with rfl | ⟨_, l, written, -, rfl, -, rfl⟩
  · rfl
  · rfl

theorem findSome?_tokens (d : Dialect) (o : Operand) :
    (o.tokens d).findSome? Token.column? = o.column? := by
  cases o <;> rfl

/-- Nothing in an operand is left to be written out. -/
theorem map_collapse_tokens (d : Dialect) (o : Operand) :
    (o.tokens d).map (Token.collapse d) = o.tokens d := by
  cases o <;> rfl

theorem resolveAll_tokens_ok {c : ColumnRef} {d : Dialect} {o : Operand} (unbound : o.Unbound)
    {ts : List Token} :
    Token.resolveAll context c ((o.tokens d).map (Token.bindTo c)) = (.ok (), ts) ↔
      ∃ o', o.bind context (some c) = .ok o' ∧ o'.tokens d = ts := by
  cases o with
  | column c =>
    simp [tokens, bind, Token.resolveAll, Token.resolve, Token.bindTo, Token.resolveStringify,
      Token.resolveCipher]
  | nullOrEmpty c =>
    simp [tokens, bind, Token.resolveAll, Token.resolve, Token.bindTo, Token.resolveStringify,
      Token.resolveCipher]
  | literal l =>
    have written : l.written = ⟨l.given, l.wildcard, none⟩ := congrArg BoundLiteral.written unbound
    simp only [tokens, written, Literal.token, List.map_cons, List.map_nil,
      Token.resolveAll_cons_ok, Token.resolve_bindTo_literal_ok, bind]
    cases form : bindLiteral context c l.given l.wildcard with
    | error e => simp [Except.map]
    | ok w => simp [Except.map, Token.resolveAll]

/-- Two operands with some text around them are bound to the column of the first, or else to that of
the second, each by itself. -/
theorem bindSpan_pair_ok {d : Dialect} {left right : Operand} (leftUnbound : left.Unbound)
    (rightUnbound : right.Unbound) (before between after : String) {ts : List Token} :
    Token.bindSpan context ([Token.sql before] ++ left.tokens d ++ [Token.sql between] ++
      right.tokens d ++
        [Token.sql after]) = (.ok (), ts) ↔
      ∃ left' right', left.bind context (left.column?.or right.column?) = .ok left' ∧
        right.bind context (left.column?.or right.column?) = .ok right' ∧
        [Token.sql before] ++ left'.tokens d ++ [Token.sql between] ++ right'.tokens d ++
          [Token.sql after] =
          ts := by
  have first : ([Token.sql before] ++ left.tokens d ++ [Token.sql between] ++ right.tokens d ++
      [Token.sql after]).findSome? Token.column? = left.column?.or right.column? := by
    have none_of_sql : ∀ text, [Token.sql text].findSome? Token.column? = none := fun _ => rfl
    simp only [List.findSome?_append, findSome?_tokens, none_of_sql, Option.none_or, Option.or_none]
  rw [Token.bindSpan, first]
  cases left.column?.or right.column? with
  | none => simp [bind]
  | some c =>
    simp only [List.map_append, Token.resolveAll_append_ok, Token.resolveAll_sql_ok,
      resolveAll_tokens_ok leftUnbound, resolveAll_tokens_ok rightUnbound]
    constructor
    · rintro ⟨_, _, ⟨_, _, ⟨_, _, ⟨_, _, rfl, ⟨left', leftBound, rfl⟩, rfl⟩, rfl, rfl⟩,
        ⟨right', rightBound, rfl⟩, rfl⟩, rfl, rfl⟩
      exact ⟨left', right', leftBound, rightBound, rfl⟩
    · rintro ⟨left', right', leftBound, rightBound, rfl⟩
      exact ⟨_, _, ⟨_, _, ⟨_, _, ⟨_, _, rfl, ⟨left', leftBound, rfl⟩, rfl⟩, rfl, rfl⟩,
        ⟨right', rightBound, rfl⟩, rfl⟩, rfl, rfl⟩

/-- An operand by itself stays as it is: a literal has no column to be bound to. -/
theorem bindSpan_single {d : Dialect} (o : Operand) (before between after : String) :
    Token.bindSpan context ([Token.sql before] ++ o.tokens d ++ [Token.sql between] ++
      [Token.sql after]) =
      (.ok (), [Token.sql before] ++ o.tokens d ++ [Token.sql between] ++ [Token.sql after]) := by
  cases o with
  | literal l => rfl
  | column c => rfl
  | nullOrEmpty c => rfl

end Operand
end PredicateSql
