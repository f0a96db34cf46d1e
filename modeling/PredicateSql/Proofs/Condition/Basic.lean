import PredicateSql.Proofs.Lowering.Run

/-!
Conditions as data: a tree with the columns, the literals and the subqueries that a predicate is
lowered to. The pieces of a condition are what stands in the buffer, and its text is what they are
written as.
-/
namespace PredicateSql

/-- A literal in the form it is written in. -/
structure Literal where
  value : Value
  wildcard : Wildcard
  hint : Option ColumnKind

namespace Literal

def token (l : Literal) : Token :=
  .deferred l.value l.wildcard l.hint

def sql (l : Literal) (d : Dialect) : String :=
  l.value.render d l.wildcard l.hint

end Literal

/-- A literal with its origin: the constant or captured name it stands for, the value of that, the
pattern it is to form, and the column it is bound to. -/
structure BoundLiteral where
  source : Expr
  given : Value
  wildcard : Wildcard
  column : Option ColumnRef
  written : Literal

def BoundLiteral.unbound (source : Expr) (given : Value) (wildcard : Wildcard) : BoundLiteral :=
  ⟨source, given, wildcard, none, ⟨given, wildcard, none⟩⟩

/-- What a comparison or a boolean test is about. -/
inductive Operand where
  | column (column : ColumnRef)
  | literal (literal : BoundLiteral)
  /-- The test whether a column is null or the empty string, as a value. -/
  | nullOrEmpty (column : ColumnRef)

namespace Operand

def column? : Operand → Option ColumnRef
  | column c | nullOrEmpty c => some c
  | literal _ => none

def tokens (d : Dialect) : Operand → List Token
  | column c => [.column c]
  | literal l => [l.written.token]
  | nullOrEmpty c =>
    [.sql "(CASE WHEN "] ++ [.column c] ++ [.sql " IS NULL OR "] ++ [.column c] ++
      [.sql (" = '' THEN " ++ d.boolLiteral true ++ " ELSE " ++ d.boolLiteral false ++ " END)")]

def sql (d : Dialect) : Operand → String
  | column c => c.render d
  | literal l => l.written.sql d
  | nullOrEmpty c =>
    "(CASE WHEN " ++ c.render d ++ " IS NULL OR " ++ c.render d ++
      (" = '' THEN " ++ d.boolLiteral true ++ " ELSE " ++ d.boolLiteral false ++ " END)")

end Operand

/-- The rows of a collection: the rows that own it, the way to it, and the two aliases. -/
structure Subquery (n : Nat) where
  path : MemberPath
  outer : Origin n
  navigation : Navigation n
  foreignKey : Column
  key : Column
  childAlias : String
  ownerAlias : String

namespace Subquery

variable {n : Nat}

def child (q : Subquery n) : Origin n :=
  ⟨q.navigation.target, q.childAlias⟩

/-- The test that there is such a row, with joins and a condition on it. -/
def clause (schema : Schema n) (d : Dialect) (q : Subquery n) (joins : List JoinClause)
    (condition : Option String) : ExistsClause where
  childTable := d.tableName (schema.entity q.navigation.target).table
  childAlias := q.childAlias
  correlation :=
    ⟨q.path.text, q.ownerAlias, .inner, d.tableName (schema.entity q.outer.entity).table,
      [⟨⟨q.ownerAlias, q.key.column⟩, ⟨q.childAlias, q.foreignKey.column⟩⟩,
        ⟨⟨q.ownerAlias, q.key.column⟩, ⟨q.outer.qualifier, q.key.column⟩⟩]⟩
  joins := joins
  condition := condition

end Subquery

inductive Condition (n : Nat) where
  | logical (op : BinaryOp) (left right : Condition n)
  | not (operand : Condition n)
  /-- The test that a boolean operand is true, or false when inverted. -/
  | truth (operand : Operand) (invert : Bool)
  | comparison (op : BinaryOp) (left right : Operand)
  /-- The test for null that takes the place of an equality. -/
  | nullTest (operand : Operand) (test : String)
  | like (column : ColumnRef) (pattern : BoundLiteral)
  | membership (column : ColumnRef) (items : BoundLiteral)
  /-- Membership in a list without items. -/
  | emptyMembership (column : ColumnRef) (sentinel : String)
  | hasValue (column : ColumnRef)
  | any (rows : Subquery n)
  | anyWhere (rows : Subquery n) (joins : List JoinClause) (condition : Condition n)

namespace Condition

variable {n : Nat} (schema : Schema n) (d : Dialect)

/-- The text of a condition. -/
def sql : Condition n → String
  | logical op left right => "(" ++ left.sql ++ (" " ++ op.sql ++ " ") ++ right.sql ++ ")"
  | not operand => "NOT " ++ operand.sql
  | truth operand invert => operand.sql d ++ (" = " ++ d.boolLiteral !invert)
  | comparison op left right =>
    "(" ++ left.sql d ++ (" " ++ op.sql ++ " ") ++ right.sql d ++ ")"
  | nullTest operand test => "(" ++ operand.sql d ++ test ++ ")"
  | like column pattern => "(" ++ column.render d ++ " LIKE " ++ pattern.written.sql d ++ ")"
  | membership column items => "(" ++ column.render d ++ " IN (" ++ items.written.sql d ++ "))"
  | emptyMembership column sentinel => "(" ++ column.render d ++ " IN (" ++ sentinel ++ "))"
  | hasValue column => "(" ++ column.render d ++ " IS NOT NULL)"
  | any rows => (rows.clause schema d [] none).sql d
  | anyWhere rows joins condition => (rows.clause schema d joins (some condition.sql)).sql d

/-- The pieces of a condition. The boolean tests inside a logical node are written out. -/
def tokens : Condition n → List Token
  | logical op left right =>
    ([Token.sql "("] ++ left.tokens ++ [Token.sql (" " ++ op.sql ++ " ")] ++ right.tokens ++
      [Token.sql ")"]).map (Token.collapse d)
  | not operand => .sql "NOT " :: operand.tokens
  | truth operand invert => operand.tokens d ++ [.bool invert]
  | comparison op left right =>
    [.sql "("] ++ left.tokens d ++ [.sql (" " ++ op.sql ++ " ")] ++ right.tokens d ++ [.sql ")"]
  | nullTest operand test => [.sql "("] ++ operand.tokens d ++ [.sql test] ++ [.sql ")"]
  | like column pattern =>
    [.sql "("] ++ [.column column] ++ [.sql " LIKE "] ++ [pattern.written.token] ++ [.sql ")"]
  | membership column items =>
    [.sql "("] ++ [.column column] ++ [.sql " IN ("] ++ [items.written.token] ++ [.sql "))"]
  | emptyMembership column sentinel =>
    [.sql "("] ++ [.column column] ++ [.sql " IN ("] ++ [.sql sentinel] ++ [.sql "))"]
  | hasValue column => [.sql "("] ++ [.column column] ++ [.sql " IS NOT NULL)"]
  | any rows => [.sql ((rows.clause schema d [] none).sql d)]
  | anyWhere rows joins condition =>
    [.sql ((rows.clause schema d joins (some (condition.sql schema d))).sql d)]

end Condition

namespace Token

variable (d : Dialect)

theorem renderAll_append {xs ys : List Token} {a b : String} (front : renderAll d xs = .ok a)
    (back : renderAll d ys = .ok b) : renderAll d (xs ++ ys) = .ok (a ++ b) := by
  induction xs generalizing a with
  | nil =>
    cases front
    simpa using back
  | cons t rest ih =>
    simp only [renderAll, List.cons_append, bind, Except.bind] at front ⊢
    cases first : t.render d with
    | error e => simp [first] at front
    | ok text =>
      cases others : renderAll d rest with
      | error e => simp [first, others] at front
      | ok more =>
        simp only [first, others, Except.ok.injEq] at front
        subst front
        simp [ih others, String.append_assoc]

theorem render_collapse (t : Token) : (t.collapse d).render d = t.render d := by
  cases t <;> rfl

/-- Writing out boolean tests early does not change the text. -/
theorem renderAll_map_collapse (ts : List Token) :
    renderAll d (ts.map (collapse d)) = renderAll d ts := by
  induction ts with
  | nil => rfl
  | cons t rest ih =>
    simp only [List.map_cons, renderAll, ih, render_collapse]

end Token

/-- A single piece is written as its own text. -/
theorem Token.renderAll_singleton (d : Dialect) {t : Token} {text : String}
    (h : t.render d = .ok text) : renderAll d [t] = .ok text := by
  simp [renderAll, h, bind, Except.bind]

theorem Token.renderAll_sql (d : Dialect) (text : String) : renderAll d [.sql text] = .ok text :=
  renderAll_singleton d rfl

theorem Token.renderAll_column (d : Dialect) (c : ColumnRef) :
    renderAll d [.column c] = .ok (c.render d) :=
  renderAll_singleton d rfl

theorem Operand.renderAll_tokens (d : Dialect) (o : Operand) :
    Token.renderAll d (o.tokens d) = .ok (o.sql d) := by
  cases o with
  | column c => exact Token.renderAll_column d c
  | literal l => exact Token.renderAll_singleton d rfl
  | nullOrEmpty c =>
    have front := Token.renderAll_append d (Token.renderAll_sql d "(CASE WHEN ")
      (Token.renderAll_column d c)
    have tests := Token.renderAll_append d front (Token.renderAll_sql d " IS NULL OR ")
    exact Token.renderAll_append d (Token.renderAll_append d tests (Token.renderAll_column d c))
      (Token.renderAll_sql d _)

/-- The pieces of a condition are written as its text. -/
theorem Condition.renderAll_tokens {n : Nat} (schema : Schema n) (d : Dialect) (c : Condition n) :
    Token.renderAll d (c.tokens schema d) = .ok (c.sql schema d) := by
  have piece := Token.renderAll_sql d
  have column := Token.renderAll_column d
  -- Most conditions are two parts with something between them, in parentheses.
  have enclosed : ∀ {xs ys : List Token} {a b : String} (between close : String),
      Token.renderAll d xs = .ok a → Token.renderAll d ys = .ok b →
      Token.renderAll d ([Token.sql "("] ++ xs ++ [Token.sql between] ++ ys ++ [Token.sql close]) =
        .ok ("(" ++ a ++ between ++ b ++ close) := by
    intro xs ys a b between close left right
    have front := Token.renderAll_append d (piece "(") left
    have middle := Token.renderAll_append d front (piece between)
    exact Token.renderAll_append d (Token.renderAll_append d middle right) (piece close)
  have literal : ∀ l : Literal, Token.renderAll d [l.token] = .ok (l.sql d) :=
    fun l => Token.renderAll_singleton d rfl
  induction c with
  | logical op left right leftIh rightIh =>
    rw [tokens, Token.renderAll_map_collapse]
    exact enclosed _ _ leftIh rightIh
  | not operand ih => exact Token.renderAll_append d (piece "NOT ") ih
  | truth operand invert =>
    exact Token.renderAll_append d (operand.renderAll_tokens d) (Token.renderAll_singleton d rfl)
  | comparison op left right =>
    exact enclosed _ _ (left.renderAll_tokens d) (right.renderAll_tokens d)
  | nullTest operand test =>
    have front := Token.renderAll_append d (piece "(") (operand.renderAll_tokens d)
    exact Token.renderAll_append d (Token.renderAll_append d front (piece test)) (piece ")")
  | like c pattern => exact enclosed _ _ (column c) (literal pattern.written)
  | membership c items => exact enclosed _ _ (column c) (literal items.written)
  | emptyMembership c sentinel => exact enclosed _ _ (column c) (piece sentinel)
  | hasValue c =>
    exact Token.renderAll_append d (Token.renderAll_append d (piece "(") (column c)) (piece _)
  | any rows => exact piece _
  | anyWhere rows joins condition ih => exact piece _

end PredicateSql
