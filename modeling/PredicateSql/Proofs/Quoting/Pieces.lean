import PredicateSql.Proofs.Condition.Basic
import PredicateSql.Proofs.Quoting.Template

/-!
Conditions as texts with holes. There is a hole for every captured string that is written as it is;
what else is written is text. With the strings in their holes, the pieces are the text of the
condition.
-/
namespace PredicateSql

/-- Literals are written as they are: no names are looked up and nothing is encrypted. -/
def ColumnRef.isVerbatim (c : ColumnRef) : Bool :=
  c.stringify.isNone && c.cipher.isNone

namespace Value

mutual

/-- The pieces of a value that is bound to a name, or that stands at a position of such a value. -/
def pieces (d : Dialect) (name : String) (w : Wildcard) (hint : Option ColumnKind) :
    List Nat → Value → List Piece
  | position, .string _ => [.hole ⟨name, position, w⟩]
  | position, .list items => itemPieces d name w hint position 0 items
  | _, v => [.sql (v.render d w hint)]

/-- The pieces of the items of a list from the `i`-th on. -/
def itemPieces (d : Dialect) (name : String) (w : Wildcard) (hint : Option ColumnKind)
    (position : List Nat) : Nat → List Value → List Piece
  | _, [] => []
  | i, item :: rest =>
    item.pieces d name w hint (position ++ [i]) ++
      if rest.isEmpty then [] else [.sql ","] ++ itemPieces d name w hint position (i + 1) rest

end

end Value

def BoundLiteral.isVerbatim (l : BoundLiteral) : Bool :=
  l.column.all ColumnRef.isVerbatim

def BoundLiteral.pieces (d : Dialect) (l : BoundLiteral) : List Piece :=
  match l.source with
  | .captured name =>
    if l.isVerbatim then l.given.pieces d name l.wildcard l.written.hint []
    else [.sql (l.written.sql d)]
  | _ => [.sql (l.written.sql d)]

namespace Operand

def pieces (d : Dialect) : Operand → List Piece
  | literal l => l.pieces d
  | o => [.sql (o.sql d)]

def literals : Operand → List BoundLiteral
  | literal l => [l]
  | _ => []

end Operand

def Piece.pair (left : List Piece) (between : String) (right : List Piece) (close : String) :
    List Piece :=
  [.sql "("] ++ left ++ [.sql between] ++ right ++ [.sql close]

namespace Subquery

variable {n : Nat} (schema : Schema n) (d : Dialect) (rows : Subquery n)

/-- The lines of an existence test, up to its condition. -/
def lines (joins : List JoinClause) : List String :=
  let clause := rows.clause schema d joins none
  ("SELECT 1 FROM " ++ clause.childTable ++ " " ++ clause.childAlias) ::
    clause.correlation.sql d :: joins.map (·.sql d)

def opening (joins : List JoinClause) : String :=
  "EXISTS (" ++ String.intercalate "\n" (rows.lines schema d joins) ++ "\nWHERE "

end Subquery

namespace Condition

variable {n : Nat} (schema : Schema n) (d : Dialect)

def pieces : Condition n → List Piece
  | logical op left right => Piece.pair left.pieces (" " ++ op.sql ++ " ") right.pieces ")"
  | not operand => [.sql "NOT "] ++ operand.pieces
  | truth operand invert => operand.pieces d ++ [.sql (" = " ++ d.boolLiteral !invert)]
  | comparison op left right =>
    Piece.pair (left.pieces d) (" " ++ op.sql ++ " ") (right.pieces d) ")"
  | nullTest operand test => [.sql "("] ++ (operand.pieces d ++ [.sql test]) ++ [.sql ")"]
  | like column pattern => Piece.pair [.sql (column.render d)] " LIKE " (pattern.pieces d) ")"
  | membership column items => Piece.pair [.sql (column.render d)] " IN (" (items.pieces d) "))"
  | anyWhere rows joins condition =>
    [.sql (rows.opening schema d joins)] ++ condition.pieces ++ [.sql ")"]
  | other => [.sql (other.sql schema d)]

/-- The literals of a condition, also those in subqueries. -/
def literals : Condition n → List BoundLiteral
  | logical _ left right => left.literals ++ right.literals
  | not operand => operand.literals
  | truth operand _ | nullTest operand _ => operand.literals
  | comparison _ left right => left.literals ++ right.literals
  | like _ pattern => [pattern]
  | membership _ items => [items]
  | anyWhere _ _ condition => condition.literals
  | _ => []

end Condition

theorem Value.at?_append (v : Value) (front back : List Nat) :
    v.at? (front ++ back) = (v.at? front).bind (·.at? back) := by
  induction front generalizing v with
  | nil => rfl
  | cons i front ih =>
    cases v with
    | list items =>
      simp only [List.cons_append, at?, Option.bind_assoc]
      congr 1
      funext item
      exact ih item
    | _ => rfl

section Filling

variable {d : Dialect} {b : Bindings} {name : String}

def Bindings.Holds (b : Bindings) (name : String) (position : List Nat) (v : Value) : Prop :=
  (b.get? name).bind (·.at? position) = some v

theorem Bindings.Holds.item {position : List Nat} {items : List Value}
    (holds : b.Holds name position (.list items)) {i : Nat} {item : Value}
    (found : items[i]? = some item) : b.Holds name (position ++ [i]) item := by
  simp only [Holds, Value.at?_append, ← Option.bind_assoc]
  rw [show (b.get? name).bind (·.at? position) = some (.list items) from holds]
  simp [Value.at?, found]

theorem Bindings.Holds.string? {position : List Nat} {text : String}
    (holds : b.Holds name position (.string text)) : b.string? name position = some text := by
  rw [Bindings.string?, holds]

theorem drop_cons {items rest : List Value} {item : Value} {i : Nat}
    (left : item :: rest = items.drop i) : items[i]? = some item ∧ rest = items.drop (i + 1) := by
  constructor
  · rw [← List.head?_drop, ← left, List.head?_cons]
  · rw [← List.tail_drop, ← left, List.tail_cons]

/-- With the strings in their holes, the pieces of a value are its literal. -/
theorem Value.fillAll_pieces {w : Wildcard} {hint : Option ColumnKind} {position : List Nat}
    {v : Value} (holds : b.Holds name position v) :
    Piece.fillAll d b (v.pieces d name w hint position) = v.render d w hint := by
  induction v using Value.inductionOn generalizing position with
  | list items ih =>
    -- The induction is on the items that are left, which stand in the list from the `i`-th place
    -- on.
    have written : ∀ (rest : List Value) (i : Nat), rest = items.drop i →
        Piece.fillAll d b (itemPieces d name w hint position i rest) =
          String.intercalate "," (renderItems d w hint rest) := by
      intro rest
      induction rest with
      | nil => exact fun _ _ => rfl
      | cons item rest restIh =>
        intro i left
        obtain ⟨found, others⟩ := drop_cons left
        have first := ih item (List.mem_of_getElem? found) (holds.item found)
        cases rest with
        | nil => simp [itemPieces, renderItems, first]
        | cons next rest =>
          have more := restIh (i + 1) others
          simp only [renderItems] at more ⊢
          rw [itemPieces, Piece.fillAll_append, first, String.intercalate_cons_cons, ← more]
          simp [Piece.fill, String.append_assoc]
    rw [pieces, render]
    exact written items 0 List.drop_zero.symm
  | scalar v other =>
    cases v with
    | string text =>
      simp [pieces, Piece.fill, Hole.text, Hole.string?, holds.string?, render, renderScalar,
        valueClass, ValueClass.isQuoted, Value.text]
    | list items => exact absurd rfl (other items)
    | _ => simp [pieces, Piece.fill]

/-- A captured literal has the value that is bound to its name, and it is written as it is if
nothing else is asked for. -/
structure BoundLiteral.Faithful (b : Bindings) (l : BoundLiteral) : Prop where
  given : ∀ name, l.source = .captured name → b.get? name = some l.given
  written : l.isVerbatim = true → l.written = ⟨l.given, l.wildcard, l.written.hint⟩

theorem BoundLiteral.fillAll_pieces {l : BoundLiteral} (faithful : l.Faithful b) :
    Piece.fillAll d b (l.pieces d) = l.written.sql d := by
  unfold pieces
  split
  next name source =>
    split
    next verbatim =>
      have holds : b.Holds name [] l.given := by
        simp [Bindings.Holds, faithful.given name source, Value.at?]
      rw [Value.fillAll_pieces holds, faithful.written verbatim]
      rfl
    · simp [Piece.fill]
  · simp [Piece.fill]

theorem Operand.fillAll_pieces {o : Operand} (faithful : ∀ l ∈ o.literals, l.Faithful b) :
    Piece.fillAll d b (o.pieces d) = o.sql d := by
  cases o with
  | literal l => exact BoundLiteral.fillAll_pieces (faithful l List.mem_cons_self)
  | _ => simp [pieces, Piece.fill]

theorem Piece.fillAll_pair (left right : List Piece) (between close : String) :
    fillAll d b (pair left between right close) =
      "(" ++ fillAll d b left ++ between ++ fillAll d b right ++ close := by
  simp [pair, fill, String.append_assoc]

/-- An existence test is its opening, its condition and a parenthesis. -/
theorem Subquery.opening_append {n : Nat} (schema : Schema n) (rows : Subquery n)
    (joins : List JoinClause) (sql : String) :
    rows.opening schema d joins ++ sql ++ ")" = (rows.clause schema d joins (some sql)).sql d := by
  have keyword : "\nWHERE " = "\n" ++ "WHERE " := rfl
  simp only [ExistsClause.sql, opening, lines, clause, Option.map_some, Option.toList_some]
  rw [String.intercalate_append_of_ne_nil (by simp) (by simp), String.intercalate_singleton]
  simp only [keyword, String.append_assoc]

/-- With the strings in their holes, the pieces of a condition are its text. -/
theorem Condition.fillAll_pieces {n : Nat} (schema : Schema n) {k : Condition n}
    (faithful : ∀ l ∈ k.literals, l.Faithful b) :
    Piece.fillAll d b (k.pieces schema d) = k.sql schema d := by
  induction k with
  | logical op left right leftIh rightIh =>
    simp only [literals, List.forall_mem_append] at faithful
    rw [pieces, Piece.fillAll_pair, leftIh faithful.1, rightIh faithful.2, sql]
  | not operand ih =>
    rw [pieces, Piece.fillAll_append, ih faithful, sql]
    simp [Piece.fill]
  | truth operand invert =>
    rw [pieces, Piece.fillAll_append, Operand.fillAll_pieces faithful, sql]
    simp [Piece.fill]
  | comparison op left right =>
    simp only [literals, List.forall_mem_append] at faithful
    rw [pieces, Piece.fillAll_pair, Operand.fillAll_pieces faithful.1,
      Operand.fillAll_pieces faithful.2, sql]
  | nullTest operand test =>
    simp only [pieces, Piece.fillAll_append, Operand.fillAll_pieces faithful, sql]
    simp [Piece.fill, String.append_assoc]
  | like column pattern =>
    have literal := BoundLiteral.fillAll_pieces (d := d) (faithful _ List.mem_cons_self)
    rw [pieces, Piece.fillAll_pair, literal, sql]
    simp [Piece.fill]
  | membership column items =>
    have literal := BoundLiteral.fillAll_pieces (d := d) (faithful _ List.mem_cons_self)
    rw [pieces, Piece.fillAll_pair, literal, sql]
    simp [Piece.fill]
  | anyWhere rows joins condition ih =>
    rw [pieces, Piece.fillAll_append, Piece.fillAll_append, ih faithful, sql,
      ← Subquery.opening_append]
    simp [Piece.fill]
  | _ => simp [pieces, Piece.fill]

def Piece.Bound (b : Bindings) (pieces : List Piece) : Prop :=
  ∀ h, .hole h ∈ pieces → ∃ text, h.string? b = some text

namespace Piece.Bound

theorem append {pieces pieces' : List Piece} (front : Bound b pieces) (back : Bound b pieces') :
    Bound b (pieces ++ pieces') := by
  intro h member
  exact (List.mem_append.mp member).elim (front h) (back h)

theorem sql (text : String) : Bound b [.sql text] := by
  intro h member
  simp at member

theorem pair {left right : List Piece} (first : Bound b left) (second : Bound b right)
    (between close : String) : Bound b (Piece.pair left between right close) :=
  ((((sql _).append first).append (sql _)).append second).append (sql _)

end Piece.Bound

theorem Value.bound_pieces {w : Wildcard} {hint : Option ColumnKind} {position : List Nat}
    {v : Value} (holds : b.Holds name position v) :
    Piece.Bound b (v.pieces d name w hint position) := by
  induction v using Value.inductionOn generalizing position with
  | list items ih =>
    have written : ∀ (rest : List Value) (i : Nat), rest = items.drop i →
        Piece.Bound b (itemPieces d name w hint position i rest) := by
      intro rest
      induction rest with
      | nil => exact fun _ _ _ member => absurd member List.not_mem_nil
      | cons item rest restIh =>
        intro i left
        obtain ⟨found, others⟩ := drop_cons left
        rw [itemPieces]
        refine (ih item (List.mem_of_getElem? found) (holds.item found)).append ?_
        split
        · exact fun _ member => absurd member List.not_mem_nil
        · exact (Piece.Bound.sql _).append (restIh (i + 1) others)
    exact written items 0 List.drop_zero.symm
  | scalar v other =>
    cases v with
    | string text =>
      intro h member
      obtain rfl : h = ⟨name, position, w⟩ := by simpa [pieces] using member
      exact ⟨text, holds.string?⟩
    | list items => exact absurd rfl (other items)
    | _ => exact Piece.Bound.sql _

theorem BoundLiteral.bound_pieces {l : BoundLiteral} (faithful : l.Faithful b) :
    Piece.Bound b (l.pieces d) := by
  unfold pieces
  split
  next name source =>
    split
    · have holds : b.Holds name [] l.given := by
        simp [Bindings.Holds, faithful.given name source, Value.at?]
      exact Value.bound_pieces holds
    · exact Piece.Bound.sql _
  · exact Piece.Bound.sql _

theorem Operand.bound_pieces {o : Operand} (faithful : ∀ l ∈ o.literals, l.Faithful b) :
    Piece.Bound b (o.pieces d) := by
  cases o with
  | literal l => exact BoundLiteral.bound_pieces (faithful l List.mem_cons_self)
  | _ => exact Piece.Bound.sql _

theorem Condition.bound_pieces {n : Nat} (schema : Schema n) {k : Condition n}
    (faithful : ∀ l ∈ k.literals, l.Faithful b) : Piece.Bound b (k.pieces schema d) := by
  induction k with
  | logical op left right leftIh rightIh =>
    simp only [literals, List.forall_mem_append] at faithful
    exact (leftIh faithful.1).pair (rightIh faithful.2) _ _
  | not operand ih => exact (Piece.Bound.sql _).append (ih faithful)
  | truth operand invert => exact (Operand.bound_pieces faithful).append (.sql _)
  | comparison op left right =>
    simp only [literals, List.forall_mem_append] at faithful
    exact (Operand.bound_pieces faithful.1).pair (Operand.bound_pieces faithful.2) _ _
  | nullTest operand test =>
    exact ((Piece.Bound.sql _).append ((Operand.bound_pieces faithful).append (.sql _))).append
      (.sql _)
  | like column pattern =>
    exact (Piece.Bound.sql _).pair (BoundLiteral.bound_pieces (faithful _ List.mem_cons_self)) _ _
  | membership column items =>
    exact (Piece.Bound.sql _).pair (BoundLiteral.bound_pieces (faithful _ List.mem_cons_self)) _ _
  | anyWhere rows joins condition ih =>
    exact ((Piece.Bound.sql _).append (ih faithful)).append (.sql _)
  | _ => exact Piece.Bound.sql _

end Filling

end PredicateSql
