import PredicateSql.Proofs.Quoting.Names

/-!
The pieces of a derived condition: the text between the holes closes its quotes and goes on after
each hole, and the literals are made of what is bound to their names.
-/
namespace PredicateSql

open Lowering

variable {n : Nat}

namespace Piece

/-- The pieces begin with text, but not with a quote. -/
def Resumes (pieces : List Piece) : Prop :=
  ∃ c text rest, c ≠ '\'' ∧ text.toList.head? = some c ∧ pieces = sql text :: rest ∧ Separated rest

/-- The pieces are separated when text follows them, though they may end with a hole. -/
def Part (pieces : List Piece) : Prop :=
  ∀ rest, Resumes rest → Separated (pieces ++ rest)

theorem Resumes.separated {pieces : List Piece} (h : Resumes pieces) : Separated pieces := by
  obtain ⟨_, text, rest, -, -, rfl, others⟩ := h
  exact .sql others

theorem resumes {text : String} {rest : List Piece} (others : Separated rest)
    (start : ∃ c, c ≠ '\'' ∧ text.toList.head? = some c) : Resumes ([sql text] ++ rest) := by
  obtain ⟨c, other, first⟩ := start
  exact ⟨c, text, rest, other, first, rfl, others⟩

theorem Separated.part {pieces : List Piece} (h : Separated pieces) : Part pieces :=
  fun _ resumed => h.append resumed.separated

theorem part_sql (text : String) : Part [sql text] :=
  Separated.part (.sql .nil)

theorem Part.separated_append {pieces : List Piece} (part : Part pieces) {text : String}
    (start : ∃ c, c ≠ '\'' ∧ text.toList.head? = some c) : Separated (pieces ++ [sql text]) :=
  part _ (resumes .nil start)

theorem separated_pair {left right : List Piece} {between close : String} (first : Part left)
    (second : Part right) (middle : ∃ c, c ≠ '\'' ∧ between.toList.head? = some c)
    (finish : ∃ c, c ≠ '\'' ∧ close.toList.head? = some c) :
    Separated (pair left between right close) := by
  have back := second.separated_append finish
  have front := first _ (resumes back middle)
  simpa [pair] using Separated.sql front

theorem closed_pair {left right : List Piece} {between close : String} (first : Closed left)
    (second : Closed right) (middle : Unquoted between) (finish : Unquoted close) :
    Closed (pair left between right close) := by
  have start : Unquoted "(" := by decide
  have front := ((closed_sql start.closed).append first).append (closed_sql middle.closed)
  exact (front.append second).append (closed_sql finish.closed)

end Piece

namespace Value

variable {d : Dialect} {name : String} {w : Wildcard} {hint : Option ColumnKind}

theorem closed_pieces (position : List Nat) (v : Value) :
    Piece.Closed (v.pieces d name w hint position) := by
  induction v using Value.inductionOn generalizing position with
  | list items ih =>
    have written : ∀ (rest : List Value) (i : Nat), (∀ item ∈ rest, item ∈ items) →
        Piece.Closed (itemPieces d name w hint position i rest) := by
      intro rest
      induction rest with
      | nil => exact fun _ _ _ member => absurd member List.not_mem_nil
      | cons item rest restIh =>
        intro i held
        have first := ih item (held item List.mem_cons_self) (position ++ [i])
        have others := restIh (i + 1) fun item member => held item (List.mem_cons_of_mem _ member)
        have comma : Unquoted "," := by decide
        rw [itemPieces]
        refine first.append ?_
        split
        · exact fun _ member => absurd member List.not_mem_nil
        · exact (Piece.closed_sql comma.closed).append others
    exact written items 0 fun _ member => member
  | scalar v other =>
    cases v with
    | string text => exact Piece.closed_hole _
    | list items => exact absurd rfl (other items)
    | _ => exact Piece.closed_sql (quotesClosed_render d w hint _)

theorem part_pieces (position : List Nat) (v : Value) :
    Piece.Part (v.pieces d name w hint position) := by
  induction v using Value.inductionOn generalizing position with
  | list items ih =>
    have written : ∀ (rest : List Value) (i : Nat), (∀ item ∈ rest, item ∈ items) →
        Piece.Part (itemPieces d name w hint position i rest) := by
      intro rest
      induction rest with
      | nil => exact fun _ _ => Piece.Separated.nil.part
      | cons item rest restIh =>
        intro i held after resumed
        have first := ih item (held item List.mem_cons_self) (position ++ [i])
        have others := restIh (i + 1) fun item member => held item (List.mem_cons_of_mem _ member)
        rw [itemPieces, List.append_assoc]
        split
        · exact first _ resumed
        · refine first _ ?_
          rw [List.append_assoc]
          exact Piece.resumes (others after resumed) ⟨',', by decide, rfl⟩
    exact written items 0 fun _ member => member
  | scalar v other =>
    cases v with
    | string text =>
      rintro _ ⟨c, text, rest, other, start, rfl, others⟩
      exact .hole other start (.sql others)
    | list items => exact absurd rfl (other items)
    | _ => exact Piece.part_sql _

end Value

namespace BoundLiteral

theorem closed_pieces (d : Dialect) (l : BoundLiteral) : Piece.Closed (l.pieces d) := by
  have whole := Piece.closed_sql (l.written.value.quotesClosed_render d l.written.wildcard
    l.written.hint)
  unfold pieces
  split
  · split
    · exact Value.closed_pieces _ _
    · exact whole
  · exact whole

theorem part_pieces (d : Dialect) (l : BoundLiteral) : Piece.Part (l.pieces d) := by
  unfold pieces
  split
  · split
    · exact Value.part_pieces _ _
    · exact Piece.part_sql _
  · exact Piece.part_sql _

end BoundLiteral

namespace Operand

theorem closed_pieces {d : Dialect} {o : Operand} (names : ∀ c ∈ o.column?, Unquoted (c.render d)) :
    Piece.Closed (o.pieces d) := by
  cases o with
  | column c => exact Piece.closed_sql (names c rfl).closed
  | literal l => exact l.closed_pieces d
  | nullOrEmpty c =>
    have name := (names c rfl).closed
    have words : Unquoted "(CASE WHEN " ∧ Unquoted " IS NULL OR " ∧ Unquoted " ELSE " ∧
        Unquoted " END)" := by decide
    obtain ⟨start, between, other, finish⟩ := words
    have empty : QuotesClosed " = '' THEN " := rfl
    have yes := (unquoted_boolLiteral d true).closed
    have no := (unquoted_boolLiteral d false).closed
    have tests := ((start.closed.append name).append between.closed).append name
    have choice := (((empty.append yes).append other.closed).append no).append finish.closed
    exact Piece.closed_sql (tests.append choice)

theorem part_pieces (d : Dialect) (o : Operand) : Piece.Part (o.pieces d) := by
  cases o with
  | literal l => exact l.part_pieces d
  | _ => exact Piece.part_sql _

end Operand

theorem Subquery.closed_opening {schema : Schema n} {d : Dialect} {q : Subquery n}
    {joins : List JoinClause} (plain : ∀ line ∈ q.lines schema d joins, Unquoted line) :
    QuotesClosed (q.opening schema d joins) := by
  have words : Unquoted "EXISTS (" ∧ Unquoted "\n" ∧ Unquoted "\nWHERE " := by decide
  have lines := Unquoted.intercalate words.2.1 plain
  exact (words.1.closed.append lines.closed).append words.2.2.closed

theorem Subquery.closed_clause {schema : Schema n} {d : Dialect} {q : Subquery n}
    (plain : ∀ line ∈ q.lines schema d [], Unquoted line) :
    QuotesClosed ((q.clause schema d [] none).sql d) := by
  have words : Unquoted "EXISTS (" ∧ Unquoted "\n" ∧ Unquoted ")" := by decide
  have lines := Unquoted.intercalate words.2.1 plain
  exact (words.1.closed.append lines.closed).append words.2.2.closed

theorem BinaryOp.starts_blank (op : BinaryOp) :
    ∃ c, c ≠ '\'' ∧ (" " ++ op.sql ++ " ").toList.head? = some c :=
  ⟨' ', by decide, by simp⟩

theorem nullTest?_starts_blank {op : BinaryOp} {test : String} (known : nullTest? op = some test) :
    ∃ c, c ≠ '\'' ∧ test.toList.head? = some c := by
  cases op <;> cases known <;> exact ⟨' ', by decide, rfl⟩

theorem unmarked_nullTest? {op : BinaryOp} {test : String} (known : nullTest? op = some test) :
    Unmarked test := by
  cases op <;> cases known <;> decide

section Lowering

variable {context : LoweringContext n}

/-- After each hole of a derived condition its text goes on. -/
theorem Lowers.separated {origin : Origin n} {e : Expr} {s t : Progress} {k : Condition n}
    (h : Lowers context origin e s k t) :
    Piece.Separated (k.pieces context.schema context.dialect) := by
  have close : ∃ c, c ≠ '\'' ∧ ")".toList.head? = some c := ⟨')', by decide, rfl⟩
  induction h with
  | logical _ _ _ first second =>
    exact Piece.separated_pair first.part second.part (BinaryOp.starts_blank _) close
  | comparison =>
    exact Piece.separated_pair (Operand.part_pieces _ _) (Operand.part_pieces _ _)
      (BinaryOp.starts_blank _) close
  | nullTest _ tested =>
    have test := nullTest?_starts_blank (nullTested?_some tested).1
    exact .sql (((Operand.part_pieces _ _).separated_append test).append (.sql .nil))
  | inverted => exact (Operand.part_pieces _ _).separated_append ⟨' ', by decide, by simp⟩
  | truth => exact (Operand.part_pieces _ _).separated_append ⟨' ', by decide, by simp⟩
  | not _ _ inner => exact .sql inner
  | convert _ inner => exact inner
  | like =>
    exact Piece.separated_pair (Piece.part_sql _) (BoundLiteral.part_pieces _ _)
      ⟨' ', by decide, rfl⟩ close
  | membership =>
    exact Piece.separated_pair (Piece.part_sql _) (BoundLiteral.part_pieces _ _)
      ⟨' ', by decide, rfl⟩ ⟨')', by decide, rfl⟩
  | anyWhere _ _ _ inner => exact .sql (inner.append (.sql .nil))
  | _ => exact .sql .nil

theorem Operand.closed_bound {b : BindingContext} {c : Option ColumnRef} {o o' : Operand}
    (names : ∀ c ∈ o.column?, Unquoted (c.render context.dialect)) (bound : o.bind b c = .ok o') :
    Piece.Closed (o'.pieces context.dialect) :=
  closed_pieces (bind_column? bound ▸ names)

theorem Operand.closed_truth {o : Operand}
    (names : ∀ c ∈ o.column?, Unquoted (c.render context.dialect)) (invert : Bool) :
    Piece.Closed (o.pieces context.dialect ++
      [.sql (" = " ++ context.dialect.boolLiteral !invert)]) := by
  have sign : Unquoted " = " := by decide
  refine (closed_pieces names).append (Piece.closed_sql ?_)
  exact sign.closed.append (unquoted_boolLiteral _ _).closed

theorem BinaryOp.unmarked_between (op : BinaryOp) : Unmarked (" " ++ op.sql ++ " ") := by
  cases op <;> decide

theorem isOneLiteral_emptyListLiteral (c : ColumnRef) :
    IsOneLiteral (emptyListLiteral context c) := by
  unfold emptyListLiteral
  split
  · exact isOneLiteral_stringLiteral _ _
  · decide

theorem balanced_emptyListLiteral (c : ColumnRef) : Balanced (emptyListLiteral context c) :=
  (isOneLiteral_emptyListLiteral c).balanced

/-- If no quote is in the names, the text of a derived condition closes its quotes. -/
theorem Lowers.closed {origin : Origin n} {e : Expr} {s t : Progress} {k : Condition n}
    (h : Lowers context origin e s k t) (names : context.PlainNames)
    (start : s.IsPlain context.dialect) (outer : Unquoted origin.qualifier) :
    t.IsPlain context.dialect ∧ Piece.Closed (k.pieces context.schema context.dialect) := by
  have opening : QuotesClosed "(" := rfl
  have close : Unquoted ")" := by decide
  induction h with
  | logical _ _ _ firstIh secondIh =>
    obtain ⟨between, first⟩ := firstIh start outer
    obtain ⟨reached, second⟩ := secondIh between outer
    exact ⟨reached, Piece.closed_pair first second (BinaryOp.unmarked_between _).unquoted close⟩
  | comparison _ _ leftRead rightRead leftBound rightBound =>
    obtain ⟨between, left⟩ := readOperand_unquoted names start outer leftRead
    obtain ⟨reached, right⟩ := readOperand_unquoted names between outer rightRead
    exact ⟨reached, Piece.closed_pair (Operand.closed_bound left leftBound)
      (Operand.closed_bound right rightBound) (BinaryOp.unmarked_between _).unquoted close⟩
  | nullTest _ tested read =>
    obtain ⟨reached, column⟩ := readOperand_unquoted names start outer read
    have test := (unmarked_nullTest? (nullTested?_some tested).1).unquoted
    have inner := (Operand.closed_pieces column).append (Piece.closed_sql test.closed)
    exact ⟨reached,
      ((Piece.closed_sql opening).append inner).append (Piece.closed_sql close.closed)⟩
  | inverted boolean run =>
    have read := readOperand_of_readBoolean? context boolean run
    obtain ⟨reached, column⟩ := readOperand_unquoted names start outer read
    exact ⟨reached, Operand.closed_truth column true⟩
  | truth _ boolean run =>
    have read := readOperand_of_readBoolean? context boolean run
    obtain ⟨reached, column⟩ := readOperand_unquoted names start outer read
    exact ⟨reached, Operand.closed_truth column false⟩
  | not _ _ ih =>
    obtain ⟨reached, inner⟩ := ih start outer
    have word : QuotesClosed "NOT " := rfl
    exact ⟨reached, (Piece.closed_sql word).append inner⟩
  | convert _ ih => exact ih start outer
  | like _ _ column =>
    obtain ⟨reached, name⟩ := resolveColumn_unquoted names start outer column
    exact ⟨reached, Piece.closed_pair (Piece.closed_sql name.closed)
      (BoundLiteral.closed_pieces _ _) (by decide) close⟩
  | membership _ _ _ column =>
    obtain ⟨reached, name⟩ := resolveColumn_unquoted names start outer column
    exact ⟨reached, Piece.closed_pair (Piece.closed_sql name.closed)
      (BoundLiteral.closed_pieces _ _) (by decide) (by decide)⟩
  | emptyMembership _ _ _ column =>
    obtain ⟨reached, name⟩ := resolveColumn_unquoted names start outer column
    have between : QuotesClosed " IN (" := rfl
    have finish : QuotesClosed "))" := rfl
    have front := (opening.append name.closed).append between
    exact ⟨reached, Piece.closed_sql
      ((front.append (balanced_emptyListLiteral _).closed).append finish)⟩
  | hasValue _ column =>
    obtain ⟨reached, name⟩ := resolveColumn_unquoted names start outer column
    have finish : QuotesClosed " IS NOT NULL)" := rfl
    exact ⟨reached, Piece.closed_sql ((opening.append name.closed).append finish)⟩
  | any _ rows =>
    obtain ⟨reached, -, lines⟩ := subquery_unquoted names start outer rows
    exact ⟨reached, Piece.closed_sql (Subquery.closed_clause (lines [] nofun))⟩
  | anyWhere _ rows _ ih =>
    obtain ⟨reached, child, lines⟩ := subquery_unquoted names start outer rows
    obtain ⟨within, inner⟩ := ih nofun child
    have front := Piece.closed_sql (Subquery.closed_opening (lines _ within))
    exact ⟨reached, (front.append inner).append (Piece.closed_sql close.closed)⟩

end Lowering

end PredicateSql
