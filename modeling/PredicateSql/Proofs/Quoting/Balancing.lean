import PredicateSql.Proofs.Quoting.Closing

/-!
The texts of conditions are balanced, whatever is in their literals, as long as no mark is in the
names. A condition may begin and end with parentheses that are no pair, or have none at all.
-/
namespace PredicateSql

variable {n : Nat}

theorem Operand.balanced_sql {d : Dialect} {o : Operand}
    (names : ∀ c ∈ o.column?, Unmarked (c.render d)) :
    Balanced (o.sql d) := by
  cases o with
  | column c => exact (names c rfl).balanced
  | literal l => exact Value.balanced_render d _ _ _
  | nullOrEmpty c =>
    have name := (names c rfl).balanced
    have words : Unmarked "CASE WHEN " ∧ Unmarked " IS NULL OR " ∧ Unmarked " ELSE " ∧
        Unmarked " END" := by decide
    obtain ⟨start, between, other, finish⟩ := words
    have empty : Balanced " = '' THEN " := by decide
    have yes := (unmarked_boolLiteral d true).balanced
    have no := (unmarked_boolLiteral d false).balanced
    have tests := ((start.balanced.append name).append between.balanced).append name
    have choice := (((empty.append yes).append other.balanced).append no).append finish.balanced
    have opening : "(CASE WHEN " = "(" ++ "CASE WHEN " := rfl
    have closing : " END)" = " END" ++ ")" := rfl
    have whole := (tests.append choice).enclosed
    rw [sql, opening, closing]
    simpa only [String.append_assoc] using whole

/-- Two texts in parentheses, with an operator between them. -/
theorem Balanced.pair {a b between : String} (left : Balanced a) (right : Balanced b)
    (middle : Unmarked between) : Balanced ("(" ++ a ++ between ++ b ++ ")") := by
  have whole := ((left.append middle.balanced).append right).enclosed
  simpa only [String.append_assoc] using whole

/-- A name and a list in parentheses. -/
theorem balanced_membership {name items : String} (column : Unmarked name) (list : Balanced items) :
    Balanced ("(" ++ name ++ " IN (" ++ items ++ "))") := by
  have word : Unmarked " IN " := by decide
  have opening : " IN (" = " IN " ++ "(" := rfl
  have closing : "))" = ")" ++ ")" := rfl
  have whole := ((column.balanced.append word.balanced).append list.enclosed).enclosed
  rw [opening, closing]
  simpa only [String.append_assoc] using whole

/-- A test for existence, whose condition is balanced if there is one. -/
theorem Subquery.balanced_clause {schema : Schema n} {d : Dialect} {q : Subquery n}
    {joins : List JoinClause} (lines : ∀ line ∈ q.lines schema d joins, Unmarked line)
    {text : Option String} (condition : ∀ sql ∈ text, Balanced sql) :
    Balanced ((q.clause schema d joins text).sql d) := by
  have words : Unmarked "EXISTS " ∧ Unmarked "\n" ∧ Unmarked "WHERE " := by decide
  obtain ⟨keyword, line, where'⟩ := words
  have all : ∀ text' ∈ q.lines schema d joins ++ (text.map ("WHERE " ++ ·)).toList,
      Balanced text' := by
    intro text' member
    rcases List.mem_append.mp member with name | inner
    · exact (lines text' name).balanced
    · obtain ⟨sql, given, rfl⟩ := Option.map_eq_some_iff.mp (Option.mem_toList.mp inner)
      exact where'.balanced.append (condition sql given)
  have opening : "EXISTS (" = "EXISTS " ++ "(" := rfl
  have shape : (q.clause schema d joins text).sql d = "EXISTS " ++ ("(" ++ String.intercalate "\n"
      (q.lines schema d joins ++ (text.map ("WHERE " ++ ·)).toList) ++ ")") := by
    rw [ExistsClause.sql, opening, String.append_assoc, String.append_assoc]
    rfl
  rw [shape]
  exact keyword.balanced.append (Balanced.intercalate line.balanced all).enclosed

section Lowering

variable {context : LoweringContext n} {origin : Origin n} {s t : Progress}

def LoweringContext.UnmarkedNames (context : LoweringContext n) : Prop :=
  ∀ mark ∈ marks, context.NamesLack mark

def Progress.IsUnmarked (d : Dialect) (s : Progress) : Prop :=
  ∀ mark ∈ marks, s.JoinsLack mark d

section Names

variable (names : context.UnmarkedNames) (start : s.IsUnmarked context.dialect)
  (outer : Unmarked origin.qualifier)

include names start outer

theorem resolveColumn_unmarked {path : MemberPath} {c : ColumnRef}
    (run : resolveColumn context origin path s = (.ok c, t)) :
    t.IsUnmarked context.dialect ∧ Unmarked (c.render context.dialect) := by
  have each := fun mark isMark =>
    resolveColumn_lacks isMark (names mark isMark) (start mark isMark) (outer mark isMark) run
  exact ⟨fun mark isMark => (each mark isMark).1, fun mark isMark => (each mark isMark).2⟩

theorem readOperand_unmarked {e : Expr} {o : Operand}
    (run : readOperand context origin e s = (.ok o, t)) :
    t.IsUnmarked context.dialect ∧ ∀ c ∈ o.column?, Unmarked (c.render context.dialect) := by
  have each := fun mark isMark =>
    readOperand_lacks isMark (names mark isMark) (start mark isMark) (outer mark isMark) run
  exact ⟨fun mark isMark => (each mark isMark).1,
    fun c column mark isMark => (each mark isMark).2 c column⟩

theorem subquery_unmarked {path : MemberPath} {q : Subquery n}
    (run : subquery context origin path s = (.ok q, t)) :
    t.IsUnmarked context.dialect ∧ Unmarked q.childAlias ∧ ∀ joins : List JoinClause,
      (∀ mark ∈ marks, ∀ join ∈ joins, join.TextLacks mark context.dialect) →
        ∀ line ∈ q.lines context.schema context.dialect joins, Unmarked line := by
  have each := fun mark isMark =>
    subquery_lacks isMark (names mark isMark) (start mark isMark) (outer mark isMark) run
  exact ⟨fun mark isMark => (each mark isMark).1, fun mark isMark => (each mark isMark).2.1,
    fun joins plain line member mark isMark =>
      (each mark isMark).2.2 joins (plain mark isMark) line member⟩

end Names

theorem Operand.balanced_bound {b : BindingContext} {c : Option ColumnRef} {o o' : Operand}
    (names : ∀ c ∈ o.column?, Unmarked (c.render context.dialect)) (bound : o.bind b c = .ok o') :
    Balanced (o'.sql context.dialect) :=
  balanced_sql (bind_column? bound ▸ names)

theorem Operand.balanced_truth {o : Operand}
    (names : ∀ c ∈ o.column?, Unmarked (c.render context.dialect)) (invert : Bool) :
    Balanced (o.sql context.dialect ++ (" = " ++ context.dialect.boolLiteral !invert)) := by
  have sign : Unmarked " = " := by decide
  exact (balanced_sql names).append
    (sign.balanced.append (unmarked_boolLiteral _ _).balanced)

/-- If no mark is in the names, the text of a derived condition is balanced. -/
theorem Lowers.balanced {e : Expr} {k : Condition n} (h : Lowers context origin e s k t)
    (names : context.UnmarkedNames) (start : s.IsUnmarked context.dialect)
    (outer : Unmarked origin.qualifier) :
    t.IsUnmarked context.dialect ∧ Balanced (k.sql context.schema context.dialect) := by
  induction h with
  | logical _ _ _ firstIh secondIh =>
    obtain ⟨between, first⟩ := firstIh start outer
    obtain ⟨reached, second⟩ := secondIh between outer
    exact ⟨reached, first.pair second (BinaryOp.unmarked_between _)⟩
  | comparison _ _ leftRead rightRead leftBound rightBound =>
    obtain ⟨between, left⟩ := readOperand_unmarked names start outer leftRead
    obtain ⟨reached, right⟩ := readOperand_unmarked names between outer rightRead
    exact ⟨reached, (Operand.balanced_bound left leftBound).pair
      (Operand.balanced_bound right rightBound) (BinaryOp.unmarked_between _)⟩
  | nullTest _ tested read =>
    obtain ⟨reached, column⟩ := readOperand_unmarked names start outer read
    have test := unmarked_nullTest? (nullTested?_some tested).1
    have whole := ((Operand.balanced_sql column).append test.balanced).enclosed
    exact ⟨reached, by simpa only [Condition.sql, String.append_assoc] using whole⟩
  | inverted boolean run =>
    have read := readOperand_of_readBoolean? context boolean run
    obtain ⟨reached, column⟩ := readOperand_unmarked names start outer read
    exact ⟨reached, Operand.balanced_truth column true⟩
  | truth _ boolean run =>
    have read := readOperand_of_readBoolean? context boolean run
    obtain ⟨reached, column⟩ := readOperand_unmarked names start outer read
    exact ⟨reached, Operand.balanced_truth column false⟩
  | not _ _ ih =>
    obtain ⟨reached, inner⟩ := ih start outer
    have word : Unmarked "NOT " := by decide
    exact ⟨reached, word.balanced.append inner⟩
  | convert _ ih => exact ih start outer
  | like _ _ column =>
    obtain ⟨reached, name⟩ := resolveColumn_unmarked names start outer column
    exact ⟨reached, name.balanced.pair (Value.balanced_render _ _ _ _) (by decide)⟩
  | membership _ _ _ column =>
    obtain ⟨reached, name⟩ := resolveColumn_unmarked names start outer column
    exact ⟨reached, balanced_membership name (Value.balanced_render _ _ _ _)⟩
  | emptyMembership _ _ _ column =>
    obtain ⟨reached, name⟩ := resolveColumn_unmarked names start outer column
    exact ⟨reached, balanced_membership name (balanced_emptyListLiteral _)⟩
  | hasValue _ column =>
    obtain ⟨reached, name⟩ := resolveColumn_unmarked names start outer column
    have word : Unmarked " IS NOT NULL" := by decide
    have closing : " IS NOT NULL)" = " IS NOT NULL" ++ ")" := rfl
    have whole := (name.balanced.append word.balanced).enclosed
    refine ⟨reached, ?_⟩
    rw [Condition.sql, closing]
    simpa only [String.append_assoc] using whole
  | any _ rows =>
    obtain ⟨reached, -, lines⟩ := subquery_unmarked names start outer rows
    have plain := lines [] fun _ _ _ member => absurd member List.not_mem_nil
    exact ⟨reached, Subquery.balanced_clause plain fun _ given =>
      absurd given (Option.not_mem_none _)⟩
  | anyWhere _ rows _ ih =>
    obtain ⟨reached, child, lines⟩ := subquery_unmarked names start outer rows
    obtain ⟨within, inner⟩ := ih (fun _ _ _ member => absurd member List.not_mem_nil) child
    refine ⟨reached, Subquery.balanced_clause (lines _ within) ?_⟩
    intro sql given
    obtain rfl := Option.mem_some_iff.mp given
    exact inner

end Lowering
end PredicateSql
