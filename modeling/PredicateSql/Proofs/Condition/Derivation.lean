import PredicateSql.Proofs.Condition.Written

/-!
The lowering of predicates as a relation between an expression and the condition it becomes, one
rule for each kind of expression. A predicate is lowered successfully exactly when a condition can
be derived, and what it writes are the pieces of that condition.
-/
namespace PredicateSql

open Lowering

variable {n : Nat}

/-- Where the pattern of a method is open, for the methods that match a pattern. -/
def Method.wildcard? : Method → Option Wildcard
  | .contains => some .both
  | .startsWith => some .trailing
  | .endsWith => some .leading
  | _ => none

/-- Every pattern is open at some end. -/
theorem Method.wildcard?_ne_none {method : Method} {w : Wildcard}
    (opening : method.wildcard? = some w) :
    w ≠ .none := by
  cases method <;> cases opening <;> decide

/-- `Lowers context origin e s c t` says that the expression becomes the condition `c`, with the
joins, aliases and enumerations of `s` before and those of `t` after. Buffers play no part. -/
inductive Lowers (context : LoweringContext n) :
    Origin n → Expr → Progress → Condition n → Progress → Prop
  | logical {origin op left right s u t l r} (connective : op.isLogical = true)
      (first : Lowers context origin left s l u) (second : Lowers context origin right u r t) :
      Lowers context origin (.binary op left right) s (.logical op l r) t
  | comparison {origin op left right s u t l r l' r'} (comparator : op.isLogical = false)
      (untested : nullTested? context op left right = .ok none)
      (leftRead : readOperand context origin left s = (.ok l, u))
      (rightRead : readOperand context origin right u = (.ok r, t))
      (leftBound : l.bind ⟨t.enums, context.settings⟩ (l.column?.or r.column?) = .ok l')
      (rightBound : r.bind ⟨t.enums, context.settings⟩ (l.column?.or r.column?) = .ok r') :
      Lowers context origin (.binary op left right) s (.comparison op l' r') t
  | nullTest {origin op left right s t test e o} (comparator : op.isLogical = false)
      (tested : nullTested? context op left right = .ok (some (test, e)))
      (read : readOperand context origin e s = (.ok o, t)) :
      Lowers context origin (.binary op left right) s (.nullTest o test) t
  | inverted {origin e s t read o} (boolean : readBoolean? context origin e = some read)
      (run : read s = (.ok o, t)) : Lowers context origin (.not e) s (.truth o true) t
  | not {origin e s t c} (compound : readBoolean? context origin e = none)
      (inner : Lowers context origin e s c t) : Lowers context origin (.not e) s (.not c) t
  | convert {origin e s t c} (inner : Lowers context origin e s c t) :
      Lowers context origin (.convert e) s c t
  | truth {origin e s t read o} (plain : e.strip = e)
      (boolean : readBoolean? context origin e = some read) (run : read s = (.ok o, t)) :
      Lowers context origin e s (.truth o false) t
  | like {origin method w receiver path pattern s t c v l} (opening : method.wildcard? = some w)
      (member : receiver.map Expr.strip = some (.member path))
      (column : resolveColumn context origin path s = (.ok c, t)) (textual : c.isTextual = true)
      (value : literal context pattern = .ok v)
      (bound : bindLiteral ⟨t.enums, context.settings⟩ c v w = .ok l) :
      Lowers context origin (.call method receiver [pattern]) s
        (.like c ⟨pattern.strip, v, w, some c, l⟩) t
  | membership {origin receiver source arg path items s t c l}
      (collection : receiver.map Expr.strip = some source)
      (value : literal context source = .ok (.list items)) (member : arg.strip = .member path)
      (column : resolveColumn context origin path s = (.ok c, t)) (nonempty : items ≠ [])
      (bound : bindLiteral ⟨t.enums, context.settings⟩ c (.list items) .none = .ok l) :
      Lowers context origin (.call .contains receiver [arg]) s
        (.membership c ⟨source, .list items, .none, some c, l⟩) t
  | emptyMembership {origin receiver source arg path s t c}
      (collection : receiver.map Expr.strip = some source)
      (value : literal context source = .ok (.list [])) (member : arg.strip = .member path)
      (column : resolveColumn context origin path s = (.ok c, t)) :
      Lowers context origin (.call .contains receiver [arg]) s
        (.emptyMembership c (emptyListLiteral context c)) t
  | hasValue {origin receiver path s t c}
      (member : receiver.map Expr.strip = some (.member path))
      (column : resolveColumn context origin path s = (.ok c, t)) :
      Lowers context origin (.call .hasValue receiver []) s (.hasValue c) t
  | any {origin receiver path s t q}
      (collection : receiver.map Expr.strip = some (.member path))
      (rows : subquery context origin path s = (.ok q, t)) :
      Lowers context origin (.call .any receiver []) s (.any q) t
  | anyWhere {origin receiver path e s u v q c}
      (collection : receiver.map Expr.strip = some (.member path))
      (rows : subquery context origin path s = (.ok q, u))
      (inner : Lowers context q.child e { u with joins := [] } c v) :
      Lowers context origin (.call .any receiver [e]) s (.anyWhere q v.joins c)
        { v with joins := u.joins }

namespace Lowers

variable {context : LoweringContext n} {origin : Origin n} {e : Expr} {s t : Progress}
  {c : Condition n}

/-- A derivation can be moved to any buffer. -/
theorem withBuffer (h : Lowers context origin e s c t) (b : TokenBuffer) :
    Lowers context origin e (s.withBuffer b) c (t.withBuffer b) := by
  have operand := fun {origin} e => readOperand_silent context origin e
  have column := fun {origin} path => resolveColumn_silent context origin path
  induction h with
  | logical connective _ _ first second => exact .logical connective first second
  | comparison comparator untested leftRead rightRead leftBound rightBound =>
    exact .comparison comparator untested ((operand _).ok leftRead b) ((operand _).ok rightRead b)
      leftBound rightBound
  | nullTest comparator tested read => exact .nullTest comparator tested ((operand _).ok read b)
  | inverted boolean run =>
    exact .inverted boolean ((readBoolean?_silent context _ _ _ boolean).ok run b)
  | not compound _ inner => exact .not compound inner
  | convert _ inner => exact .convert inner
  | truth plain boolean run =>
    exact .truth plain boolean ((readBoolean?_silent context _ _ _ boolean).ok run b)
  | like opening member run textual value bound =>
    exact .like opening member ((column _).ok run b) textual value bound
  | membership collection value member run nonempty bound =>
    exact .membership collection value member ((column _).ok run b) nonempty bound
  | emptyMembership collection value member run =>
    exact .emptyMembership collection value member ((column _).ok run b)
  | hasValue member run => exact .hasValue member ((column _).ok run b)
  | any collection rows => exact .any collection ((subquery_silent context _ _).ok rows b)
  | anyWhere collection rows _ inner =>
    exact .anyWhere collection ((subquery_silent context _ _).ok rows b) inner

/-- A derivation leaves the buffer as it is. -/
theorem buffer_eq (h : Lowers context origin e s c t) : t.buffer = s.buffer := by
  have operand := fun {origin} e => readOperand_silent context origin e
  have column := fun {origin} path => resolveColumn_silent context origin path
  induction h with
  | logical _ _ _ first second => exact second.trans first
  | comparison _ _ leftRead rightRead =>
    exact ((operand _).buffer_eq rightRead).trans ((operand _).buffer_eq leftRead)
  | nullTest _ _ read => exact (operand _).buffer_eq read
  | inverted boolean run => exact (readBoolean?_silent context _ _ _ boolean).buffer_eq run
  | not _ _ inner => exact inner
  | convert _ inner => exact inner
  | truth _ boolean run => exact (readBoolean?_silent context _ _ _ boolean).buffer_eq run
  | like _ _ run => exact (column _).buffer_eq run
  | membership _ _ _ run => exact (column _).buffer_eq run
  | emptyMembership _ _ _ run => exact (column _).buffer_eq run
  | hasValue _ run => exact (column _).buffer_eq run
  | any _ rows => exact (subquery_silent context _ _).buffer_eq rows
  | anyWhere _ rows _ inner =>
    have outer := (subquery_silent context _ _).buffer_eq rows
    exact Eq.trans inner outer

/-- What is derived after some pieces were written is what is derived before. -/
theorem write_iff {ts : List Token} :
    Lowers context origin e (s.write ts) c t ↔
      ∃ u, Lowers context origin e s c u ∧ u.write ts = t := by
  constructor
  · intro h
    refine ⟨t.withBuffer s.buffer, h.withBuffer s.buffer, ?_⟩
    have kept : t.buffer = ⟨s.buffer.tokens ++ ts⟩ := h.buffer_eq
    rw [Progress.write, Progress.withBuffer_buffer, ← kept, Progress.withBuffer_withBuffer,
      Progress.withBuffer_self]
  · rintro ⟨u, h, rfl⟩
    rw [Progress.write, Progress.write, h.buffer_eq]
    exact h.withBuffer _

end Lowers

section Handlers

variable (context : LoweringContext n) {origin : Origin n} {receiver : Option Expr}
  {args : List Expr} {s t : Progress} {x : Unit}

theorem singleArg_ok {method : Method} {arg : Expr} :
    singleArg method args = .ok arg ↔ args = [arg] := by
  rcases args with _ | ⟨e, _ | ⟨e', rest⟩⟩ <;> simp [singleArg]

theorem anyPath_ok {path : MemberPath} :
    anyPath receiver = .ok path ↔ receiver.map Expr.strip = some (.member path) := by
  cases source : receiver.map Expr.strip with
  | none => simp [anyPath, source]
  | some e => cases e <;> simp [anyPath, source]

/-- A successful match of a pattern is an instance of its rule. -/
theorem like_lowers {method : Method} {w : Wildcard} {path : MemberPath} {c : ColumnRef}
    {pattern : Expr} {u : Progress} (opening : method.wildcard? = some w)
    (member : receiver.map Expr.strip = some (.member path))
    (column : resolveColumn context origin path s = (.ok c, u))
    (run : like context method c pattern w u = (.ok x, t)) :
    ∃ c u, Lowers context origin (.call method receiver [pattern]) s c u ∧
      u.write (c.tokens context.schema context.dialect) = t := by
  obtain ⟨textual, v, l, value, bound, rfl⟩ := (like_ok context).mp run
  exact ⟨_, u, .like opening member column textual value bound, rfl⟩

/-- A successful test of membership is an instance of one of its two rules. -/
theorem inCollection_lowers {source arg : Expr}
    (collection : receiver.map Expr.strip = some source)
    (run : inCollection context origin source arg s = (.ok x, t)) :
    ∃ c u, Lowers context origin (.call .contains receiver [arg]) s c u ∧
      u.write (c.tokens context.schema context.dialect) = t := by
  obtain ⟨v, _, evaluated, run⟩ := bind_ok.mp run
  obtain ⟨value, rfl⟩ := attempt_ok.mp evaluated
  cases v with
  | list items =>
    cases member : arg.strip with
    | member path =>
      simp only [member] at run
      obtain ⟨c, u, column, run⟩ := bind_ok.mp run
      rcases (membership_ok context).mp run with ⟨rfl, rfl⟩ | ⟨nonempty, l, bound, rfl⟩
      · exact ⟨_, u, .emptyMembership collection value member column, rfl⟩
      · exact ⟨_, u, .membership collection value member column nonempty bound, rfl⟩
    | _ =>
      simp only [member] at run
      exact absurd run reject_ok
  | _ => exact absurd run reject_ok

theorem containsCall_lowers
    (run : containsCall context origin receiver args s = (.ok x, t)) :
    ∃ c u, Lowers context origin (.call .contains receiver args) s c u ∧
      u.write (c.tokens context.schema context.dialect) = t := by
  obtain ⟨arg, _, attempted, rest⟩ := bind_ok.mp run
  obtain ⟨single, rfl⟩ := attempt_ok.mp attempted
  obtain rfl := singleArg_ok.mp single
  cases source : receiver.map Expr.strip with
  | none =>
    simp only [source] at rest
    exact absurd rest reject_ok
  | some e =>
    simp only [source] at rest
    cases e with
    | member path =>
      obtain ⟨c, u, column, matched⟩ := bind_ok.mp rest
      exact like_lowers context rfl source column matched
    | constant value => exact inCollection_lowers context source rest
    | captured name => exact inCollection_lowers context source rest
    | _ => exact absurd rest reject_ok

theorem affixCall_lowers {method : Method} {w : Wildcard} (opening : method.wildcard? = some w)
    (run : affixCall context origin method w receiver args s = (.ok x, t)) :
    ∃ c u, Lowers context origin (.call method receiver args) s c u ∧
      u.write (c.tokens context.schema context.dialect) = t := by
  obtain ⟨c, u, column, rest⟩ := bind_ok.mp run
  obtain ⟨path, member, column⟩ := (memberOperand_ok context).mp column
  obtain ⟨arg, _, attempted, matched⟩ := bind_ok.mp rest
  obtain ⟨single, rfl⟩ := attempt_ok.mp attempted
  obtain rfl := singleArg_ok.mp single
  exact like_lowers context opening member column matched

end Handlers

variable (context : LoweringContext n)

theorem booleanOperand?_eq_some {origin : Origin n} {e : Expr} {write : Lowering Unit}
    (operand : booleanOperand? context origin e = some write) :
    ∃ read, readBoolean? context origin e = some read ∧ Writes context.dialect write read := by
  rcases booleanOperand?_writes context origin e with ⟨none, -⟩ | ⟨_, read, same, boolean, writes⟩
  · rw [operand] at none
    cases none
  · obtain rfl := Option.some.inj (operand.symm.trans same)
    exact ⟨read, boolean, writes⟩

/-- What a predicate has written if it is lowered successfully. -/
def Derives (e : Expr) (origin : Origin n) (s t : Progress) : Prop :=
  ∃ c u, Lowers context origin e s c u ∧ u.write (c.tokens context.schema context.dialect) = t

theorem Derives.of_write {context : LoweringContext n} {e : Expr} {origin : Origin n}
    {s t : Progress} {ts : List Token} (h : Derives context e origin (s.write ts) t) :
    ∃ c u, Lowers context origin e s c u ∧
      u.write (ts ++ c.tokens context.schema context.dialect) = t := by
  obtain ⟨c, _, later, rfl⟩ := h
  obtain ⟨u, derived, rfl⟩ := Lowers.write_iff.mp later
  exact ⟨c, u, derived, by rw [Progress.write_write]⟩

/-- Boolean operands are written with their test. -/
theorem truth_derives {e : Expr} {origin : Origin n} {s t : Progress} {write : Lowering Unit}
    (plain : e.strip = e) (operand : booleanOperand? context origin e = some write)
    (run : (do write; push (.bool false)) s = (.ok (), t)) : Derives context e origin s t := by
  obtain ⟨read, boolean, writes⟩ := booleanOperand?_eq_some context operand
  obtain ⟨_, _, written, tested⟩ := bind_ok.mp run
  obtain ⟨o, u, reading, rfl⟩ := (writes _ _).mp written
  refine ⟨_, u, .truth plain boolean reading, ?_⟩
  rw [← push_ok.mp tested, Progress.write_write]
  rfl

/-- Two predicates with an operator between them. -/
theorem logical_derives {op : BinaryOp} {left right : Expr} {origin : Origin n} {s t : Progress}
    (connective : op.isLogical = true)
    (leftIh : ∀ {s t}, predicate context left origin s = (.ok (), t) →
      Derives context left origin s t)
    (rightIh : ∀ {s t}, predicate context right origin s = (.ok (), t) →
      Derives context right origin s t)
    (run : predicate context (.binary op left right) origin s = (.ok (), t)) :
    Derives context (.binary op left right) origin s t := by
  simp only [predicate, connective, if_true] at run
  obtain ⟨_, _, marked, run⟩ := bind_ok.mp run
  obtain ⟨rfl, rfl⟩ := mark_ok.mp marked
  obtain ⟨_, _, opened, run⟩ := bind_ok.mp run
  obtain rfl := pushSql_ok.mp opened
  obtain ⟨_, _, first, run⟩ := bind_ok.mp run
  obtain ⟨l, u, leftLowers, rfl⟩ := (leftIh first).of_write
  obtain ⟨_, _, between, run⟩ := bind_ok.mp run
  obtain rfl := pushSql_ok.mp between
  rw [Progress.write_write] at run
  obtain ⟨_, _, second, run⟩ := bind_ok.mp run
  obtain ⟨r, v, rightLowers, rfl⟩ := (rightIh second).of_write
  obtain ⟨_, _, closed, collapsed⟩ := bind_ok.mp run
  obtain rfl := pushSql_ok.mp closed
  rw [Progress.write_write, ← leftLowers.buffer_eq, ← rightLowers.buffer_eq] at collapsed
  exact ⟨_, v, .logical connective leftLowers rightLowers, collapseBooleans_write_ok.mp collapsed⟩

theorem comparison_derives {op : BinaryOp} {left right : Expr} {origin : Origin n}
    {s t : Progress} (comparator : op.isLogical = false)
    (run : comparison context origin op left right s = (.ok (), t)) :
    Derives context (.binary op left right) origin s t := by
  rcases tested : nullTested? context op left right with e | _ | ⟨test, e⟩
  · simp only [comparison, tested] at run
    obtain ⟨_, _, -, run⟩ := bind_ok.mp run
    obtain ⟨_, _, -, run⟩ := bind_ok.mp run
    obtain ⟨_, _, failed, -⟩ := bind_ok.mp run
    cases (attempt_ok.mp failed).1
  · obtain ⟨l, u, r, v, l', r', leftRead, rightRead, leftBound, rightBound, rfl⟩ :=
      (comparison_pair_ok context tested).mp run
    exact ⟨_, v, .comparison comparator tested leftRead rightRead leftBound rightBound, rfl⟩
  · obtain ⟨o, u, read, rfl⟩ := (comparison_nullTest_ok context tested).mp run
    exact ⟨_, u, .nullTest comparator tested read, rfl⟩

theorem not_derives {e : Expr} {origin : Origin n} {s t : Progress}
    (ih : ∀ {s t}, predicate context e origin s = (.ok (), t) → Derives context e origin s t)
    (run : predicate context (.not e) origin s = (.ok (), t)) :
    Derives context (.not e) origin s t := by
  rcases booleanOperand?_writes context origin e with ⟨written, boolean⟩ |
    ⟨write, read, written, boolean, writes⟩
  · simp only [predicate, written] at run
    obtain ⟨_, _, pushed, run⟩ := bind_ok.mp run
    obtain rfl := pushSql_ok.mp pushed
    obtain ⟨c, u, inner, rfl⟩ := (ih run).of_write
    exact ⟨_, u, .not boolean inner, rfl⟩
  · simp only [predicate, written] at run
    obtain ⟨_, _, first, tested⟩ := bind_ok.mp run
    obtain ⟨o, u, reading, rfl⟩ := (writes _ _).mp first
    refine ⟨_, u, .inverted boolean reading, ?_⟩
    rw [← push_ok.mp tested, Progress.write_write]
    rfl

theorem any_derives {receiver : Option Expr} {args : List Expr} {origin : Origin n}
    {s t : Progress}
    (ih : ∀ e ∈ args, ∀ {origin s t}, predicate context e origin s = (.ok (), t) →
      Derives context e origin s t)
    (run : predicate context (.call .any receiver args) origin s = (.ok (), t)) :
    Derives context (.call .any receiver args) origin s t := by
  rcases args with _ | ⟨e, _ | ⟨e', rest⟩⟩ <;> simp only [predicate] at run <;>
    obtain ⟨path, _, found, run⟩ := bind_ok.mp run <;>
    obtain ⟨collection, rfl⟩ := attempt_ok.mp found
  · obtain ⟨q, u, rows, rfl⟩ := (existence_none_ok context).mp run
    exact ⟨_, u, .any (anyPath_ok.mp collection) rows, rfl⟩
  · obtain ⟨q, u, v, text, rows, nested, finished, rfl⟩ := (existence_some_ok context).mp run
    obtain ⟨c, w, inner, rfl⟩ := ih e (by simp) nested
    have own : w.buffer = .empty := inner.buffer_eq
    have moved := inner.withBuffer u.buffer
    have finish : text = c.sql context.schema context.dialect := by
      have rendered := c.renderAll_tokens context.schema context.dialect
      simp only [TokenBuffer.finish, Progress.write, Progress.withBuffer_buffer, own,
        TokenBuffer.empty, List.nil_append] at finished
      exact Except.ok.inj (finished.symm.trans rendered)
    subst finish
    exact ⟨_, _, .anyWhere (anyPath_ok.mp collection) rows moved, rfl⟩
  · exact absurd run reject_ok

/-- Whatever a successful predicate writes is a condition that can be derived for it. -/
theorem predicate_derives (e : Expr) : ∀ {origin : Origin n} {s t : Progress},
    predicate context e origin s = (.ok (), t) → Derives context e origin s t := by
  induction e using Expr.inductionOn with
  | binary op left right leftIh rightIh =>
    intro origin s t run
    cases connective : op.isLogical with
    | false =>
      simp only [predicate, connective, Bool.false_eq_true, if_false] at run
      exact comparison_derives context connective run
    | true => exact logical_derives context connective leftIh rightIh run
  | not e ih => exact not_derives context ih
  | convert e ih =>
    intro origin s t run
    rw [predicate_convert] at run
    obtain ⟨c, u, inner, written⟩ := ih run
    exact ⟨c, u, .convert inner, written⟩
  | member path =>
    intro origin s t run
    simp only [predicate] at run
    exact truth_derives context rfl rfl run
  | constant value =>
    intro origin s t run
    simp only [predicate] at run
    exact truth_derives context rfl rfl run
  | captured name =>
    intro origin s t run
    simp only [predicate] at run
    exact truth_derives context rfl rfl run
  | call method receiver args ih =>
    intro origin s t run
    cases method with
    | contains =>
      simp only [predicate] at run
      exact containsCall_lowers context run
    | startsWith =>
      simp only [predicate] at run
      exact affixCall_lowers context rfl run
    | endsWith =>
      simp only [predicate] at run
      exact affixCall_lowers context rfl run
    | isNullOrEmpty =>
      simp only [predicate] at run
      exact truth_derives context rfl rfl run
    | hasValue =>
      simp only [predicate] at run
      obtain ⟨rfl, c, u, column, rfl⟩ := (hasValueCall_ok context).mp run
      obtain ⟨path, member, column⟩ := (memberOperand_ok context).mp column
      exact ⟨_, u, .hasValue member column, rfl⟩
    | any => exact any_derives context ih run
  | modifier m =>
    intro origin s t run
    simp only [predicate] at run
    exact absurd run reject_ok

theorem booleanOperand?_eq_none {origin : Origin n} {e : Expr}
    (compound : readBoolean? context origin e = none) :
    booleanOperand? context origin e = none := by
  rcases booleanOperand?_writes context origin e with ⟨none, -⟩ | ⟨_, _, -, some, -⟩
  · exact none
  · rw [compound] at some
    cases some

/-- A boolean operand that can be read is written. -/
theorem booleanOperand?_of_read {origin : Origin n} {e : Expr} {read : Lowering Operand}
    {s t : Progress} {o : Operand} (boolean : readBoolean? context origin e = some read)
    (run : read s = (.ok o, t)) (b : TokenBuffer) :
    ∃ write, booleanOperand? context origin e = some write ∧
      write (s.withBuffer b) = (.ok (), (t.withBuffer b).write (o.tokens context.dialect)) := by
  rcases booleanOperand?_writes context origin e with ⟨-, none⟩ | ⟨write, _, some, same, writes⟩
  · rw [boolean] at none
    cases none
  · obtain rfl := Option.some.inj (boolean.symm.trans same)
    have moved := (readBoolean?_silent context origin e _ boolean).ok run b
    exact ⟨write, some, (writes _ _).mpr ⟨o, _, moved, rfl⟩⟩

theorem predicate_of_truth {origin : Origin n} {e : Expr} {write : Lowering Unit}
    (plain : e.strip = e) (operand : booleanOperand? context origin e = some write) :
    predicate context e origin = (do write; push (.bool false)) := by
  cases e with
  | binary => cases operand
  | not => cases operand
  | modifier => cases operand
  | convert e => exact absurd plain (e.strip_ne_convert e)
  | member => cases operand; simp only [predicate]
  | constant => cases operand; simp only [predicate]
  | captured => cases operand; simp only [predicate]
  | call method =>
    cases method <;> cases operand
    simp only [predicate]

/-- A method that matches a pattern does so on the column of its member. -/
theorem predicate_of_like {origin : Origin n} {method : Method} {w : Wildcard}
    {receiver : Option Expr} {path : MemberPath} {pattern : Expr} {s t u : Progress}
    {c : ColumnRef} (opening : method.wildcard? = some w)
    (member : receiver.map Expr.strip = some (.member path))
    (column : resolveColumn context origin path s = (.ok c, u))
    (matched : like context method c pattern w u = (.ok (), t)) :
    predicate context (.call method receiver [pattern]) origin s = (.ok (), t) := by
  have affix : affixCall context origin method w receiver [pattern] s = (.ok (), t) := by
    refine bind_ok.mpr ⟨c, u, (memberOperand_ok context).mpr ⟨path, member, column⟩, ?_⟩
    exact bind_ok.mpr ⟨pattern, u, attempt_ok.mpr ⟨rfl, rfl⟩, matched⟩
  cases method <;> cases opening <;> simp only [predicate]
  · refine bind_ok.mpr ⟨pattern, s, attempt_ok.mpr ⟨rfl, rfl⟩, ?_⟩
    simp only [member]
    exact bind_ok.mpr ⟨c, u, column, matched⟩
  · exact affix
  · exact affix

/-- Membership of a member in a constant or captured collection. -/
theorem predicate_of_membership {origin : Origin n} {receiver : Option Expr} {source arg : Expr}
    {path : MemberPath} {items : List Value} {s t u : Progress} {c : ColumnRef}
    (collection : receiver.map Expr.strip = some source)
    (value : literal context source = .ok (.list items)) (member : arg.strip = .member path)
    (column : resolveColumn context origin path s = (.ok c, u))
    (held : membership context c items u = (.ok (), t)) :
    predicate context (.call .contains receiver [arg]) origin s = (.ok (), t) := by
  have inside : inCollection context origin source arg s = (.ok (), t) := by
    refine bind_ok.mpr ⟨_, s, attempt_ok.mpr ⟨value, rfl⟩, ?_⟩
    simp only [member]
    exact bind_ok.mpr ⟨c, u, column, held⟩
  simp only [predicate]
  refine bind_ok.mpr ⟨arg, s, attempt_ok.mpr ⟨rfl, rfl⟩, ?_⟩
  simp only [collection]
  -- A literal below the outer conversions is a constant or a captured name.
  have stripped : source.strip = source := Expr.strip_of_map collection
  cases source with
  | constant => exact inside
  | captured => exact inside
  | convert e => exact absurd stripped (e.strip_ne_convert e)
  | _ => cases value

/-- Writes the pieces `ts` wherever it is run, with the joins, aliases and enumerations of `s`
before and those of `t` after. -/
def Produces (write : Lowering Unit) (s t : Progress) (ts : List Token) : Prop :=
  ∀ b, write (s.withBuffer b) = (.ok (), (t.withBuffer b).write ts)

theorem Produces.after {write : Lowering Unit} {s t : Progress} {ts : List Token}
    (h : Produces write s t ts) (b : TokenBuffer) (front : List Token) :
    write ((s.withBuffer b).write front) = (.ok (), (t.withBuffer b).write (front ++ ts)) := by
  rw [← Progress.write_write]
  exact h ⟨b.tokens ++ front⟩

/-- A condition that can be derived is written, after whatever the buffer holds. -/
theorem Lowers.produces {context : LoweringContext n} {origin : Origin n} {e : Expr}
    {s t : Progress} {c : Condition n} (h : Lowers context origin e s c t) :
    Produces (predicate context e origin) s t (c.tokens context.schema context.dialect) := by
  have operand := fun {origin} e => readOperand_silent context origin e
  have column := fun {origin} path => resolveColumn_silent context origin path
  induction h with
  | logical connective _ _ first second =>
    intro b
    simp only [predicate, connective, if_true]
    refine bind_ok.mpr ⟨_, _, mark_ok.mpr ⟨rfl, rfl⟩, ?_⟩
    refine bind_ok.mpr ⟨(), _, pushSql_ok.mpr rfl, bind_ok.mpr ⟨(), _, first.after b _, ?_⟩⟩
    refine bind_ok.mpr ⟨(), _, pushSql_ok.mpr (Progress.write_write _ _ _), ?_⟩
    refine bind_ok.mpr ⟨(), _, second.after b _, ?_⟩
    refine bind_ok.mpr ⟨(), _, pushSql_ok.mpr (Progress.write_write _ _ _), ?_⟩
    exact collapseBooleans_write_ok.mpr rfl
  | comparison comparator untested leftRead rightRead leftBound rightBound =>
    intro b
    simp only [predicate, comparator, Bool.false_eq_true, if_false]
    exact (comparison_pair_ok context untested).mpr ⟨_, _, _, _, _, _, (operand _).ok leftRead b,
      (operand _).ok rightRead b, leftBound, rightBound, rfl⟩
  | nullTest comparator tested read =>
    intro b
    simp only [predicate, comparator, Bool.false_eq_true, if_false]
    exact (comparison_nullTest_ok context tested).mpr ⟨_, _, (operand _).ok read b, rfl⟩
  | inverted boolean run =>
    intro b
    obtain ⟨write, operand, written⟩ := booleanOperand?_of_read context boolean run b
    simp only [predicate, operand]
    exact bind_ok.mpr ⟨(), _, written, push_ok.mpr (Progress.write_write _ _ _)⟩
  | not compound _ inner =>
    intro b
    simp only [predicate, booleanOperand?_eq_none context compound]
    exact bind_ok.mpr ⟨(), _, pushSql_ok.mpr rfl, inner.after b _⟩
  | convert _ inner =>
    rw [predicate_convert]
    exact inner
  | truth plain boolean run =>
    intro b
    obtain ⟨write, operand, written⟩ := booleanOperand?_of_read context boolean run b
    rw [predicate_of_truth context plain operand]
    exact bind_ok.mpr ⟨(), _, written, push_ok.mpr (Progress.write_write _ _ _)⟩
  | like opening member run textual value bound =>
    intro b
    exact predicate_of_like context opening member ((column _).ok run b)
      ((like_ok context).mpr ⟨textual, _, _, value, bound, rfl⟩)
  | membership collection value member run nonempty bound =>
    intro b
    exact predicate_of_membership context collection value member ((column _).ok run b)
      ((membership_ok context).mpr (.inr ⟨nonempty, _, bound, rfl⟩))
  | emptyMembership collection value member run =>
    intro b
    exact predicate_of_membership context collection value member ((column _).ok run b)
      ((membership_ok context).mpr (.inl ⟨rfl, rfl⟩))
  | hasValue member run =>
    intro b
    simp only [predicate]
    exact (hasValueCall_ok context).mpr
      ⟨rfl, _, _, (memberOperand_ok context).mpr ⟨_, member, (column _).ok run b⟩, rfl⟩
  | any collection rows =>
    intro b
    simp only [predicate]
    refine bind_ok.mpr ⟨_, _, attempt_ok.mpr ⟨anyPath_ok.mpr collection, rfl⟩, ?_⟩
    exact (existence_none_ok context).mpr ⟨_, _, (subquery_silent context _ _).ok rows b, rfl⟩
  | anyWhere collection rows _ inner =>
    intro b
    simp only [predicate]
    refine bind_ok.mpr ⟨_, _, attempt_ok.mpr ⟨anyPath_ok.mpr collection, rfl⟩, ?_⟩
    refine (existence_some_ok context).mpr
      ⟨_, _, _, _, (subquery_silent context _ _).ok rows b, inner .empty, ?_, rfl⟩
    exact Condition.renderAll_tokens _ _ _

/-- A predicate is lowered successfully exactly when a condition can be derived for it. -/
theorem predicate_ok {e : Expr} {origin : Origin n} {s t : Progress} :
    predicate context e origin s = (.ok (), t) ↔ Derives context e origin s t := by
  constructor
  · exact predicate_derives context e
  · rintro ⟨c, u, derived, rfl⟩
    exact derived.produces s.buffer |>.trans (by rw [← derived.buffer_eq]; rfl)

end PredicateSql
