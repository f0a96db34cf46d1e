import PredicateSql.Proofs.Quoting.Rebinding

/-!
Which holes the text of a condition has. An expression and what is bound tell it beforehand: there
is one hole for each string among the values of captured operands, in the order of the expression.
This is so for names that are only used with columns that take literals as they are; the literals of
other names can be made part of the text.
-/
namespace PredicateSql

open Lowering

variable {n : Nat}

namespace Piece

def hole? : Piece → Option Hole
  | sql _ => none
  | hole h => some h

def holes (pieces : List Piece) : List Hole :=
  pieces.filterMap hole?

@[simp]
theorem holes_nil : holes [] = [] := rfl

@[simp]
theorem holes_cons_sql (text : String) (rest : List Piece) :
    holes (sql text :: rest) = holes rest := rfl

@[simp]
theorem holes_cons_hole (h : Hole) (rest : List Piece) :
    holes (hole h :: rest) = h :: holes rest := rfl

@[simp]
theorem holes_append (pieces pieces' : List Piece) :
    holes (pieces ++ pieces') = holes pieces ++ holes pieces' :=
  List.filterMap_append

@[simp]
theorem holes_pair (left right : List Piece) (between close : String) :
    holes (pair left between right close) = holes left ++ holes right := by
  simp [pair]

theorem mem_holes {pieces : List Piece} {h : Hole} : h ∈ holes pieces ↔ hole h ∈ pieces := by
  induction pieces with
  | nil => simp
  | cons p rest ih => cases p <;> simp [ih]

/-- Makes the literals of names that are not kept part of the text. -/
def settle (d : Dialect) (b : Bindings) (keep : String → Bool) : Piece → Piece
  | sql text => sql text
  | hole h => if keep h.name then hole h else sql (d.stringLiteral (h.text b))

section Settle

variable {d : Dialect} {b b' : Bindings} {keep : String → Bool} {pieces : List Piece}

theorem holes_settle (pieces : List Piece) :
    holes (pieces.map (settle d b keep)) = (holes pieces).filter (keep ·.name) := by
  induction pieces with
  | nil => rfl
  | cons p rest ih =>
    cases p with
    | sql text => exact ih
    | hole h => by_cases kept : keep h.name = true <;> simp [settle, kept, ih]

/-- The text is the same for all bindings with the same values behind the names that are not
kept. -/
theorem fillAll_settle (same : ∀ name, keep name ≠ true → b'.get? name = b.get? name)
    (pieces : List Piece) : fillAll d b' (pieces.map (settle d b keep)) = fillAll d b' pieces := by
  induction pieces with
  | nil => rfl
  | cons p rest ih =>
    rw [List.map_cons, fillAll_cons, fillAll_cons, ih]
    congr 1
    cases p with
    | sql text => rfl
    | hole h =>
      by_cases kept : keep h.name = true
      · rw [settle, if_pos kept]
      · rw [settle, if_neg kept, fill, fill, Hole.text, Hole.text, Hole.string?, Hole.string?,
          Bindings.string?, Bindings.string?, same _ kept]

theorem Closed.settle (closed : Closed pieces) : Closed (pieces.map (settle d b keep)) := by
  intro text member
  obtain ⟨p, held, settled⟩ := List.mem_map.mp member
  cases p with
  | sql text' =>
    cases settled
    exact closed text held
  | hole h =>
    rw [Piece.settle] at settled
    split at settled
    · cases settled
    · cases settled
      exact quotesClosed_stringLiteral d _

theorem Separated.settle (separated : Separated pieces) :
    Separated (pieces.map (settle d b keep)) := by
  induction separated with
  | nil => exact .nil
  | sql _ ih => exact .sql ih
  | @hole h _ _ _ other start _ ih =>
    rw [List.map_cons, Piece.settle]
    split
    · exact .hole other start ih
    · exact .sql ih

theorem Bound.settle (bound : Bound b' pieces) : Bound b' (pieces.map (settle d b keep)) := by
  intro h member
  refine bound h (mem_holes.mp ?_)
  rw [← mem_holes, holes_settle] at member
  exact (List.mem_filter.mp member).1

end Settle

end Piece

namespace Value

mutual

/-- The literals of a value that is bound to a name, or that stands at a position of such a value:
one for each string. -/
def holes (name : String) (w : Wildcard) : List Nat → Value → List Hole
  | position, .string _ => [⟨name, position, w⟩]
  | position, .list items => itemHoles name w position 0 items
  | _, _ => []

def itemHoles (name : String) (w : Wildcard) (position : List Nat) : Nat → List Value → List Hole
  | _, [] => []
  | i, item :: rest => item.holes name w (position ++ [i]) ++ itemHoles name w position (i + 1) rest

end

variable {d : Dialect} {name : String} {w : Wildcard} {hint : Option ColumnKind}

theorem holes_itemPieces {position : List Nat} {items : List Value}
    (each : ∀ item ∈ items, ∀ place, Piece.holes (item.pieces d name w hint place) =
      item.holes name w place) (i : Nat) :
    Piece.holes (itemPieces d name w hint position i items) =
      itemHoles name w position i items := by
  induction items generalizing i with
  | nil => rfl
  | cons item rest ih =>
    have first := each item List.mem_cons_self (position ++ [i])
    have others := ih (fun item held => each item (List.mem_cons_of_mem _ held)) (i + 1)
    cases rest with
    | nil => simp [itemPieces, itemHoles, first]
    | cons next rest =>
      rw [itemPieces, itemHoles, Piece.holes_append, first, ← others]
      simp

theorem holes_pieces (position : List Nat) (v : Value) :
    Piece.holes (v.pieces d name w hint position) = v.holes name w position := by
  induction v using Value.inductionOn generalizing position with
  | list items ih => exact holes_itemPieces (fun item held place => ih item held place) 0
  | scalar v other =>
    cases v with
    | list items => exact absurd rfl (other items)
    | _ => rfl

theorem mem_itemHoles {position : List Nat} {items : List Value} {i : Nat} {h : Hole}
    (member : h ∈ itemHoles name w position i items) :
    ∃ item ∈ items, ∃ place, h ∈ item.holes name w place := by
  induction items generalizing i with
  | nil => exact absurd member List.not_mem_nil
  | cons item rest ih =>
    rcases List.mem_append.mp member with first | others
    · exact ⟨item, List.mem_cons_self, _, first⟩
    · obtain ⟨item, held, place, among⟩ := ih others
      exact ⟨item, List.mem_cons_of_mem _ held, place, among⟩

theorem name_of_mem_holes {position : List Nat} {v : Value} {h : Hole}
    (member : h ∈ v.holes name w position) : h.name = name := by
  induction v using Value.inductionOn generalizing position with
  | list items ih =>
    obtain ⟨item, held, _, among⟩ := mem_itemHoles member
    exact ih item held among
  | scalar v other =>
    cases v with
    | string text =>
      obtain rfl := List.mem_singleton.mp member
      rfl
    | list items => exact absurd rfl (other items)
    | _ => exact absurd member List.not_mem_nil

end Value

namespace Expr

/-- The literals of an operand: those of the value that is bound to it, if it is a captured name. -/
def operandHoles (b : Bindings) (w : Wildcard) (e : Expr) : List Hole :=
  match e.capturedName? with
  | some name => ((b.get? name).map (Value.holes name w [])).getD []
  | none => []

/-- The literals of captured operands, in order: those of comparisons and collections are written as
they are bound, and those of patterns with their wildcards. -/
def holes (b : Bindings) : Expr → List Hole
  | binary op left right =>
    if op.isLogical then left.holes b ++ right.holes b
    else left.operandHoles b .none ++ right.operandHoles b .none
  | not e | convert e => e.holes b
  | call .any _ [e] => e.holes b
  | call method receiver args =>
    match method.wildcard? with
    | some w => receiver.toList.flatMap (operandHoles b .none) ++ args.flatMap (operandHoles b w)
    | none => []
  | _ => []
termination_by structural e => e

theorem holes_call (b : Bindings) {method : Method} {w : Wildcard}
    (opening : method.wildcard? = some w) (receiver : Option Expr) (args : List Expr) :
    holes b (call method receiver args) =
      receiver.toList.flatMap (operandHoles b .none) ++ args.flatMap (operandHoles b w) := by
  cases method <;> cases opening <;> rfl

variable {b : Bindings} {e : Expr} {w : Wildcard}

theorem operandHoles_of_member {path : MemberPath} (h : e.strip = member path) :
    e.operandHoles b w = [] := by
  simp [operandHoles, capturedName?, h]

theorem operandHoles_of_constant {v : Value} (h : e.strip = constant v) :
    e.operandHoles b w = [] := by
  simp [operandHoles, capturedName?, h]

theorem operandHoles_of_captured {name : String} {v : Value} (h : e.strip = captured name)
    (bound : b.get? name = some v) : e.operandHoles b w = v.holes name w [] := by
  simp [operandHoles, capturedName?, h, bound]

end Expr

/-- All columns that the name is used with take literals as they are. -/
def isVerbatimThroughout (uses : List (String × Column)) (name : String) : Bool :=
  uses.all fun use => use.1 != name || use.2.isVerbatim

theorem isVerbatimThroughout_iff {uses : List (String × Column)} {name : String} :
    isVerbatimThroughout uses name = true ↔
      ∀ column, (name, column) ∈ uses → column.isVerbatim = true := by
  simp only [isVerbatimThroughout, List.all_eq_true, Prod.forall]
  constructor
  · intro all column used
    simpa using all name column used
  · intro verbatim other column used
    by_cases same : other = name
    · subst same
      simp [verbatim column used]
    · simp [same]

section Lowering

variable {context : LoweringContext n} {origin : Origin n} {s t : Progress} {d : Dialect}
  {keep : String → Bool}

/-- The holes of a literal are those of the operand that it was made of, as far as its names are
kept: such a name only meets columns that take its literals as they are. -/
theorem BoundLiteral.holes_pieces {e : Expr} {v : Value} {l : BoundLiteral}
    (source : l.source = e.strip) (value : literal context e = .ok v) (given : l.given = v)
    (verbatim : ∀ name, e.capturedName? = some name → keep name = true → l.isVerbatim = true) :
    (Piece.holes (l.pieces d)).filter (keep ·.name) =
      (e.operandHoles context.bindings l.wildcard).filter (keep ·.name) := by
  rcases (literal_ok context).mp value with constant | ⟨name, captured, bound⟩
  · rw [Expr.operandHoles_of_constant constant, pieces, source, constant]
    rfl
  · rw [Expr.operandHoles_of_captured captured bound, pieces, source, captured]
    dsimp only
    split
    · rw [Value.holes_pieces, given]
    next sealed =>
      -- The text is not that of the bound value, so its name is not among those that are kept.
      have dropped : keep name ≠ true := fun kept =>
        sealed (verbatim name (Expr.capturedName?_eq_some.mpr captured) kept)
      rw [Piece.holes_cons_sql, Piece.holes_nil, List.filter_nil, eq_comm, List.filter_eq_nil_iff]
      intro h member
      rwa [Value.name_of_mem_holes member]

/-- The same for an operand that may have been bound to a column. -/
theorem Operand.holes_bound {e : Expr} {o o' : Operand} {c : Option ColumnRef}
    (binding : BindingContext) (read : readOperand context origin e s = (.ok o, t))
    (bound : o.bind binding c = .ok o')
    (verbatim : ∀ name, e.capturedName? = some name → keep name = true →
      ∀ column ∈ c, column.isVerbatim = true) :
    (Piece.holes (o'.pieces d)).filter (keep ·.name) =
      (e.operandHoles context.bindings .none).filter (keep ·.name) := by
  rcases (readOperand_ok context).mp read with ⟨path, c', member, -, rfl⟩ | ⟨v, value, rfl, -⟩ |
    ⟨receiver, args, c', call, -, rfl⟩
  · obtain rfl : o' = .column c' := by cases c <;> exact (Except.ok.inj bound).symm
    rw [Expr.operandHoles_of_member member]
    rfl
  · rcases bind_cases bound with rfl | ⟨column, l, written, found, same, -, rfl⟩
    · exact BoundLiteral.holes_pieces rfl value rfl fun _ _ _ => rfl
    · cases same
      exact BoundLiteral.holes_pieces rfl value rfl fun name captured kept =>
        verbatim name captured kept column found
  · obtain rfl : o' = .nullOrEmpty c' := by cases c <;> exact (Except.ok.inj bound).symm
    simp [Expr.operandHoles, Expr.capturedName?, call, pieces]

/-- There is no string in null. -/
theorem operandHoles_of_isNullLiteral {e : Expr} {w : Wildcard}
    (null : isNullLiteral context e = .ok true) : e.operandHoles context.bindings w = [] := by
  obtain ⟨v, value, isNull⟩ := (isNullLiteral_ok context).mp null
  rcases (literal_ok context).mp value with constant | ⟨name, captured, bound⟩
  · exact Expr.operandHoles_of_constant constant
  · rw [Expr.operandHoles_of_captured captured bound]
    cases v <;> first | rfl | cases isNull

/-- There is no string in a boolean operand. -/
theorem holes_of_readBoolean? {e : Expr} {read : Lowering Operand} {o : Operand}
    (boolean : readBoolean? context origin e = some read) (run : read s = (.ok o, t)) :
    e.holes context.bindings = [] ∧ Piece.holes (o.pieces d) = [] := by
  constructor
  · fun_induction readBoolean? context origin e with
    | case1 e ih => exact ih boolean
    | case6 => cases boolean
    | _ => rfl
  · rcases readBoolean?_cases context boolean run with ⟨_, c, -, -, -, rfl⟩ |
      ⟨-, b, -, rfl, -⟩ | ⟨_, _, c, -, -, rfl⟩
    · rfl
    · rw [Operand.pieces, BoundLiteral.pieces]
      split <;> rfl
    · rfl

/-- The holes of a derived condition are the literals of its expression, in order, as far as their
names are kept: such a name is only used with columns that take its literals as they are. -/
theorem Lowers.holes {e : Expr} {k : Condition n} (h : Lowers context origin e s k t)
    (free : ∀ name column, (name, column) ∈ e.uses context.schema origin.entity →
      keep name = true → column.isVerbatim = true) :
    (Piece.holes (k.pieces context.schema d)).filter (keep ·.name) =
      (e.holes context.bindings).filter (keep ·.name) := by
  induction h with
  | logical connective _ _ first second =>
    simp only [Expr.uses, connective, if_true, List.mem_append, or_imp, forall_and] at free
    rw [Condition.pieces, Expr.holes, if_pos connective, Piece.holes_pair, List.filter_append,
      List.filter_append, first free.1, second free.2]
  | comparison comparator _ leftRead rightRead leftBound rightBound =>
    simp only [Expr.uses, comparator, Bool.false_eq_true, if_false] at free
    have left := Operand.holes_bound (d := d) _ leftRead leftBound fun _ captured kept _ column =>
      comparison_verbatim free leftRead rightRead (by simp) captured kept column
    have right := Operand.holes_bound (d := d) _ rightRead rightBound
      fun _ captured kept _ column =>
        comparison_verbatim free leftRead rightRead (by simp) captured kept column
    rw [Condition.pieces, Expr.holes, if_neg (by simp [comparator]), Piece.holes_pair,
      List.filter_append, List.filter_append, left, right]
  | nullTest comparator tested read =>
    have operand : (Piece.holes (Operand.pieces d _)).filter (keep ·.name) = _ :=
      Operand.holes_bound (c := none) ⟨.empty, none⟩ read rfl
        fun _ _ _ _ column => by cases column
    rw [Condition.pieces, Expr.holes, if_neg (by simp [comparator])]
    rcases (nullTested?_some tested).2 with ⟨rfl, null⟩ | ⟨rfl, null⟩
    · rw [operandHoles_of_isNullLiteral null, List.append_nil, ← operand]
      simp
    · rw [operandHoles_of_isNullLiteral null, List.nil_append, ← operand]
      simp
  | inverted boolean run =>
    obtain ⟨none, operand⟩ := holes_of_readBoolean? (d := d) boolean run
    rw [Expr.holes, none, Condition.pieces, Piece.holes_append, operand]
    rfl
  | truth _ boolean run =>
    obtain ⟨none, operand⟩ := holes_of_readBoolean? (d := d) boolean run
    rw [none, Condition.pieces, Piece.holes_append, operand]
    rfl
  | not _ _ ih => exact ih free
  | convert _ ih => exact ih free
  | @like _ _ w _ _ pattern _ _ c v l opening member column _ value =>
    rw [Expr.uses_call _ _ (by rintro rfl; cases opening)] at free
    obtain ⟨e, rfl, stripped⟩ := Option.map_eq_some_iff.mp member
    have literal := BoundLiteral.holes_pieces (d := d) (l := ⟨pattern.strip, v, w, some c, l⟩) rfl
      value rfl fun _ captured kept =>
      member_verbatim free column (by simp) stripped (by simp) captured kept
    rw [Condition.pieces, Piece.holes_pair, Expr.holes_call _ opening]
    simp [literal, Expr.operandHoles_of_member stripped]
  | @membership _ _ _ _ _ items _ _ c l collection value member column =>
    rw [Expr.uses_call _ _ (by decide)] at free
    obtain ⟨e, rfl, rfl⟩ := Option.map_eq_some_iff.mp collection
    rw [literal_strip] at value
    have literal := BoundLiteral.holes_pieces (d := d)
      (l := ⟨e.strip, .list items, .none, some c, l⟩) rfl
      value rfl fun _ captured kept =>
      member_verbatim free column (by simp) member (by simp) captured kept
    rw [Condition.pieces, Piece.holes_pair, Expr.holes_call _ rfl]
    simp [literal, Expr.operandHoles_of_member member]
  | emptyMembership collection value member column =>
    obtain ⟨e, rfl, rfl⟩ := Option.map_eq_some_iff.mp collection
    rw [literal_strip] at value
    rw [Expr.holes_call _ rfl]
    rcases (literal_ok _).mp value with constant | ⟨name, captured, bound⟩
    · simp [Condition.pieces, Expr.operandHoles_of_member member,
        Expr.operandHoles_of_constant constant]
    · simp [Condition.pieces, Expr.operandHoles_of_member member,
        Expr.operandHoles_of_captured captured bound, Value.holes, Value.itemHoles]
  | hasValue => rfl
  | any => rfl
  | anyWhere collection rows _ ih =>
    rw [Expr.uses_any collection (subquery_rows? rows)] at free
    rw [Expr.holes, ← ih free, Condition.pieces]
    simp

end Lowering

end PredicateSql
