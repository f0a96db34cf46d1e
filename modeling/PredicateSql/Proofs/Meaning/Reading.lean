import PredicateSql.Dialect

/-!
How a condition is read: as symbols, by the precedence of SQL, in three-valued logic. A word of
symbols has at most one reading and so at most one truth value.
-/
namespace PredicateSql

/-- Truth values; `none` is unknown. -/
abbrev Truth := Option Bool

namespace Truth

def negation (x : Truth) : Truth :=
  x.map not

def conjunction : Truth → Truth → Truth
  | some false, _ => some false
  | _, some false => some false
  | some true, some true => some true
  | _, _ => none

def disjunction : Truth → Truth → Truth
  | some true, _ => some true
  | _, some true => some true
  | some false, some false => some false
  | _, _ => none

/-- Equality of two values, unknown if one of them is. -/
def equality : Truth → Truth → Truth
  | some x, some y => some (x == y)
  | _, _ => none

theorem negation_negation (x : Truth) : x.negation.negation = x := by
  cases x <;> simp [negation]

theorem equality_true (x : Truth) : x.equality (some true) = x := by
  cases x <;> simp [equality]

theorem equality_false (x : Truth) : x.equality (some false) = x.negation := by
  cases x <;> simp [equality, negation]

end Truth

/-- The symbols of a condition. A boolean operand or another condition is one symbol, whatever its
text; its label says which of the leaves of the predicate it stands for. -/
inductive Symbol (α : Type) where
  | opening | closing | not | and | or | equals
  | literal (value : Bool)
  | operand (label : α) (text : String)
  | condition (label : α) (text : String)

variable {α : Type}

namespace Symbol

def sql (d : Dialect) : Symbol α → String
  | opening => "("
  | closing => ")"
  | not => "NOT "
  | and => " AND "
  | or => " OR "
  | equals => " = "
  | literal b => d.boolLiteral b
  | operand _ text => text
  | condition _ text => text

/-- The value of an operand or a literal; other symbols have none. -/
def value? (ν : α → Truth) : Symbol α → Option Truth
  | literal b => some (some b)
  | operand label _ => some (ν label)
  | _ => none

/-- Whether a symbol stands for a leaf that is no literal. -/
def isVariable : Symbol α → Bool
  | operand _ _ | condition _ _ => true
  | _ => false

def text (d : Dialect) (w : List (Symbol α)) : String :=
  String.join (w.map (sql d))

theorem text_nil (d : Dialect) : text d ([] : List (Symbol α)) = "" := rfl

theorem text_cons (d : Dialect) (a : Symbol α) (w : List (Symbol α)) :
    text d (a :: w) = a.sql d ++ text d w := by
  simp [text]

theorem text_append (d : Dialect) (w w' : List (Symbol α)) :
    text d (w ++ w') = text d w ++ text d w' := by
  simp [text]

def enclosed (w : List (Symbol α)) : List (Symbol α) :=
  opening :: w ++ [closing]

theorem text_enclosed (d : Dialect) (w : List (Symbol α)) :
    text d (enclosed w) = "(" ++ text d w ++ ")" := by
  simp only [enclosed, List.cons_append, text_cons, text_append, text_nil, String.append_assoc,
    String.append_empty]
  rfl

theorem filter_enclosed (w : List (Symbol α)) :
    (enclosed w).filter isVariable = w.filter isVariable := by
  have opening : (opening : Symbol α).isVariable = false := rfl
  have closing : (closing : Symbol α).isVariable = false := rfl
  simp [enclosed, opening, closing]

end Symbol

/-- What binds more tightly comes first. -/
inductive Precedence where
  | comparison | negation | conjunction | disjunction

/-- `Reads ν level w v` says that a word can be read as a condition of this level, with the truth
value `v` when the leaves have the values of `ν`. A boolean operand is no condition by itself. -/
inductive Reads (ν : α → Truth) : Precedence → List (Symbol α) → Truth → Prop
  | equality {a b x y} (left : a.value? ν = some x) (right : b.value? ν = some y) :
      Reads ν .comparison [a, .equals, b] (x.equality y)
  | condition {label text} : Reads ν .comparison [.condition label text] (ν label)
  | enclosed {w v} (inner : Reads ν .disjunction w v) :
      Reads ν .comparison (Symbol.enclosed w) v
  | ofComparison {w v} (inner : Reads ν .comparison w v) : Reads ν .negation w v
  | not {w v} (inner : Reads ν .negation w v) : Reads ν .negation (.not :: w) v.negation
  | ofNegation {w v} (inner : Reads ν .negation w v) : Reads ν .conjunction w v
  | and {w w' v v'} (left : Reads ν .negation w v) (right : Reads ν .conjunction w' v') :
      Reads ν .conjunction (w ++ .and :: w') (v.conjunction v')
  | ofConjunction {w v} (inner : Reads ν .conjunction w v) : Reads ν .disjunction w v
  | or {w w' v v'} (left : Reads ν .conjunction w v) (right : Reads ν .disjunction w' v') :
      Reads ν .disjunction (w ++ .or :: w') (v.disjunction v')

/-- What follows does not belong to a condition of this level any more. -/
def Precedence.Ends : Precedence → List (Symbol α) → Prop
  | .comparison, _ | .negation, _ => True
  | .conjunction, rest => ∀ w, rest ≠ .and :: w
  | .disjunction, rest => ∀ w, rest ≠ .and :: w ∧ rest ≠ .or :: w

theorem Precedence.Ends.closing (level : Precedence) (rest : List (Symbol α)) :
    level.Ends (.closing :: rest) := by
  cases level <;> simp [Ends]

theorem Precedence.Ends.or (rest : List (Symbol α)) :
    Precedence.conjunction.Ends (.or :: rest) := by
  simp [Ends]

theorem Precedence.Ends.nil (level : Precedence) : level.Ends ([] : List (Symbol α)) := by
  cases level <;> simp [Ends]

namespace Reads

variable {ν : α → Truth} {level : Precedence} {w w' r r' : List (Symbol α)} {v v' : Truth}

theorem comparison_head (h : Reads ν .comparison w v) : ∃ s rest, w = s :: rest ∧ s ≠ .not := by
  cases h with
  | equality left right =>
    refine ⟨_, _, rfl, ?_⟩
    rintro rfl
    cases left
  | condition => exact ⟨_, _, rfl, nofun⟩
  | enclosed inner => exact ⟨_, _, rfl, nofun⟩

/-- Where a condition begins, it ends in one place only, and there it has one value. -/
theorem unique (h : Reads ν level w v) (h' : Reads ν level w' v') (ends : level.Ends r)
    (ends' : level.Ends r') (same : w ++ r = w' ++ r') : w = w' ∧ v = v' := by
  induction h generalizing w' r r' v' with
  | equality left right =>
    cases h' with
    | equality left' right' =>
      simp only [List.cons_append, List.nil_append, List.cons.injEq, true_and] at same
      obtain ⟨rfl, rfl, rfl⟩ := same
      obtain rfl := Option.some.inj (left.symm.trans left')
      obtain rfl := Option.some.inj (right.symm.trans right')
      exact ⟨rfl, rfl⟩
    | condition =>
      obtain ⟨rfl, -⟩ := List.cons.inj same
      cases left
    | enclosed inner =>
      obtain ⟨rfl, -⟩ := List.cons.inj same
      cases left
  | condition =>
    cases h' with
    | equality left' right' =>
      obtain ⟨rfl, -⟩ := List.cons.inj same
      cases left'
    | condition =>
      obtain ⟨first, -⟩ := List.cons.inj same
      cases first
      exact ⟨rfl, rfl⟩
    | enclosed inner => cases (List.cons.inj same).1
  | enclosed inner ih =>
    cases h' with
    | equality left' right' =>
      obtain ⟨first, -⟩ := List.cons.inj same
      subst first
      cases left'
    | condition => cases (List.cons.inj same).1
    | enclosed inner' =>
      simp only [Symbol.enclosed, List.cons_append, List.append_assoc, List.cons.injEq,
        true_and] at same
      obtain ⟨rfl, rfl⟩ := ih inner' (.closing _ _) (.closing _ _) same
      exact ⟨rfl, rfl⟩
  | ofComparison inner ih =>
    cases h' with
    | ofComparison inner' => exact ih inner' trivial trivial same
    | not inner' =>
      obtain ⟨s, rest, rfl, other⟩ := inner.comparison_head
      exact absurd (List.cons.inj same).1 other
  | not inner ih =>
    cases h' with
    | ofComparison inner' =>
      obtain ⟨s, rest, rfl, other⟩ := inner'.comparison_head
      exact absurd (List.cons.inj same).1.symm other
    | not inner' =>
      obtain ⟨rfl, rfl⟩ := ih inner' trivial trivial (List.cons.inj same).2
      exact ⟨rfl, rfl⟩
  | ofNegation inner ih =>
    cases h' with
    | ofNegation inner' => exact ih inner' trivial trivial same
    | and left' right' =>
      rw [List.append_assoc] at same
      obtain ⟨rfl, -⟩ := ih left' trivial trivial same
      exact absurd (List.append_cancel_left same) (ends _)
  | and left right leftIh rightIh =>
    rw [List.append_assoc] at same
    cases h' with
    | ofNegation inner' =>
      obtain ⟨rfl, -⟩ := leftIh inner' trivial trivial same
      exact absurd (List.append_cancel_left same).symm (ends' _)
    | and left' right' =>
      rw [List.append_assoc] at same
      obtain ⟨rfl, rfl⟩ := leftIh left' trivial trivial same
      have rest := (List.cons.inj (List.append_cancel_left same)).2
      obtain ⟨rfl, rfl⟩ := rightIh right' ends ends' rest
      exact ⟨rfl, rfl⟩
  | ofConjunction inner ih =>
    cases h' with
    | ofConjunction inner' => exact ih inner' (fun w => (ends w).1) (fun w => (ends' w).1) same
    | or left' right' =>
      rw [List.append_assoc] at same
      obtain ⟨rfl, -⟩ := ih left' (fun w => (ends w).1) (.or _) same
      exact absurd (List.append_cancel_left same) (ends _).2
  | or left right leftIh rightIh =>
    rw [List.append_assoc] at same
    cases h' with
    | ofConjunction inner' =>
      obtain ⟨rfl, -⟩ := leftIh inner' (.or _) (fun w => (ends' w).1) same
      exact absurd (List.append_cancel_left same).symm (ends' _).2
    | or left' right' =>
      rw [List.append_assoc] at same
      obtain ⟨rfl, rfl⟩ := leftIh left' (.or _) (.or _) same
      have rest := (List.cons.inj (List.append_cancel_left same)).2
      obtain ⟨rfl, rfl⟩ := rightIh right' ends ends' rest
      exact ⟨rfl, rfl⟩

/-- A word has at most one truth value. -/
theorem value_unique (h : Reads ν level w v) (h' : Reads ν level w v') : v = v' :=
  (h.unique h' (.nil level) (.nil level) rfl).2

end Reads
end PredicateSql
