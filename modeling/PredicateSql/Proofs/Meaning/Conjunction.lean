import PredicateSql.Proofs.Meaning.Spelling

/-!
Conditions in a row. Words that are operands of `AND` are read together as the conjunction of their
values, whatever operators are in them.
-/
namespace PredicateSql

variable {α : Type}

def Truth.all (values : List Truth) : Truth :=
  values.foldr Truth.conjunction (some true)

theorem Truth.conjunction_true (x : Truth) : x.conjunction (some true) = x := by
  rcases x with _ | _ | _ <;> rfl

namespace Symbol

/-- Words with `AND` between them. -/
def conjoined : List (List (Symbol α)) → List (Symbol α)
  | [] => []
  | [w] => w
  | w :: rest => w ++ .and :: conjoined rest

theorem conjoined_cons (w next : List (Symbol α)) (rest : List (List (Symbol α))) :
    conjoined (w :: next :: rest) = w ++ .and :: conjoined (next :: rest) := rfl

theorem text_conjoined (d : Dialect) (words : List (List (Symbol α))) :
    text d (conjoined words) = String.intercalate " AND " (words.map (text d)) := by
  induction words with
  | nil => rfl
  | cons w rest ih =>
    cases rest with
    | nil => simp [conjoined]
    | cons next rest =>
      rw [conjoined_cons, text_append, text_cons, ih]
      simp only [List.map_cons, String.intercalate_cons_cons, String.append_assoc]
      rfl

theorem filter_conjoined (words : List (List (Symbol α))) :
    (conjoined words).filter isVariable = words.flatMap (·.filter isVariable) := by
  induction words with
  | nil => rfl
  | cons w rest ih =>
    cases rest with
    | nil => simp [conjoined]
    | cons next rest =>
      rw [conjoined_cons, List.filter_append, List.filter_cons_of_neg Bool.false_ne_true, ih]
      rfl

end Symbol

/-- The words are read one by one, and their conjunction is the value of all. -/
theorem Reads.conjoined {ν : α → Truth} {words : List (List (Symbol α))} {values : List Truth}
    (any : words ≠ []) (reads : List.Forall₂ (Reads ν .negation) words values) :
    Reads ν .conjunction (Symbol.conjoined words) (Truth.all values) := by
  induction reads with
  | nil => exact absurd rfl any
  | @cons w v rest values first others ih =>
    cases others with
    | nil =>
      rw [Truth.all, List.foldr_cons, List.foldr_nil, Truth.conjunction_true]
      exact .ofNegation first
    | cons next others =>
      rw [Symbol.conjoined_cons]
      exact .and first (ih nofun)

end PredicateSql
