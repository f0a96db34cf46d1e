import PredicateSql.Expr.Bindings
import PredicateSql.Proofs.Quoting.Lexing
import PredicateSql.Sql.Token

/-!
Texts with holes. A hole is the place of a string literal and says which string stands there: one
that is bound to a name, by itself or inside a list. What a text is enclosed in, and where its
literals end, does not depend on the strings in its holes.
-/
namespace PredicateSql

/-- What stands at a position of nested lists. -/
def Value.at? : Value → List Nat → Option Value
  | v, [] => some v
  | .list items, i :: rest => items[i]?.bind fun item => item.at? rest
  | _, _ :: _ => none

/-- The string at a position of what is bound to a name. -/
def Bindings.string? (b : Bindings) (name : String) (position : List Nat) : Option String :=
  match (b.get? name).bind (·.at? position) with
  | some (.string text) => some text
  | _ => none

/-- The place of a literal: which string it is made of, and which wildcards it has. -/
structure Hole where
  name : String
  position : List Nat
  wildcard : Wildcard
deriving DecidableEq, Repr

def Hole.string? (h : Hole) (b : Bindings) : Option String :=
  b.string? h.name h.position

def Hole.text (h : Hole) (b : Bindings) : String :=
  h.wildcard.apply ((h.string? b).getD "")

inductive Piece where
  | sql (text : String)
  | hole (hole : Hole)
deriving DecidableEq, Repr

namespace Piece

def fill (d : Dialect) (b : Bindings) : Piece → String
  | sql text => text
  | hole h => d.stringLiteral (h.text b)

def fillAll (d : Dialect) (b : Bindings) (pieces : List Piece) : String :=
  String.join (pieces.map (fill d b))

variable {d : Dialect} {b : Bindings}

@[simp]
theorem fillAll_nil : fillAll d b [] = "" := rfl

@[simp]
theorem fillAll_cons (p : Piece) (pieces : List Piece) :
    fillAll d b (p :: pieces) = p.fill d b ++ fillAll d b pieces := by
  simp [fillAll]

@[simp]
theorem fillAll_append (pieces pieces' : List Piece) :
    fillAll d b (pieces ++ pieces') = fillAll d b pieces ++ fillAll d b pieces' := by
  simp [fillAll]

/-- Every literal that begins in the text outside the holes ends in it. -/
def Closed (pieces : List Piece) : Prop :=
  ∀ text, sql text ∈ pieces → QuotesClosed text

theorem Closed.append {pieces pieces' : List Piece} (front : Closed pieces)
    (back : Closed pieces') : Closed (pieces ++ pieces') := by
  intro text member
  exact (List.mem_append.mp member).elim (front text) (back text)

theorem closed_sql {text : String} (closed : QuotesClosed text) : Closed [sql text] := by
  intro text' member
  obtain rfl : text' = text := by simpa using member
  exact closed

theorem closed_hole (h : Hole) : Closed [hole h] := by
  intro text member
  simp at member

theorem Closed.fillAll {pieces : List Piece} (closed : Closed pieces) :
    QuotesClosed (fillAll d b pieces) := by
  induction pieces with
  | nil => rfl
  | cons p rest ih =>
    rw [fillAll_cons]
    refine QuotesClosed.append ?_ (ih fun text member =>
      closed text (List.mem_cons_of_mem _ member))
    cases p with
    | sql text => exact closed text List.mem_cons_self
    | hole h => exact quotesClosed_stringLiteral d _

/-- Every hole is followed by text, which does not begin with a quote. -/
inductive Separated : List Piece → Prop
  | nil : Separated []
  | sql {text rest} (others : Separated rest) : Separated (sql text :: rest)
  | hole {h c text rest} (other : c ≠ '\'') (start : text.toList.head? = some c)
      (others : Separated (.sql text :: rest)) : Separated (hole h :: .sql text :: rest)

namespace Separated

variable {pieces pieces' : List Piece}

theorem append (front : Separated pieces) (back : Separated pieces') :
    Separated (pieces ++ pieces') := by
  induction front with
  | nil => exact back
  | sql _ ih => exact .sql ih
  | hole other start _ ih => exact .hole other start ih

/-- The literal in a hole ends where it was written to end. -/
theorem terminates (separated : Separated pieces) {before after : List Piece} {h : Hole}
    (split : pieces = before ++ .hole h :: after) : Terminates (fillAll d b after).toList := by
  induction separated generalizing before with
  | nil => simp at split
  | sql others ih =>
    cases before with
    | nil => cases split
    | cons p before => exact ih (List.cons.inj split).2
  | hole other start others ih =>
    cases before with
    | nil =>
      obtain ⟨-, rfl⟩ := List.cons.inj split
      obtain ⟨cs, chars⟩ := List.head?_eq_some_iff.mp start
      simpa [Terminates, fill, chars] using other
    | cons p before => exact ih (List.cons.inj split).2

end Separated

section Enclosed

variable (d b) (b' : Bindings) {pieces : List Piece}

/-- Whatever is in a hole, it begins and ends with a quote. -/
theorem fill_ends (p : Piece) :
    (p.fill d b).toList.head? = (p.fill d b').toList.head? ∧
      (p.fill d b).toList.getLast? = (p.fill d b').toList.getLast? := by
  cases p with
  | sql text => exact ⟨rfl, rfl⟩
  | hole h =>
    have last : ∀ cs : List Char, ('\'' :: (cs ++ ['\''])).getLast? = some '\'' := fun cs => by
      rw [← List.cons_append, List.getLast?_concat]
    simp only [fill, toList_stringLiteral, last, List.head?_cons, and_self]

theorem fillAll_ends (pieces : List Piece) :
    (fillAll d b pieces).toList.head? = (fillAll d b' pieces).toList.head? ∧
      (fillAll d b pieces).toList.getLast? = (fillAll d b' pieces).toList.getLast? := by
  induction pieces with
  | nil => simp only [fillAll_nil, and_self]
  | cons p rest ih =>
    obtain ⟨first, last⟩ := ih
    obtain ⟨first', last'⟩ := p.fill_ends d b b'
    simp only [fillAll_cons, String.toList_append, List.head?_append,
      List.getLast?_append, first, last, first', last', and_self]

theorem closesAtEnd_fillAll (closed : Closed pieces) (depth : Nat) :
    closesAtEnd depth false (fillAll d b pieces).toList =
      closesAtEnd depth false (fillAll d b' pieces).toList := by
  induction pieces generalizing depth with
  | nil => simp only [fillAll_nil]
  | cons p rest ih =>
    have others := ih fun text member => closed text (List.mem_cons_of_mem _ member)
    simp only [fillAll_cons, String.toList_append]
    cases p with
    | sql text =>
      have outside : quotedAfter false text.toList = false := closed text List.mem_cons_self
      refine closesAtEnd_append_congr (fillAll_ends d b b' rest).1 text.toList false ?_ depth
      rw [outside]
      exact others
    | hole h =>
      simp only [fill, closesAtEnd_stringLiteral]
      exact others depth

/-- Whether a text is in parentheses does not depend on the strings in its holes. -/
theorem isParenthesized_fillAll (closed : Closed pieces) :
    isParenthesized (fillAll d b pieces) = isParenthesized (fillAll d b' pieces) := by
  obtain ⟨first, last⟩ := fillAll_ends d b b' pieces
  simp only [isParenthesized, first, last, closesAtEnd_fillAll d b b' closed]

end Enclosed

def enclosed (pieces : List Piece) : List Piece :=
  [sql "("] ++ pieces ++ [sql ")"]

theorem fillAll_enclosed (pieces : List Piece) :
    fillAll d b (enclosed pieces) = "(" ++ fillAll d b pieces ++ ")" := by
  simp [enclosed, fill, String.append_assoc]

end Piece
end PredicateSql
