/-!
Conditions that are enclosed in one pair of parentheses, so that they can be joined by `AND` as they
stand.
-/
namespace PredicateSql

/-- Reads on with `depth` parentheses open, inside a quoted literal or not: no parenthesis closes
the outermost one before the last character, and none is open at the end. -/
def closesAtEnd : Nat → Bool → List Char → Bool
  | depth, _, [] => depth = 0
  | depth, quoted, c :: cs =>
    if c = '\'' then closesAtEnd depth (!quoted) cs
    else if quoted then closesAtEnd depth quoted cs
    else if c = '(' then closesAtEnd (depth + 1) quoted cs
    else if c = ')' then
      if depth ≤ 1 && !cs.isEmpty then false else closesAtEnd (depth - 1) quoted cs
    else closesAtEnd depth quoted cs

/-- Whether one pair of parentheses spans all of the text. -/
def isParenthesized (sql : String) : Bool :=
  let cs := sql.toList
  cs.head? = some '(' && cs.getLast? = some ')' && closesAtEnd 0 false cs

/-- The text in parentheses, unless it is enclosed already. -/
def parenthesize (sql : String) : String :=
  if isParenthesized sql then sql else "(" ++ sql ++ ")"

end PredicateSql
