import PredicateSql.Toml.Scalar

/-!
Tables that stand for dates. A table whose first key is a reserved one is the date or time that the
string under that key gives; its other entries do not count.
-/
namespace PredicateSql.Toml

/-- The key that makes a table stand for a date or time. -/
def momentKey : String :=
  "$__toml_private_datetime"

/-- The date or time that a string gives in full. -/
def momentOf? : Toml → Option Toml
  | string text =>
    match moment? text.toList with
    | some (found, []) => some found
    | _ => none
  | _ => none

mutual

/-- The value with a date in place of every table that stands for one; none if such a table does not
give a date. -/
def withMoments? : Toml → Option Toml
  | array items => (withMomentsItems? items).map array
  | table entries =>
    match entries.head? with
    | some (key, value) =>
      if key = momentKey then momentOf? value else (withMomentsEntries? entries).map table
    | none => some (table [])
  | value => some value

def withMomentsItems? : List Toml → Option (List Toml)
  | [] => some []
  | item :: rest => do some ((← withMoments? item) :: (← withMomentsItems? rest))

def withMomentsEntries? : List (String × Toml) → Option (List (String × Toml))
  | [] => some []
  | (key, value) :: rest => do
    some ((key, ← withMoments? value) :: (← withMomentsEntries? rest))

end

end PredicateSql.Toml
