import PredicateSql.Number.Layout
import PredicateSql.Calendar.Basic
import PredicateSql.Uuid

/-!
Literal values of predicates: the scalars that a column can be compared with, and lists of values.
-/
namespace PredicateSql

inductive Value where
  | null
  | bool (value : Bool)
  | int (value : Int64)
  | float (value : Double)
  | string (value : String)
  | date (value : Date)
  | dateTime (value : Moment)
  /-- A moment of universal time. -/
  | dateTimeUtc (value : Moment)
  | time (value : Time)
  | uuid (value : Uuid)
  | list (items : List Value)

/-- How a value is classed when it is written as a literal. -/
inductive ValueClass where
  | null | bool | numeric | decimal | string | date | guid | list
deriving DecidableEq, Repr

namespace Value

/-- Induction over values that reaches the items of lists. -/
@[elab_as_elim]
theorem inductionOn {motive : Value → Prop} (v : Value)
    (list : ∀ items, (∀ item ∈ items, motive item) → motive (.list items))
    (scalar : ∀ v, (∀ items, v ≠ .list items) → motive v) : motive v :=
  @Value.rec motive (fun items => ∀ item ∈ items, motive item)
    (scalar _ nofun) (fun _ => scalar _ nofun) (fun _ => scalar _ nofun) (fun _ => scalar _ nofun)
    (fun _ => scalar _ nofun) (fun _ => scalar _ nofun) (fun _ => scalar _ nofun)
    (fun _ => scalar _ nofun) (fun _ => scalar _ nofun) (fun _ => scalar _ nofun)
    (fun items inner => list items inner) (fun _ h => nomatch h)
    (fun _ _ first rest _ h => (List.mem_cons.mp h).elim (fun same => same ▸ first) (rest _)) v

def valueClass : Value → ValueClass
  | null => .null
  | bool _ => .bool
  | int _ => .numeric
  | float _ => .decimal
  | string _ => .string
  | date _ | dateTime _ | dateTimeUtc _ | time _ => .date
  | uuid _ => .guid
  | list _ => .list

def isNull : Value → Bool
  | null => true
  | _ => false

def bool? : Value → Option Bool
  | bool b => some b
  | _ => none

mutual

/-- The value as plain text, without quotes. -/
def text : Value → String
  | null => "NULL"
  | bool b => if b then "true" else "false"
  | int n => toString n.toInt
  | float x => x.text
  | string s => s
  | date d => d.text
  | dateTime m => m.text " "
  | dateTimeUtc m => m.text " "
  | time t => t.text
  | uuid u => u.text
  | list items => "[" ++ String.intercalate ", " (texts items) ++ "]"

def texts : List Value → List String
  | [] => []
  | item :: rest => item.text :: texts rest

end

mutual

/-- Equality of values; floating-point numbers are compared as numbers, so NaN differs from
itself. -/
def same : Value → Value → Bool
  | null, null => true
  | bool a, bool b => a == b
  | int a, int b => a == b
  | float a, float b => a.equals b
  | string a, string b => a == b
  | date a, date b => a == b
  | dateTime a, dateTime b => a == b
  | dateTimeUtc a, dateTimeUtc b => a == b
  | time a, time b => a == b
  | uuid a, uuid b => a == b
  | list a, list b => sameItems a b
  | _, _ => false

def sameItems : List Value → List Value → Bool
  | [], [] => true
  | a :: as, b :: bs => same a b && sameItems as bs
  | _, _ => false

end

def ofOption {α : Type} (of : α → Value) : Option α → Value
  | some x => of x
  | none => null

def ofList {α : Type} (of : α → Value) (items : List α) : Value :=
  list (items.map of)

end Value
end PredicateSql
