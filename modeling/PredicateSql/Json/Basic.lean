import PredicateSql.Number.Double

/-!
JSON values. An object keeps its members in the order in which they are written, repeated names
included; looking up a name gives the first member of that name.
-/
namespace PredicateSql

inductive Json where
  | null
  | bool (value : Bool)
  | int (value : Int)
  | float (value : Double)
  | string (value : String)
  | array (items : List Json)
  | object (members : List (String × Json))

namespace Json

def find? {α : Type} (name : String) : List (String × α) → Option α
  | [] => none
  | (n, value) :: rest => if n = name then some value else find? name rest

def member? (name : String) : Json → Option Json
  | object members => find? name members
  | _ => none

def countName {α : Type} (name : String) (members : List (String × α)) : Nat :=
  members.countP (·.1 = name)

/-- The member of a name that must occur once. -/
def single? {α : Type} (name : String) (members : List (String × α)) : Option α :=
  if countName name members = 1 then find? name members else none

/-- The name of a constant: a string, or an object whose only member it names and whose content is
null. -/
def constantName? : Json → Option String
  | string s => some s
  | object [(name, null)] => some name
  | _ => none

mutual

/-- How deep a value is nested; a scalar has depth one. -/
def depth : Json → Nat
  | array items => depthItems items + 1
  | object members => depthMembers members + 1
  | _ => 1

def depthItems : List Json → Nat
  | [] => 0
  | item :: rest => max (depth item) (depthItems rest)

def depthMembers : List (String × Json) → Nat
  | [] => 0
  | (_, value) :: rest => max (depth value) (depthMembers rest)

end

mutual

/-- Lays `above` on top of `base`: objects are merged member by member, and any other value
replaces what is below it. -/
def merge (base above : Json) : Json :=
  match base, above with
  | object lower, object upper =>
    object (mergeMembers lower upper ++
      upper.filter fun (name, _) => (find? name lower).isNone)
  | _, above => above
termination_by structural base

/-- The members of the lower object, each merged with the member of its name above. -/
def mergeMembers : List (String × Json) → List (String × Json) → List (String × Json)
  | [], _ => []
  | (name, value) :: rest, upper =>
    (name, match find? name upper with
      | some above => merge value above
      | none => value) :: mergeMembers rest upper
termination_by structural members => members

end

mutual

/-- Keeps only the last of several members of one name, at every depth. -/
def lastWins : Json → Json
  | array items => array (lastWinsItems items)
  | object members => object (lastWinsMembers members)
  | value => value

def lastWinsItems : List Json → List Json
  | [] => []
  | item :: rest => lastWins item :: lastWinsItems rest

def lastWinsMembers : List (String × Json) → List (String × Json)
  | [] => []
  | (name, value) :: rest =>
    if rest.any (·.1 = name) then lastWinsMembers rest
    else (name, lastWins value) :: lastWinsMembers rest

end

end Json
end PredicateSql
