/-!
The operators and methods that predicates may use.
-/
namespace PredicateSql

inductive BinaryOp where
  | and | or | equal | notEqual | lessThan | lessThanOrEqual | greaterThan | greaterThanOrEqual
deriving DecidableEq, Repr

namespace BinaryOp

/-- The spelling of the operator in SQL. -/
def sql : BinaryOp → String
  | and => "AND"
  | or => "OR"
  | equal => "="
  | notEqual => "<>"
  | lessThan => "<"
  | lessThanOrEqual => "<="
  | greaterThan => ">"
  | greaterThanOrEqual => ">="

def isLogical : BinaryOp → Bool
  | and | or => true
  | _ => false

end BinaryOp

inductive Method where
  | contains | startsWith | endsWith | isNullOrEmpty | hasValue | any
deriving DecidableEq, Repr

namespace Method

def name : Method → String
  | contains => "Contains"
  | startsWith => "StartsWith"
  | endsWith => "EndsWith"
  | isNullOrEmpty => "IsNullOrEmpty"
  | hasValue => "HasValue"
  | any => "Any"

def all : List Method :=
  [contains, startsWith, endsWith, isNullOrEmpty, hasValue, any]

def ofName? (name : String) : Option Method :=
  all.find? (·.name = name)

end Method
end PredicateSql
