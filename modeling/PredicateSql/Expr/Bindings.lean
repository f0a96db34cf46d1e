import PredicateSql.Error

/-!
Values bound to names.
-/
namespace PredicateSql

structure Bindings where
  entries : List (String × Value)

namespace Bindings

def empty : Bindings := ⟨[]⟩

def bind (b : Bindings) (name : String) (value : Value) : Bindings :=
  ⟨(name, value) :: b.entries.filter (·.1 ≠ name)⟩

def get? (b : Bindings) (name : String) : Option Value :=
  b.entries.lookup name

/-- The value of a name that must be bound. -/
def resolve (b : Bindings) (name : String) : Except Error Value :=
  match b.get? name with
  | some value => .ok value
  | none => .error (.unbound name)

def isEmpty (b : Bindings) : Bool :=
  b.entries.isEmpty

end Bindings
end PredicateSql
