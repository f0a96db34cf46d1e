/-!
Powers of the two bases that numbers are written in.
-/
namespace PredicateSql

def twoTo (k : Nat) : Nat :=
  Nat.pow 2 k

def tenTo (k : Nat) : Nat :=
  Nat.pow 10 k

theorem twoTo_zero : twoTo 0 = 1 := rfl

theorem tenTo_succ (k : Nat) : tenTo (k + 1) = tenTo k * 10 := rfl

end PredicateSql
