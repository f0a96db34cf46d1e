import PredicateSql.Proofs.Compilation.Conditions

/-!
Every name in a query stands for the rows of one path. Joins and columns name the rows that their
paths lead to, in the query as in each subquery of it; a subquery takes one name from outside; and
no alias is introduced twice.
-/
namespace PredicateSql

variable {n : Nat}

namespace Bookshelf

def shared : Expr :=
  .or shelfFull (.any (.ofText "Shelf.Books") (some (.and lent shelfFull)))

def sharedCalls : List Call :=
  [⟨.empty, shared⟩, ⟨.empty, .modifier (.orderBy (.ofText "Shelf.Id"))⟩]

theorem issued_sharedCalls : ((Compiler.start input .empty).after sharedCalls).issued = 4 := by
  decide +kernel

theorem makes_sharedCalls : input.aliases.Makes 4 := by
  have made : ((AliasGenerator.seeded 1).take? 4).isSome = true := by decide +kernel
  have aliases : input.aliases = AliasSupply.seeded 1 := by simp only [input]
  rw [aliases]
  exact AliasSupply.makes_seeded made

end Bookshelf

end PredicateSql
