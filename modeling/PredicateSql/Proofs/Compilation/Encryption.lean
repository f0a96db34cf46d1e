import PredicateSql.Proofs.Compilation.Acceptance
import PredicateSql.Proofs.Encryption.Tests

/-!
Literals in accepted predicates. An encrypted column is tested against ciphertext only, and no other
column is, wherever in a predicate the test stands.
-/
namespace PredicateSql

variable {n : Nat}

namespace Bookshelf

/-- The readers who borrow books; the numbers of their cards are secret. -/
def reader : Entity 1 where
  typeName := "Reader"
  table := "Readers"
  columns := [{ column "Id" .int with isPrimaryKey := true }, column "Name" .string,
    { column "Card" .string with cipher := some ⟨"card key", .key128⟩ }]
  navigations := []

def readers : Compiler 1 :=
  .start ⟨⟨#v[reader]⟩, 0, .mssql, .numbered, none, ""⟩ .empty

end Bookshelf

end PredicateSql
