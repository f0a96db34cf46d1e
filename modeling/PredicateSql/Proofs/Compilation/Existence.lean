import PredicateSql.Proofs.Compilation.Scopes
import PredicateSql.Proofs.Meaning.Existence

/-!
The test for a row of a collection says that there is one, in every accepted predicate and at every
depth.
-/
namespace PredicateSql

variable {n : Nat}

/-- The conditions of several predicates in one scope, with different names in all of them. -/
theorem throughout_existence {V : Type} [DecidableEq V] {schema : Schema n} {d : Dialect}
    {origin : Origin n} {joins : List JoinClause} {calls : List Call}
    {conditions : List (Condition n)}
    (h : List.Forall₂ (fun call => Throughout (Placed schema d) origin joins call.expr) calls
      conditions)
    (distinct : (scopeNames origin joins ++ conditions.flatMap Condition.aliases).Nodup) :
    List.Forall₂ (fun call => Throughout (MeansExistence V schema d) origin joins call.expr) calls
      conditions := by
  induction h with
  | nil => exact .nil
  | cons placed _ ih =>
    rw [List.flatMap_cons] at distinct
    have first : (scopeNames origin joins ++ _).Nodup := distinct.sublist
      ((List.Sublist.refl _).append (List.sublist_append_left _ _))
    have others : (scopeNames origin joins ++ _).Nodup := distinct.sublist
      ((List.Sublist.refl _).append (List.sublist_append_right _ _))
    exact .cons (placed.existence first) (ih others)

/-- As long as the supply makes words, none of which is the name of the root's table, every test for
a row of a collection in an accepted predicate is written as a test for existence, and it is true
just where there is such a row: for every database, every meaning of the tests between columns and
literals, and every outer row. -/
theorem any_means_existence (V : Type) [DecidableEq V] (input : CompilerInput n)
    (registry : Registry) (calls : List Call) :
    let start := Compiler.start input registry
    let c := start.after calls
    input.aliases.Makes c.issued → (∀ i < c.issued, input.aliases i ≠ start.origin.qualifier) →
      ∃ conditions : List (Condition n), c.fragments = conditions.map input.fragment ∧
        List.Forall₂ (fun call => Throughout (MeansExistence V input.schema input.dialect)
          start.origin c.joins call.expr) (start.predicates calls) conditions := by
  intro start c makes foreign
  obtain ⟨conditions, built⟩ := Compiler.start_builds input registry calls
  have lowered := built.lowered c.joins c.registry.enums List.prefix_rfl (.refl _ _)
  have placed := lowered.imp fun call k derived => Lowered.throughout_placed derived
  obtain ⟨added, joined, drawn⟩ := built.draws.drawn
  have all : c.joins = added := joined
  -- No alias is the name of the root's table, so the names of the scope are different as well.
  have distinct : (scopeNames start.origin c.joins ++
      conditions.flatMap Condition.aliases).Nodup := by
    rw [scopeNames, List.cons_append, all]
    refine List.nodup_cons.mpr ⟨fun member => ?_, drawn.nodup makes.distinct⟩
    obtain ⟨i, bound, same⟩ := drawn.exists_number member
    exact foreign i bound same
  exact ⟨conditions, built.fragments, throughout_existence placed distinct⟩

theorem shared_books_mean_existence :
    let start := Compiler.start Bookshelf.input .empty
    let c := start.after Bookshelf.sharedCalls
    Bookshelf.input.aliases.Makes c.issued ∧
      (∀ i < c.issued, Bookshelf.input.aliases i ≠ start.origin.qualifier) ∧
      c.fragments = ["(zleg.[Full] = 1 OR EXISTS (SELECT 1 FROM Books zksn\n" ++
        "INNER JOIN Shelves kfby ON kfby.[Id] = zksn.[ShelfId] AND kfby.[Id] = zleg.[Id]\n" ++
        "LEFT JOIN Shelves lfdx ON lfdx.[Id] = zksn.[ShelfId]\n" ++
        "WHERE (zksn.[Lent] = 1 AND lfdx.[Full] = 1)))"] ∧
      ∃ conditions : List (Condition 2), c.fragments = conditions.map Bookshelf.input.fragment ∧
        List.Forall₂ (fun call => Throughout (MeansExistence Int Bookshelf.schema .sqlite)
          start.origin c.joins call.expr) (start.predicates Bookshelf.sharedCalls) conditions := by
  intro start c
  have issued : c.issued = 4 := Bookshelf.issued_sharedCalls
  have makes : Bookshelf.input.aliases.Makes c.issued := by
    rw [issued]
    exact Bookshelf.makes_sharedCalls
  have foreign : ∀ i < c.issued, Bookshelf.input.aliases i ≠ start.origin.qualifier := by
    rw [issued]
    decide +kernel
  obtain ⟨conditions, fragments, existence⟩ :=
    any_means_existence Int Bookshelf.input .empty Bookshelf.sharedCalls makes foreign
  exact ⟨makes, foreign, by decide +kernel, conditions, fragments, existence⟩

end PredicateSql
