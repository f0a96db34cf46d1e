import PredicateSql.Proofs.Compilation.Modifiers
import PredicateSql.Proofs.Compilation.Scopes
import PredicateSql.Proofs.Scoping.Words

/-!
Aliases and the name of the root. Rows of the root go by the name of their table, which no generator
knows of. A table whose name is no word that a generator makes is told apart from every alias; for
any other table there are aliases with which a join takes its name.
-/
namespace PredicateSql

open Lowering

variable {n : Nat}

/-- The aliases of a supply are such words as far as a generator makes it. -/
theorem AliasSupply.Makes.isAliasWord {supply : AliasSupply} {count : Nat}
    (makes : supply.Makes count) :
    ∀ i < count, IsAliasWord (supply i) := by
  obtain ⟨g, g', taken⟩ := makes
  intro i below
  obtain ⟨g₁, g₂, found⟩ :=
    AliasGenerator.exists_next? taken (supply i) (List.mem_map_of_mem (List.mem_range.mpr below))
  exact AliasGenerator.next?_isAliasWord found

/-- A single word of a generator is the first one of its supply. -/
theorem AliasGenerator.supply_of_next? {g g' : AliasGenerator} {word : String}
    (found : g.next? = some (word, g')) :
    g.supply 0 = word ∧ g.supply.Makes 1 := by
  have taken : g.take? 1 = some ([word], g') := by
    simp [take?, found]
  have first : g.supply 0 = word := by
    rw [supply, taken]
    rfl
  refine ⟨first, g, g', ?_⟩
  rw [taken, List.range_one, List.map_singleton, first]

namespace Compiler

variable {c : Compiler n}

/-- The first join of a member behind one navigation takes the next alias. -/
theorem exists_first_join {path : MemberPath} {segment : String} {column : ColumnRef} {t : Progress}
    (fresh : c.joins = []) (one : path.navigation = [segment])
    (resolved : resolveColumn (c.context .empty) c.origin path c.progress = (.ok column, t)) :
    t.issued = c.issued + 1 ∧ ∃ join ∈ t.joins, join.aliasName = c.input.aliases c.issued := by
  obtain ⟨-, owner, u, declared, found, walked, -, looked, -⟩ := (resolveColumn_ok _).mp resolved
  obtain ⟨joins, issued⟩ := lookup_kept looked
  rw [joins, issued]
  rw [one] at walked
  obtain ⟨next, v, stepped, ended⟩ := bind_ok.mp walked
  obtain ⟨rfl, rfl⟩ := pure_ok.mp ended
  obtain ⟨navigation, -, -, ⟨join, held, -⟩ | ⟨-, columns, -, -, rfl⟩⟩ := (step_ok _).mp stepped
  · have none : c.progress.joins = [] := fresh
    rw [none] at held
    cases held
  · exact ⟨rfl, _, List.mem_append_right _ List.mem_cons_self, rfl⟩

/-- What joins and subqueries are called after some calls is made by the generator. -/
theorem start_isAliasWord {input : CompilerInput n} {registry : Registry} {calls : List Call}
    {conditions : List (Condition n)}
    (built : (start input registry).Builds calls ((start input registry).after calls) conditions)
    (makes : input.aliases.Makes ((start input registry).after calls).issued) :
    ∀ name ∈ ((start input registry).after calls).joins.map (·.aliasName) ++
      conditions.flatMap Condition.aliases, IsAliasWord name := by
  obtain ⟨added, joined, drawn⟩ := built.draws.drawn
  have all : ((start input registry).after calls).joins = added := joined
  rw [all]
  intro name member
  obtain ⟨i, below, rfl⟩ := drawn.exists_number member
  exact makes.isAliasWord i below

/-- A first ordering that leaves the root joins under the first alias. -/
theorem start_ordered_join (input : CompilerInput n) (registry : Registry) {path : MemberPath}
    {segment : String} (one : path.navigation = [segment])
    (member : input.schema.HasMember input.root path) :
    let c := (start input registry).after [⟨.empty, .modifier (.orderBy path)⟩]
    c.issued = 1 ∧ ∃ join ∈ c.joins, join.aliasName = input.aliases 0 := by
  let first := start input registry
  have linked : Linked first.input.schema first.input.dialect first.origin first.joins := .nil _ _ _
  obtain ⟨column, t, resolved⟩ := (resolves_iff linked).mpr member
  have ordered : first.after [⟨.empty, .modifier (.orderBy path)⟩] = first.ordered t column false :=
    congrArg Prod.snd (order_of_ok rfl resolved)
  intro c
  have last : c = first.ordered t column false := ordered
  rw [last]
  exact exists_first_join rfl one resolved

end Compiler

/-- As long as the supply makes words, no alias is the name of a root that is not such a word, so no
join and no subquery takes the name. Any other root has its name taken by a join, under aliases that
a generator makes. -/
theorem alias_words_are_taken (input : CompilerInput n) (registry : Registry) :
    let root := (Compiler.start input registry).origin.qualifier
    (¬ IsAliasWord root → ∀ calls,
      let start := Compiler.start input registry
      let c := start.after calls
      input.aliases.Makes c.issued →
      (∀ i < c.issued, input.aliases i ≠ root) ∧
        ∃ conditions : List (Condition n), start.Builds calls c conditions ∧
          root ∉ c.joins.map (·.aliasName) ++ conditions.flatMap Condition.aliases) ∧
    (IsAliasWord root → ∀ path segment,
      path.navigation = [segment] → input.schema.HasMember input.root path →
      ∃ g : AliasGenerator, g.issued = [] ∧
        let c := (Compiler.start { input with aliases := g.supply } registry).after
          [⟨.empty, .modifier (.orderBy path)⟩]
        c.input.aliases.Makes c.issued ∧ ∃ join ∈ c.joins, join.aliasName = root) := by
  intro root
  constructor
  · intro other calls start c makes
    obtain ⟨conditions, built⟩ := Compiler.start_builds input registry calls
    refine ⟨fun i below same => ?_, conditions, built, fun taken => ?_⟩
    · exact other (same ▸ makes.isAliasWord i below)
    · exact other (Compiler.start_isAliasWord built makes root taken)
  · intro word path segment one member
    obtain ⟨g, g', unused, found⟩ := AliasGenerator.exists_next?_of_isAliasWord word
    obtain ⟨first, makes⟩ := AliasGenerator.supply_of_next? found
    obtain ⟨issued, join, held, name⟩ :=
      Compiler.start_ordered_join { input with aliases := g.supply } registry one member
    refine ⟨g, unused, ?_, join, held, name.trans first⟩
    rw [issued, Compiler.after_input]
    exact makes

namespace Bookshelf

def renamed (aliases : AliasSupply) : CompilerInput 2 :=
  { books.input with schema := ⟨#v[{ book with table := "book" }, shelf]⟩, aliases := aliases }

theorem origin_renamed (aliases : AliasSupply) :
    (Compiler.start (renamed aliases) .empty).origin.qualifier = "book" := by
  have table : ((renamed aliases).schema.entity (renamed aliases).root).table = "book" := rfl
  have dialect : (renamed aliases).dialect = .postgreSql := rfl
  simp only [Compiler.origin, Compiler.start]
  rw [table, dialect]
  decide

theorem fullness_hasMember (aliases : AliasSupply) :
    (renamed aliases).schema.HasMember 0 (.ofText "Shelf.Full") := by
  have found : ((renamed aliases).schema.entity 0).navigationFor? "Shelf" =
      some ⟨"Shelf", 1, false⟩ := rfl
  exact ⟨by decide, 1, column "Full" .bool, .step found rfl (.forward rfl rfl) .here, rfl⟩

end Bookshelf

/-- No alias takes the name of the books in one table, while there are aliases of which one takes
that of the books in the other. -/
theorem books_are_taken_in_one_table :
    let books := (Compiler.start Bookshelf.input .empty).after Bookshelf.sharedCalls
    let renamed := fun g : AliasGenerator =>
      (Compiler.start (Bookshelf.renamed g.supply) .empty).after
      [⟨.empty, .modifier (.orderBy (.ofText "Shelf.Full"))⟩]
    (books.origin.qualifier = "Books" ∧ Bookshelf.input.aliases.Makes books.issued ∧
      ∀ i < books.issued, Bookshelf.input.aliases i ≠ "Books") ∧
    ∃ g, (renamed g).origin.qualifier = "book" ∧
      (renamed g).input.aliases.Makes (renamed g).issued ∧
      ∃ join ∈ (renamed g).joins, join.aliasName = "book" := by
  intro books renamed
  constructor
  · have name : books.origin.qualifier = "Books" := by
      rw [Compiler.after_origin]
      rfl
    have issued : books.issued = 4 := Bookshelf.issued_sharedCalls
    have makes : Bookshelf.input.aliases.Makes books.issued := by
      rw [issued]
      exact Bookshelf.makes_sharedCalls
    have other : ¬ IsAliasWord "Books" := by decide
    exact ⟨name, makes,
      ((alias_words_are_taken Bookshelf.input .empty).1 other Bookshelf.sharedCalls makes).1⟩
  · have word :
        IsAliasWord (Compiler.start (Bookshelf.renamed .numbered) .empty).origin.qualifier := by
      rw [Bookshelf.origin_renamed]
      decide
    obtain ⟨g, -, makes, join, held, taken⟩ :=
      (alias_words_are_taken (Bookshelf.renamed .numbered) .empty).2 word
      (.ofText "Shelf.Full") "Shelf" (by decide) (Bookshelf.fullness_hasMember .numbered)
    rw [Bookshelf.origin_renamed] at taken
    have name : (renamed g).origin.qualifier = "book" := by
      rw [Compiler.after_origin]
      exact Bookshelf.origin_renamed g.supply
    exact ⟨g, name, makes, join, held, taken⟩

/-- With the aliases of this seed the shelves are joined under the name of the books. -/
theorem shelves_are_joined_as_books :
    let c :=
  (Compiler.start (Bookshelf.renamed (.seeded 713589)) .empty).after [⟨.empty, Bookshelf.shelfFull⟩]
    c.input.aliases.Makes c.issued ∧ (∃ join ∈ c.joins, join.aliasName = c.origin.qualifier) ∧
      c.joins.map (·.sql .postgreSql) =
      ["LEFT JOIN Shelves book ON book.\"Id\" = book.\"ShelfId\""] := by
  intro c
  have issued : c.issued = 1 := by decide +kernel
  have made : ((AliasGenerator.seeded 713589).take? 1).isSome = true := by decide +kernel
  have aliases : c.input.aliases = AliasSupply.seeded 713589 := by
    rw [Compiler.after_input]
    simp only [Compiler.start, Bookshelf.renamed]
  refine ⟨?_, by decide +kernel, by decide +kernel⟩
  rw [issued, aliases]
  exact AliasSupply.makes_seeded made

end PredicateSql
