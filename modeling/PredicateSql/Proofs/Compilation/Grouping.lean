import PredicateSql.Proofs.Compilation.Conditions
import PredicateSql.Proofs.Meaning.Conjunction
import PredicateSql.Proofs.Quoting.Balancing

/-!
Conditions joined by `AND`. Each is in one pair of parentheses, so that their conjunction can be cut
into them again, one for each accepted predicate.
-/
namespace PredicateSql

open Lowering

variable {n : Nat}

/-- No quote and no parenthesis is in the names of the database or in an alias. -/
structure CompilerInput.UnmarkedNames (input : CompilerInput n) : Prop where
  tables : ∀ i, Unmarked (input.schema.entity i).table
  columns : ∀ i, ∀ column ∈ (input.schema.entity i).columns, Unmarked column.column
  aliases : ∀ i, Unmarked (input.aliases i)

/-- The aliases of a generator have no mark in them, so that the names of the database are all that
matters. -/
theorem unmarkedNames_generated {input : CompilerInput n} {g : AliasGenerator}
    (aliases : input.aliases = g.supply) (tables : ∀ i, Unmarked (input.schema.entity i).table)
    (columns : ∀ i, ∀ column ∈ (input.schema.entity i).columns, Unmarked column.column) :
    input.UnmarkedNames :=
  ⟨tables, columns, aliases ▸ g.unmarked_supply⟩

/-- A call whose predicate is a formula with labelled leaves. -/
structure LabelledCall (α : Type) where
  bindings : Bindings
  formula : Formula α

namespace LabelledCall

variable {α : Type}

def call (a : LabelledCall α) : Call :=
  ⟨a.bindings, a.formula.expr⟩

/-- The leaves that are no literals, each with the bindings that it is lowered under. -/
def leaves (a : LabelledCall α) : List (Bindings × α × Expr) :=
  (a.formula.openLeaves a.bindings).map (a.bindings, ·)

def value (a : LabelledCall α) (ν : α → Truth) : Truth :=
  a.formula.value a.bindings ν

end LabelledCall

namespace Compiler

section Meaning

variable {α : Type}

/-- The symbol is what the leaf by itself is written as, between the state of the compiler and
another one. -/
def Shows (c : Compiler n) (t : Progress) (a : Symbol α) (leaf : Bindings × α × Expr) : Prop :=
  Depicts (c.context leaf.1) c.origin c.progress t a leaf.2

/-- The text means the predicate of the call wherever it stands as an operand of `AND`: whatever
formula the predicate is, the text is a word whose variables are the leaves and that is read with
the truth value of the formula. -/
def Means (c : Compiler n) (t : Progress) (call : Call) (text : String) : Prop :=
  ∀ (α : Type) (a : LabelledCall α), a.call = call →
    ∃ w : List (Symbol α), Symbol.text c.input.dialect w = text ∧
      List.Forall₂ (c.Shows t) (w.filter Symbol.isVariable) a.leaves ∧
      ∀ ν, Reads ν .negation w (a.value ν)

/-- The text means the predicates of all the calls: its variables are all their leaves, and read by
the precedence of SQL it has the truth value of their conjunction, and no other. -/
def MeansAll (c : Compiler n) (t : Progress) (calls : List Call) (text : String) : Prop :=
  ∀ (α : Type) (all : List (LabelledCall α)), all.map (·.call) = calls →
    ∃ w : List (Symbol α), Symbol.text c.input.dialect w = text ∧
      List.Forall₂ (c.Shows t) (w.filter Symbol.isVariable) (all.flatMap (·.leaves)) ∧
      ∀ ν v, Reads ν .disjunction w v ↔ v = Truth.all (all.map (·.value ν))

/-- What a text means stays when more is done before and after. -/
theorem Means.mono {c c' : Compiler n} {t t' : Progress} {call : Call} {text : String}
    (means : c'.Means t call text) (input : c'.input = c.input)
    (before : c.progress.Grows c.input.schema c'.progress) (after : t.Grows c.input.schema t') :
    c.Means t' call text := by
  obtain ⟨input', joins, fragments, orderBy, skip, take, issued, registry⟩ := c'
  obtain rfl : input' = c.input := input
  intro α a same
  obtain ⟨w, written, leaves, reads⟩ := means α a same
  exact ⟨w, written, leaves.imp fun _ _ shows => Depicts.mono shows before after, reads⟩

/-- The words of texts that mean their calls. -/
theorem exists_words {c : Compiler n} {t : Progress} {additions : List (Call × String)}
    (means : ∀ addition ∈ additions, c.Means t addition.1 addition.2) {all : List (LabelledCall α)}
    (same : all.map (·.call) = additions.map (·.1)) :
    ∃ words : List (List (Symbol α)),
      words.map (Symbol.text c.input.dialect) = additions.map (·.2) ∧
      List.Forall₂ (c.Shows t) (words.flatMap (·.filter Symbol.isVariable))
        (all.flatMap (·.leaves)) ∧
      ∀ ν, List.Forall₂ (Reads ν .negation) words (all.map (·.value ν)) := by
  induction additions generalizing all with
  | nil =>
    obtain rfl := List.map_eq_nil_iff.mp same
    exact ⟨[], rfl, .nil, fun ν => .nil⟩
  | cons addition rest ih =>
    obtain ⟨a, others, rfl, first, same⟩ := List.map_eq_cons_iff.mp same
    obtain ⟨w, text, leaves, value⟩ := means addition List.mem_cons_self α a first
    obtain ⟨words, texts, more, values⟩ :=
      ih (fun a held => means a (List.mem_cons_of_mem _ held)) same
    exact ⟨w :: words, congrArg₂ List.cons text texts, List.rel_append leaves more,
      fun ν => .cons (value ν) (values ν)⟩

/-- Texts that mean their calls mean all of them together. -/
theorem meansAll_intercalate {c : Compiler n} {t : Progress} {additions : List (Call × String)}
    (any : additions ≠ []) (means : ∀ addition ∈ additions, c.Means t addition.1 addition.2) :
    c.MeansAll t (additions.map (·.1)) (String.intercalate " AND " (additions.map (·.2))) := by
  intro α all same
  obtain ⟨words, texts, leaves, values⟩ := exists_words means same
  have several : words ≠ [] := by
    rintro rfl
    exact any (List.map_eq_nil_iff.mp texts.symm)
  have reading : ∀ ν,
      Reads ν .disjunction (Symbol.conjoined words) (Truth.all (all.map (·.value ν))) :=
    fun ν => .ofConjunction (.conjoined several (values ν))
  refine ⟨Symbol.conjoined words, ?_, ?_,
    fun ν v => ⟨fun other => other.value_unique (reading ν), ?_⟩⟩
  · rw [Symbol.text_conjoined, texts]
  · rw [Symbol.filter_conjoined]
    exact leaves
  · rintro rfl
    exact reading ν

end Meaning

theorem unmarkedNames_context {c : Compiler n} (names : c.input.UnmarkedNames)
    (bindings : Bindings) :
    (c.context bindings).UnmarkedNames :=
  fun mark isMark => ⟨⟨fun i => names.tables i mark isMark,
    fun i column held => names.columns i column held mark isMark⟩,
    fun i => names.aliases i mark isMark⟩

theorem unmarked_origin {c : Compiler n} (names : c.input.UnmarkedNames) :
    Unmarked c.origin.qualifier :=
  fun mark isMark => Dialect.lacks_tableName isMark _ (names.tables _ mark isMark)

/-- What a single call adds: the condition of a predicate is in one pair of parentheses, and means
the predicate. -/
structure AddsSafely (c : Compiler n) (call : Call) : Prop where
  spans : ∀ addition ∈ c.additions [call], Spans addition.2
  means : ∀ addition ∈ c.additions [call],
    c.Means (c.add call.bindings call.expr).2.progress addition.1 addition.2
  joins : (c.add call.bindings call.expr).2.progress.IsUnmarked c.input.dialect

/-- A call that adds no condition. -/
theorem AddsSafely.of_kept {c : Compiler n} {call : Call}
    (fragments : (c.add call.bindings call.expr).2.fragments = c.fragments)
    (joins : (c.add call.bindings call.expr).2.progress.IsUnmarked c.input.dialect) :
    c.AddsSafely call := by
  have none := additions_of_kept fragments
  refine ⟨?_, ?_, joins⟩
  · rw [none]
    exact nofun
  · rw [none]
    exact nofun

/-- A condition means the predicate that it was derived for. -/
theorem means_fragment {c : Compiler n} {call : Call} {k : Condition n} {t : Progress}
    (derived : Lowers (c.context call.bindings) c.origin call.expr c.progress k t) :
    c.Means (c.extend t k).progress call (c.input.fragment k) := by
  rintro α a rfl
  obtain ⟨w, text, leaves, reads⟩ := exists_parenthesized derived
  rw [progress_extend derived]
  refine ⟨w, text, ?_, reads⟩
  rw [LabelledCall.leaves, List.forall₂_map_right_iff]
  exact leaves

/-- A call whose predicate became a condition. -/
theorem AddsSafely.of_lowers {c : Compiler n} {call : Call} {k : Condition n} {t : Progress}
    (names : c.input.UnmarkedNames) (plain : c.progress.IsUnmarked c.input.dialect)
    (run : (c.add call.bindings call.expr).2 = c.extend t k)
    (derived : Lowers (c.context call.bindings) c.origin call.expr c.progress k t) :
    c.AddsSafely call := by
  obtain ⟨joins, balanced⟩ :=
    derived.balanced (unmarkedNames_context names call.bindings) plain (unmarked_origin names)
  have one := additions_of_extend run
  refine ⟨?_, ?_, ?_⟩
  · rw [one]
    intro addition member
    obtain rfl := List.mem_singleton.mp member
    exact balanced.spans_parenthesize
  · rw [one]
    intro addition member
    obtain rfl := List.mem_singleton.mp member
    rw [run]
    exact means_fragment derived
  · rw [run]
    exact joins

theorem add_safely {c : Compiler n} (names : c.input.UnmarkedNames)
    (plain : c.progress.IsUnmarked c.input.dialect) (call : Call) : c.AddsSafely call := by
  have context := unmarkedNames_context names
  have origin := unmarked_origin names
  rcases c.add_outcome call.bindings call.expr with
    ⟨err, c₁, run, ⟨⟨t, rfl⟩, -, -⟩⟩ | ⟨c₁, run, accepts⟩
  · refine .of_kept ?_ ?_
    · rw [run]
      rfl
    · rw [run]
      exact plain
  · have after : (c.add call.bindings call.expr).2 = c₁ := by rw [run]
    generalize shown : call.expr = e at accepts
    cases accepts with
    | condition predicate derived =>
      rw [← shown] at derived
      exact .of_lowers names plain after derived
    | ordered ordering unset resolved =>
      refine .of_kept (by rw [after]; rfl) ?_
      rw [after]
      exact (resolveColumn_unmarked (context _) plain origin resolved).1
    | ignored | skip | take =>
      refine .of_kept (by rw [after]) ?_
      rw [after]
      exact plain

/-- What a sequence of calls adds. -/
theorem after_safely {c : Compiler n} (names : c.input.UnmarkedNames)
    (plain : c.progress.IsUnmarked c.input.dialect)
    (linked : Linked c.input.schema c.input.dialect c.origin c.joins) (calls : List Call) :
    (c.after calls).fragments = c.fragments ++ (c.additions calls).map (·.2) ∧
      (c.additions calls).map (·.1) = c.predicates calls ∧
      ∀ addition ∈ c.additions calls,
        Spans addition.2 ∧ c.Means (c.after calls).progress addition.1 addition.2 := by
  obtain ⟨fragments, added⟩ := c.after_additions calls
  refine ⟨fragments, added, ?_⟩
  clear fragments added
  induction calls generalizing c with
  | nil => exact nofun
  | cons call rest ih =>
    have first := add_safely names plain call
    have input := c.add_input call.bindings call.expr
    have joins := first.joins
    obtain ⟨_, built⟩ := c.add_builds linked call
    have linked' := c.after_linked linked [call]
    rw [← input] at names joins
    obtain ⟨_, later⟩ := (c.add call.bindings call.expr).2.after_builds linked' rest
    have grows := later.grows
    rw [input] at grows
    rw [additions_cons]
    intro addition member
    rcases List.mem_append.mp member with single | more
    · exact ⟨first.spans addition single,
        (first.means addition single).mono rfl (.refl _ _) grows⟩
    · obtain ⟨spans, means⟩ := ih names joins linked' addition more
      exact ⟨spans, means.mono input built.grows (.refl _ _)⟩

end Compiler

/-- If no quote and no parenthesis is in the names, each condition of a query is in one pair of
parentheses that begins and ends it, and there is one for each accepted predicate, in the order of
the calls. So all conditions together, cut at each `AND` outside parentheses and literals, are these
conditions again; and read by the precedence of SQL they are the conjunction of the accepted
predicates. -/
theorem conditions_are_joined_safely {input : CompilerInput n} (names : input.UnmarkedNames)
    (registry : Registry) (calls : List Call) :
    let start := Compiler.start input registry
    let c := start.after calls
    c.fragments = (start.additions calls).map (·.2) ∧
      (start.additions calls).map (·.1) = start.predicates calls ∧
      (∀ fragment ∈ c.fragments, Spans fragment) ∧
      ∀ q, c.finish.1 = .ok q →
        (start.predicates calls = [] → q.whereSql? = none) ∧
        (start.predicates calls ≠ [] → ∃ sql, q.whereSql? = some sql ∧
          conjuncts? sql = some c.fragments ∧
          start.MeansAll c.progress (start.predicates calls) sql) := by
  intro start c
  have plain : start.progress.IsUnmarked start.input.dialect := fun _ _ => nofun
  obtain ⟨fragments, added, safe⟩ :=
    Compiler.after_safely (c := start) names plain (.nil _ _ _) calls
  have whole : c.fragments = (start.additions calls).map (·.2) := fragments
  have each : ∀ fragment ∈ c.fragments, Spans fragment := by
    rw [whole]
    intro fragment member
    obtain ⟨addition, held, rfl⟩ := List.mem_map.mp member
    exact (safe addition held).1
  have none_iff : start.predicates calls = [] ↔ c.fragments = [] := by
    rw [whole, ← added, List.map_eq_nil_iff, List.map_eq_nil_iff]
  refine ⟨whole, added, each, fun q finished => ?_⟩
  obtain ⟨-, -, -, -, -, same, -⟩ := Compiler.finish_ok finished
  rw [CompiledQuery.whereSql?, same]
  refine ⟨fun none => ?_, fun some' => ?_⟩
  · rw [none_iff.mp none]
    rfl
  · have any : c.fragments ≠ [] := fun none => some' (none_iff.mpr none)
    refine ⟨String.intercalate " AND " c.fragments, ?_, conjuncts?_intercalate any each, ?_⟩
    · rw [if_neg (by simpa using any)]
    · have several : start.additions calls ≠ [] :=
        fun none => any (by rw [whole, none, List.map_nil])
      rw [whole, ← added]
      exact Compiler.meansAll_intercalate several fun addition held => (safe addition held).2

namespace Bookshelf

/-- Books with a wild title or lent ones; a predicate that is rejected, and a modifier; books on
shelves with no lent book; and books without a title. -/
def wildCalls : List Call :=
  [⟨.empty, .or lent (.contains title (.constant (.string "') OR ('")))⟩,
    ⟨.empty, .and shelfFull title⟩, ⟨.empty, .modifier (.skip 2)⟩,
    ⟨.empty, .not (.any (.ofText "Shelf.Books") (some lent))⟩,
    ⟨.empty, .isNullOrEmpty title⟩]

theorem input_unmarked : input.UnmarkedNames := by
  have aliases : input.aliases = (AliasGenerator.seeded 1).supply := by
    simp only [input]
    rfl
  exact unmarkedNames_generated aliases (by decide) (by decide)

end Bookshelf

theorem wild_conditions_are_joined_safely :
    let start := Compiler.start Bookshelf.input .empty
    let c := start.after Bookshelf.wildCalls
    Bookshelf.input.UnmarkedNames ∧ (start.predicates Bookshelf.wildCalls).length = 3 ∧
      (∀ fragment ∈ c.fragments, Spans fragment) ∧
      ∃ q sql, c.finish.1 = .ok q ∧ q.whereSql? = some sql ∧ conjuncts? sql = some c.fragments ∧
        start.MeansAll c.progress (start.predicates Bookshelf.wildCalls) sql := by
  intro start c
  obtain ⟨-, -, spans, together⟩ :=
    conditions_are_joined_safely Bookshelf.input_unmarked .empty Bookshelf.wildCalls
  have count : (start.predicates Bookshelf.wildCalls).length = 3 := by decide +kernel
  have keyed : c.finish.1.toBool = true := by decide +kernel
  refine ⟨Bookshelf.input_unmarked, count, spans, ?_⟩
  rcases finished : c.finish.1 with err | q
  · rw [finished] at keyed
    cases keyed
  · have any : start.predicates Bookshelf.wildCalls ≠ [] := by
      intro none
      rw [none] at count
      cases count
    obtain ⟨sql, written, cut, means⟩ := (together q finished).2 any
    exact ⟨q, sql, rfl, written, cut, means⟩

end PredicateSql
