import PredicateSql.Proofs.Quoting.Aliases
import PredicateSql.Proofs.Scoping.Names

/-!
The aliases of a compilation. Each is drawn once: a lowering names its joins and its subqueries
after different numbers of the supply. The words that a generator makes differ from one another, so
aliases with different numbers are different.
-/
namespace PredicateSql

open Lowering

variable {n : Nat}

/-- The aliases that the subqueries of a condition bring in, at every depth. -/
def Condition.aliases : Condition n → List String
  | logical _ left right => left.aliases ++ right.aliases
  | not operand => operand.aliases
  | any q => q.brings []
  | anyWhere q joins k => q.brings joins ++ k.aliases
  | _ => []

/-- The names are those of different numbers from `first` on, before `last`. -/
def AliasSupply.Draws (supply : AliasSupply) (first last : Nat) (names : List String) : Prop :=
  ∃ numbers : List Nat, numbers.Nodup ∧ (∀ i ∈ numbers, first ≤ i ∧ i < last) ∧
    names.Perm (numbers.map supply)

namespace AliasSupply.Draws

variable {supply : AliasSupply} {first middle last : Nat} {xs ys : List String}

theorem nil (supply : AliasSupply) (first last : Nat) : supply.Draws first last [] :=
  ⟨[], List.nodup_nil, by simp, .nil⟩

theorem single (supply : AliasSupply) (first : Nat) :
    supply.Draws first (first + 1) [supply first] :=
  ⟨[first], List.nodup_singleton first, by simp, .refl _⟩

theorem perm (h : supply.Draws first last xs) (same : ys.Perm xs) : supply.Draws first last ys := by
  obtain ⟨numbers, distinct, between, names⟩ := h
  exact ⟨numbers, distinct, between, same.trans names⟩

/-- Names that are drawn one after the other are drawn together. -/
theorem append (front : supply.Draws first middle xs) (back : supply.Draws middle last ys)
    (lower : first ≤ middle) (upper : middle ≤ last) : supply.Draws first last (xs ++ ys) := by
  obtain ⟨is, isDistinct, isBetween, xsNames⟩ := front
  obtain ⟨js, jsDistinct, jsBetween, ysNames⟩ := back
  refine ⟨is ++ js, ?_, ?_, ?_⟩
  · refine isDistinct.append jsDistinct fun i inFront inBack => ?_
    have below := (isBetween i inFront).2
    have above := (jsBetween i inBack).1
    omega
  · intro i member
    rcases List.mem_append.mp member with inFront | inBack
    · have bounds := isBetween i inFront
      omega
    · have bounds := jsBetween i inBack
      omega
  · rw [List.map_append]
    exact xsNames.append ysNames

/-- Where all numbers have different names, so have those that are drawn. -/
theorem nodup (h : supply.Draws first last xs)
    (distinct : ((List.range last).map supply).Nodup) : xs.Nodup := by
  obtain ⟨numbers, once, between, names⟩ := h
  refine names.nodup_iff.mpr (once.map_on fun i iMember j jMember same => ?_)
  have iBelow := List.mem_range.mpr (between i iMember).2
  have jBelow := List.mem_range.mpr (between j jMember).2
  exact List.inj_on_of_nodup_map distinct iBelow jBelow same

/-- Each name is that of some number. -/
theorem exists_number (h : supply.Draws first last xs) {name : String} (member : name ∈ xs) :
    ∃ i < last, supply i = name := by
  obtain ⟨numbers, -, between, names⟩ := h
  obtain ⟨i, drawn, rfl⟩ := List.mem_map.mp (names.mem_iff.mp member)
  exact ⟨i, (between i drawn).2, rfl⟩

end AliasSupply.Draws

/-- The joins that a lowering adds and the given other names are drawn from the supply while it
runs. -/
structure Progress.Draws (supply : AliasSupply) (s t : Progress) (names : List String) : Prop where
  issued : s.issued ≤ t.issued
  drawn : ∃ added, t.joins = s.joins ++ added ∧
    supply.Draws s.issued t.issued (added.map (·.aliasName) ++ names)

namespace Progress.Draws

variable {supply : AliasSupply} {s t u : Progress} {xs ys : List String}

/-- What adds no join draws nothing, also when it uses up aliases. -/
theorem of_kept (joins : t.joins = s.joins) (issued : s.issued ≤ t.issued) :
    Progress.Draws supply s t [] where
  issued := issued
  drawn := ⟨[], by simp [joins], .nil _ _ _⟩

theorem trans (first : Progress.Draws supply s u xs) (second : Progress.Draws supply u t ys) :
    Progress.Draws supply s t (xs ++ ys) := by
  obtain ⟨front, joined, drawn⟩ := first.drawn
  obtain ⟨back, joined', drawn'⟩ := second.drawn
  refine ⟨first.issued.trans second.issued, front ++ back, ?_, ?_⟩
  · rw [joined', joined, List.append_assoc]
  · have together := drawn.append drawn' first.issued second.issued
    refine together.perm ?_
    rw [List.map_append]
    simp only [List.append_assoc]
    refine List.Perm.append_left _ ?_
    have swapped : (back.map (·.aliasName) ++ xs).Perm (xs ++ back.map (·.aliasName)) :=
      List.perm_append_comm
    simpa using swapped.append_right ys

theorem trans_nil (first : Progress.Draws supply s u []) (second : Progress.Draws supply u t xs) :
    Progress.Draws supply s t xs :=
  first.trans second

end Progress.Draws

section Members

variable (context : LoweringContext n) {s t : Progress}

theorem step_draws {owner next : Origin n} {path segment : String}
    (run : step context owner path segment s = (.ok next, t)) :
    Progress.Draws context.aliases s t [] := by
  obtain ⟨navigation, -, -, ⟨join, -, -, rfl⟩ | ⟨-, columns, -, -, rfl⟩⟩ := (step_ok context).mp run
  · exact .of_kept rfl (Nat.le_refl _)
  · have drawn := AliasSupply.Draws.single context.aliases s.issued
    exact ⟨Nat.le_succ _, [newJoin context owner navigation.target path columns s.issued],
      rfl, drawn⟩

theorem walk_draws {owner next : Origin n} {walked segments : List String}
    (run : walk context walked owner segments s = (.ok next, t)) :
    Progress.Draws context.aliases s t [] := by
  induction segments generalizing walked owner s with
  | nil =>
    obtain ⟨-, rfl⟩ := pure_ok.mp run
    exact .of_kept rfl (Nat.le_refl _)
  | cons segment rest ih =>
    obtain ⟨middle, u, stepped, others⟩ := bind_ok.mp run
    exact (step_draws context stepped).trans (ih others)

theorem resolveColumn_draws {origin : Origin n} {path : MemberPath} {c : ColumnRef}
    (run : resolveColumn context origin path s = (.ok c, t)) :
    Progress.Draws context.aliases s t [] := by
  obtain ⟨-, owner, u, column, found, walked, -, looked, -⟩ := (resolveColumn_ok context).mp run
  obtain ⟨joins, issued⟩ := lookup_kept looked
  exact (walk_draws context walked).trans (.of_kept joins issued.ge)

theorem readOperand_draws {origin : Origin n} {e : Expr} {o : Operand}
    (run : readOperand context origin e s = (.ok o, t)) :
    Progress.Draws context.aliases s t [] := by
  rcases (readOperand_ok context).mp run with ⟨path, c, -, resolved, -⟩ | ⟨v, -, -, rfl⟩ |
    ⟨receiver, args, c, -, resolved, -⟩
  · exact resolveColumn_draws context resolved
  · exact .of_kept rfl (Nat.le_refl _)
  · obtain ⟨_, path, -, -, resolved⟩ := (emptinessColumn_ok context).mp resolved
    exact resolveColumn_draws context resolved

/-- A subquery draws the aliases of its rows and of the copy of the owner's table. -/
theorem subquery_draws {origin : Origin n} {path : MemberPath} {q : Subquery n}
    (run : subquery context origin path s = (.ok q, t)) :
    Progress.Draws context.aliases s t (q.brings []) := by
  obtain ⟨u, walked, -, -, -, -, -, childAlias, ownerAlias, rfl⟩ := (subquery_ok context).mp run
  have child := AliasSupply.Draws.single context.aliases u.issued
  have owner := AliasSupply.Draws.single context.aliases (u.issued + 1)
  have both := child.append owner (Nat.le_succ _) (Nat.le_succ _)
  rw [← childAlias, ← ownerAlias] at both
  refine (walk_draws context walked).trans_nil ⟨Nat.le_add_right _ 2, [], by simp, ?_⟩
  exact both

end Members

/-- A predicate draws the aliases of the joins that it adds and of its subqueries, all from
different numbers. -/
theorem Lowers.draws {context : LoweringContext n} {origin : Origin n} {e : Expr}
    {s t : Progress} {k : Condition n} (h : Lowers context origin e s k t) :
    Progress.Draws context.aliases s t k.aliases := by
  induction h with
  | logical _ _ _ first second => exact first.trans second
  | comparison _ _ leftRead rightRead =>
    exact (readOperand_draws _ leftRead).trans (readOperand_draws _ rightRead)
  | nullTest _ _ read => exact readOperand_draws _ read
  | inverted boolean run | truth _ boolean run =>
    exact readOperand_draws _ (readOperand_of_readBoolean? _ boolean run)
  | not _ _ inner => exact inner
  | convert _ inner => exact inner
  | like _ _ column | membership _ _ _ column | emptyMembership _ _ _ column
  | hasValue _ column => exact resolveColumn_draws _ column
  | any _ rows => exact subquery_draws _ rows
  | @anyWhere origin receiver path e s u v q k collection rows derived inner =>
    have outer := subquery_draws _ rows
    obtain ⟨added, joined, drawn⟩ := inner.drawn
    rw [List.nil_append] at joined
    -- The joins inside belong to the subquery and not to the scope that it stands in.
    have own : Progress.Draws context.aliases u { v with joins := u.joins }
        (v.joins.map (·.aliasName) ++ k.aliases) :=
      ⟨inner.issued, [], by simp, joined ▸ drawn⟩
    exact outer.trans own

namespace AliasGenerator

theorem next?_fresh {g g' : AliasGenerator} {word : String}
    (found : g.next? = some (word, g')) : word ∉ g.issued ∧ g'.issued = word :: g.issued := by
  unfold next? at found
  obtain ⟨-, -, source, -, -, -, new, rfl⟩ := search_eq_some found
  exact ⟨new, rfl⟩

/-- The words that a generator makes differ from one another and from those that it made before. -/
theorem take?_distinct {count : Nat} {g g' : AliasGenerator} {words : List String}
    (taken : g.take? count = some (words, g')) :
    words.Nodup ∧ ∀ word ∈ words, word ∉ g.issued := by
  induction count generalizing g words with
  | zero =>
    obtain ⟨rfl, -⟩ := Prod.mk.inj (Option.some.inj taken)
    simp
  | succ count ih =>
    obtain ⟨word, rest, g₁, first, others, rfl⟩ := take?_succ taken
    obtain ⟨new, issued⟩ := next?_fresh first
    obtain ⟨distinct, foreign⟩ := ih others
    rw [issued] at foreign
    refine ⟨List.nodup_cons.mpr ⟨fun member => ?_, distinct⟩, ?_⟩
    · exact foreign word member List.mem_cons_self
    · intro other member
      rcases List.mem_cons.mp member with rfl | later
      · exact new
      · exact fun old => foreign other later (List.mem_cons_of_mem _ old)

theorem take?_length {count : Nat} {g g' : AliasGenerator} {words : List String}
    (taken : g.take? count = some (words, g')) : words.length = count := by
  induction count generalizing g words with
  | zero =>
    obtain ⟨rfl, -⟩ := Prod.mk.inj (Option.some.inj taken)
    rfl
  | succ count ih =>
    obtain ⟨word, rest, g₁, -, others, rfl⟩ := take?_succ taken
    rw [List.length_cons, ih others]

/-- Fewer words are the first ones. -/
theorem take?_take {count : Nat} {g g' : AliasGenerator} {words : List String}
    (taken : g.take? count = some (words, g')) {fewer : Nat} (bound : fewer ≤ count) :
    ∃ g'', g.take? fewer = some (words.take fewer, g'') := by
  induction count generalizing g words fewer with
  | zero =>
    obtain rfl := Nat.le_zero.mp bound
    exact ⟨g, by simp [take?]⟩
  | succ count ih =>
    obtain ⟨word, rest, g₁, first, others, rfl⟩ := take?_succ taken
    cases fewer with
    | zero => exact ⟨g, by simp [take?]⟩
    | succ fewer =>
      obtain ⟨g'', some⟩ := ih others (Nat.le_of_succ_le_succ bound)
      exact ⟨g'', by simp [take?, first, some]⟩

/-- The words are the last ones of shorter and shorter runs. -/
theorem map_lastWord {count : Nat} {g g' : AliasGenerator} {words : List String}
    (taken : g.take? count = some (words, g')) :
    (List.range count).map (fun i => lastWord (g.take? (i + 1))) = words := by
  have length := take?_length taken
  refine List.ext_getElem (by simp [length]) fun i inRange inWords => ?_
  have bound : i + 1 ≤ count := length ▸ inWords
  obtain ⟨g'', first⟩ := take?_take taken bound
  have last : (words.take (i + 1)).getLast? = some words[i] := by
    rw [List.take_succ_eq_append_getElem inWords, List.getLast?_concat]
  simp only [List.getElem_map, List.getElem_range, first, lastWord, last, Option.getD_some]

end AliasGenerator

namespace AliasSupply

/-- The first aliases of the supply are words that a generator makes. -/
def Makes (supply : AliasSupply) (count : Nat) : Prop :=
  ∃ g g' : AliasGenerator, g.take? count = some ((List.range count).map supply, g')

theorem Makes.distinct {supply : AliasSupply} {count : Nat} (makes : supply.Makes count) :
    ((List.range count).map supply).Nodup := by
  obtain ⟨g, g', taken⟩ := makes
  exact (AliasGenerator.take?_distinct taken).1

/-- A seeded supply is what its generator makes, as long as that makes words. -/
theorem makes_seeded {seed : UInt64} {count : Nat}
    (made : ((AliasGenerator.seeded seed).take? count).isSome = true) :
    (seeded seed).Makes count := by
  obtain ⟨⟨words, g'⟩, taken⟩ := Option.isSome_iff_exists.mp made
  refine ⟨.seeded seed, g', ?_⟩
  have words_eq : (List.range count).map (seeded seed) = words := AliasGenerator.map_lastWord taken
  rw [words_eq]
  exact taken

end AliasSupply
end PredicateSql
