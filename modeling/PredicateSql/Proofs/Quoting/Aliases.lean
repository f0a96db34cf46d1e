import PredicateSql.Proofs.Quoting.Literals
import PredicateSql.Sql.Alias

/-!
No mark is in an alias: those of a seeded generator are words of small letters, and the numbered
ones are numerals.
-/
namespace PredicateSql

namespace AliasGenerator

variable {mark : Char} (isMark : mark ∈ marks)

theorem letter_not_mem_marks : ∀ i < 26, Char.ofNat ('a'.toNat + i) ∉ marks := by
  decide

theorem exists_place {fuel : Nat} {g g' : ChaCha} {c : Char}
    (drawn : drawLetter fuel g = some (c, g')) :
    ∃ place < 26, c = Char.ofNat ('a'.toNat + place) := by
  induction fuel generalizing g with
  | zero => cases drawn
  | succ fuel ih =>
    simp only [drawLetter] at drawn
    split at drawn
    · obtain ⟨rfl, -⟩ := Prod.mk.inj (Option.some.inj drawn)
      have small := g.next.1.toNat_lt
      exact ⟨_, Nat.div_lt_of_lt_mul (Nat.mul_lt_mul_of_pos_right small (by decide)), rfl⟩
    · exact ih drawn

theorem drawLetter_not_mem_marks {fuel : Nat} {g g' : ChaCha} {c : Char}
    (drawn : drawLetter fuel g = some (c, g')) : c ∉ marks := by
  obtain ⟨place, small, rfl⟩ := exists_place drawn
  exact letter_not_mem_marks place small

/-- The word that is found is drawn from some state of the random source, and it is free. -/
theorem search_eq_some {fuel : Nat} {g g' : AliasGenerator} {word : String}
    (found : search fuel g = some (word, g')) :
    ∃ source letters source', drawLetters 4 source = some (letters, source') ∧
      word = String.ofList letters ∧
      word ∉ reservedAliases ∧ word ∉ g.issued ∧ g' = ⟨source', word :: g.issued⟩ := by
  induction fuel generalizing g with
  | zero => cases found
  | succ fuel ih =>
    simp only [search] at found
    split at found
    · cases found
    next letters source drawn =>
      split at found
      · exact ih (g := ⟨source, g.issued⟩) found
      next free =>
        obtain ⟨rfl, rfl⟩ := Prod.mk.inj (Option.some.inj found)
        simp only [Bool.or_eq_true, decide_eq_true_eq, not_or] at free
        exact ⟨g.source, letters, source, drawn, rfl, free.1, free.2, rfl⟩

theorem take?_succ {count : Nat} {g g' : AliasGenerator} {words : List String}
    (taken : g.take? (count + 1) = some (words, g')) :
    ∃ word rest g₁, g.next? = some (word, g₁) ∧ g₁.take? count = some (rest, g') ∧
      words = word :: rest := by
  obtain ⟨⟨word, g₁⟩, first, taken⟩ := Option.bind_eq_some_iff.mp taken
  obtain ⟨⟨rest, g₂⟩, others, built⟩ := Option.bind_eq_some_iff.mp taken
  obtain ⟨rfl, rfl⟩ := Prod.mk.inj (Option.some.inj built)
  exact ⟨word, rest, g₁, first, others, rfl⟩

/-- Each of several words is the next one at some time. -/
theorem exists_next? {count : Nat} {g g' : AliasGenerator} {words : List String}
    (taken : g.take? count = some (words, g')) :
    ∀ word ∈ words, ∃ g₁ g₂ : AliasGenerator, g₁.next? = some (word, g₂) := by
  induction count generalizing g words with
  | zero =>
    obtain ⟨rfl, -⟩ := Prod.mk.inj (Option.some.inj taken)
    exact nofun
  | succ count ih =>
    obtain ⟨word, rest, g₁, first, others, rfl⟩ := take?_succ taken
    exact List.forall_mem_cons.mpr ⟨⟨g, g₁, first⟩, ih others⟩

include isMark

theorem mark_not_mem_drawLetters {n : Nat} {g g' : ChaCha} {letters : List Char}
    (drawn : drawLetters n g = some (letters, g')) : mark ∉ letters := by
  induction n generalizing g letters with
  | zero =>
    obtain ⟨rfl, -⟩ := Prod.mk.inj (Option.some.inj drawn)
    exact List.not_mem_nil
  | succ n ih =>
    simp only [drawLetters, Option.bind_eq_bind, Option.bind_eq_some_iff, Prod.exists] at drawn
    obtain ⟨letter, g₁, first, others, g₂, rest, built⟩ := drawn
    obtain ⟨rfl, rfl⟩ := Prod.mk.inj (Option.some.inj built)
    simp only [List.mem_cons, not_or]
    exact ⟨fun same => drawLetter_not_mem_marks first (same ▸ isMark), ih rest⟩

theorem next?_lacks {g g' : AliasGenerator} {word : String}
    (found : g.next? = some (word, g')) : Lacks mark word := by
  unfold next? at found
  obtain ⟨source, letters, source', drawn, rfl, -⟩ := search_eq_some found
  exact lacks_ofList.mpr (mark_not_mem_drawLetters isMark drawn)

theorem take?_lacks {n : Nat} {g g' : AliasGenerator} {words : List String}
    (taken : g.take? n = some (words, g')) : ∀ word ∈ words, Lacks mark word := by
  intro word member
  obtain ⟨g₁, g₂, found⟩ := exists_next? taken word member
  exact next?_lacks isMark found

omit isMark in
theorem lastWord_lacks {taken : Option (List String × AliasGenerator)}
    (plain : ∀ words g, taken = some (words, g) → ∀ word ∈ words, Lacks mark word) :
    Lacks mark (lastWord taken) := by
  rcases taken with _ | ⟨words, g⟩
  · exact List.not_mem_nil
  · rw [lastWord]
    cases last : words.getLast? with
    | none => exact List.not_mem_nil
    | some word => exact plain words g rfl word (List.mem_of_getLast? last)

/-- The aliases of a generator, whatever its random source is; no text for those that it cannot
make. -/
def supply (g : AliasGenerator) : AliasSupply :=
  fun i => lastWord (g.take? (i + 1))

omit isMark in
theorem unmarked_supply (g : AliasGenerator) (i : Nat) : Unmarked (g.supply i) :=
  fun _ isMark => lastWord_lacks fun _ _ => take?_lacks isMark

end AliasGenerator

namespace AliasSupply

theorem unmarked_seeded (seed : UInt64) (i : Nat) : Unmarked (seeded seed i) :=
  (AliasGenerator.seeded seed).unmarked_supply i

theorem unquoted_seeded (seed : UInt64) (i : Nat) : Unquoted (seeded seed i) :=
  (unmarked_seeded seed i).unquoted

end AliasSupply
end PredicateSql
