import PredicateSql.Proofs.Scoping.Aliases

/-!
The words that a generator makes: four small letters that are not a reserved word, and nothing else.
Which of them it makes first is up to its random source.
-/
namespace PredicateSql

/-- Four small letters that are not a word of SQL. -/
structure IsAliasWord (word : String) : Prop where
  length : word.toList.length = 4
  small : ∀ c ∈ word.toList, c.isLower = true
  free : word ∉ reservedAliases

instance (word : String) : Decidable (IsAliasWord word) :=
  decidable_of_iff (word.toList.length = 4 ∧ word.toList.all Char.isLower = true ∧
    word ∉ reservedAliases)
    ⟨fun ⟨length, small, free⟩ => ⟨length, List.all_eq_true.mp small, free⟩,
      fun h => ⟨h.length, List.all_eq_true.mpr h.small, h.free⟩⟩

namespace AliasGenerator

theorem isLower_place : ∀ place < 26, (Char.ofNat ('a'.toNat + place)).isLower = true := by
  decide

theorem place_of_isLower {c : Char} (small : c.isLower = true) :
    c.toNat - 'a'.toNat < 26 ∧ Char.ofNat ('a'.toNat + (c.toNat - 'a'.toNat)) = c := by
  have bounds : 97 ≤ c.toNat ∧ c.toNat ≤ 122 := by
    have range : (decide (97 ≤ c.val) && decide (c.val ≤ 122)) = true := small
    simpa [UInt32.le_iff_toNat_le, ← Char.toNat_val] using range
  have first : 'a'.toNat = 97 := rfl
  refine ⟨by omega, ?_⟩
  rw [Nat.add_sub_cancel' (by omega), Char.ofNat_toNat]

/-- What is drawn are as many small letters as are asked for. -/
theorem drawLetters_small {n : Nat} {g g' : ChaCha} {letters : List Char}
    (drawn : drawLetters n g = some (letters, g')) :
    letters.length = n ∧ ∀ c ∈ letters, c.isLower = true := by
  induction n generalizing g letters with
  | zero =>
    obtain ⟨rfl, -⟩ := Prod.mk.inj (Option.some.inj drawn)
    exact ⟨rfl, nofun⟩
  | succ n ih =>
    simp only [drawLetters, Option.bind_eq_bind, Option.bind_eq_some_iff, Prod.exists] at drawn
    obtain ⟨letter, g₁, first, others, g₂, rest, built⟩ := drawn
    obtain ⟨rfl, rfl⟩ := Prod.mk.inj (Option.some.inj built)
    obtain ⟨place, small, rfl⟩ := exists_place first
    obtain ⟨length, all⟩ := ih rest
    exact ⟨congrArg Nat.succ length, List.forall_mem_cons.mpr ⟨isLower_place place small, all⟩⟩

/-- A generator makes no other words. -/
theorem next?_isAliasWord {g g' : AliasGenerator} {word : String}
    (found : g.next? = some (word, g')) :
    IsAliasWord word := by
  unfold next? at found
  obtain ⟨source, letters, source', drawn, rfl, free, -⟩ := search_eq_some found
  obtain ⟨length, small⟩ := drawLetters_small drawn
  rw [← String.toList_ofList (l := letters)] at length small
  exact ⟨length, small, free⟩

/-! A source whose next words are chosen makes any word that is free. -/

/-- The upper half of a random number that makes the letter with this place. -/
def highHalf (place : Nat) : UInt32 :=
  ((place * UInt32.size + 25) / 26).toUInt32

theorem highHalf_place : ∀ place < 26,
    let x := (0 : UInt32).toUInt64 ||| ((highHalf place).toUInt64 <<< 32)
    x.toNat * 26 % UInt64.size ≤ 0xCFFFFFFFFFFFFFFF ∧ x.toNat * 26 / UInt64.size = place := by
  decide +kernel

def halves (letters : List Char) : List UInt32 :=
  letters.flatMap fun c => [0, highHalf (c.toNat - 'a'.toNat)]

theorem patience_pred : patience - 1 + 1 = patience := by
  decide

theorem drawLetter_halves {c : Char} (small : c.isLower = true) (fuel : Nat) (key : List UInt32)
    (counter : UInt64) (rest : List UInt32) :
    drawLetter (fuel + 1) ⟨key, counter, halves [c] ++ rest⟩ = some (c, ⟨key, counter, rest⟩) := by
  obtain ⟨inside, letter⟩ := place_of_isLower small
  obtain ⟨even, place⟩ := highHalf_place _ inside
  simp only [drawLetter, halves, List.flatMap_cons, List.flatMap_nil, List.cons_append,
    List.nil_append, ChaCha.next]
  rw [if_pos even, place, letter]

theorem drawLetters_halves {letters : List Char} (small : ∀ c ∈ letters, c.isLower = true)
    (key : List UInt32) (counter : UInt64) (rest : List UInt32) :
    drawLetters letters.length ⟨key, counter, halves letters ++ rest⟩ =
      some (letters, ⟨key, counter, rest⟩) := by
  induction letters with
  | nil => rfl
  | cons c letters ih =>
    obtain ⟨first, others⟩ := List.forall_mem_cons.mp small
    have split : halves (c :: letters) ++ rest = halves [c] ++ (halves letters ++ rest) := by
      simp [halves]
    have drawn := drawLetter_halves first (patience - 1) key counter (halves letters ++ rest)
    rw [patience_pred] at drawn
    rw [List.length_cons, drawLetters, split]
    simp only [drawn, ih others, Option.bind_eq_bind, Option.bind_some]

/-- Any such word is the first one of some generator. -/
theorem exists_next?_of_isAliasWord {word : String} (h : IsAliasWord word) :
    ∃ g g' : AliasGenerator, g.issued = [] ∧ g.next? = some (word, g') := by
  have drawn := drawLetters_halves h.small [] 0 []
  rw [h.length, List.append_nil] at drawn
  have free : (decide (word ∈ reservedAliases) || decide (word ∈ ([] : List String))) = false := by
    simpa using h.free
  -- The letters are pending in the source, so its key does not matter.
  refine ⟨⟨⟨[], 0, halves word.toList⟩, []⟩, ⟨⟨[], 0, []⟩, [word]⟩, rfl, ?_⟩
  rw [next?, ← patience_pred, search, drawn]
  simp only [String.ofList_toList, free]
  rfl

end AliasGenerator
end PredicateSql
