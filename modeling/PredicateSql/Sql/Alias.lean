import PredicateSql.Random.ChaCha

/-!
Aliases of joined tables: words of four random letters that are not words of SQL and differ from one
another within a compilation.
-/
namespace PredicateSql

/-- Four-letter words that an alias must not be. -/
def reservedAliases : List String := [
  "both", "case", "cast", "desc", "drop", "each", "else", "exec", "from", "full", "goto", "into",
  "join", "kill", "left", "like", "load", "next", "null", "only", "open", "over", "read", "rows",
  "some", "then", "true", "user", "view", "when", "with"]

/-- A random source and the aliases that were made from it, the last one first. -/
structure AliasGenerator where
  source : ChaCha
  issued : List String

namespace AliasGenerator

def seeded (seed : UInt64) : AliasGenerator :=
  ⟨.seeded seed, []⟩

/-- A random letter. The high half of 26 times a random number is the place of the letter, unless
the low half lies in the uneven rest; then another number is drawn, at most `fuel` times in all. -/
def drawLetter : Nat → ChaCha → Option (Char × ChaCha)
  | 0, _ => none
  | fuel + 1, g =>
    let (x, g) := g.next
    let product := x.toNat * 26
    if product % UInt64.size ≤ 0xCFFFFFFFFFFFFFFF then
      some (Char.ofNat ('a'.toNat + product / UInt64.size), g)
    else drawLetter fuel g

/-- The bound on how often a draw is repeated. -/
def patience : Nat := 1000000000000

/-- A word of `n` random letters. -/
def drawLetters : Nat → ChaCha → Option (List Char × ChaCha)
  | 0, g => some ([], g)
  | n + 1, g => do
    let (letter, g) ← drawLetter patience g
    let (letters, g) ← drawLetters n g
    some (letter :: letters, g)

/-- Draws words until one is free, at most `fuel` times. -/
def search : Nat → AliasGenerator → Option (String × AliasGenerator)
  | 0, _ => none
  | fuel + 1, g =>
    match drawLetters 4 g.source with
    | none => none
    | some (letters, source) =>
      let word := String.ofList letters
      if word ∈ reservedAliases || word ∈ g.issued then search fuel ⟨source, g.issued⟩
      else some (word, ⟨source, word :: g.issued⟩)

def next? (g : AliasGenerator) : Option (String × AliasGenerator) :=
  search patience g

/-- The next `n` aliases, and the generator after them. -/
def take? : Nat → AliasGenerator → Option (List String × AliasGenerator)
  | 0, g => some ([], g)
  | n + 1, g => do
    let (word, g) ← g.next?
    let (words, g) ← take? n g
    some (word :: words, g)

/-- The last of some aliases; no text if they cannot be made. -/
def lastWord : Option (List String × AliasGenerator) → String
  | some (words, _) => words.getLast?.getD ""
  | none => ""

end AliasGenerator

/-- The aliases of a compilation by the order in which they are handed out. -/
abbrev AliasSupply := Nat → String

namespace AliasSupply

/-- Numbered placeholders `$0`, `$1`, …: text that is the same for every compilation. -/
def numbered : AliasSupply :=
  fun i => "$" ++ toString i

/-- The aliases of a seeded generator; no text for those that it cannot make. -/
def seeded (seed : UInt64) : AliasSupply :=
  fun i => AliasGenerator.lastWord ((AliasGenerator.seeded seed).take? (i + 1))

end AliasSupply
end PredicateSql
