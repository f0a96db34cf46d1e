import PredicateSql.Proofs.Compilation.Joins

/-!
Paths are known by their segments, however they are written: a text is read as its pieces between
dots without the blanks around them, segments are read back from their text, and a query has one
join for each prefix of a navigation that is referenced, under a text that is that of no other
prefix.
-/
namespace PredicateSql

open MemberPath

section Joins

variable {joins : List JoinClause} {p q : List String}

/-- What is referenced is joined under its text. -/
theorem exists_join {paths : List (List String)}
    (texts : joins.map (·.path) = paths.eraseDups.map joined) (referenced : p ∈ paths) :
    ∃ join, joins.find? (·.path = joined p) = some join := by
  have held : joined p ∈ joins.map (·.path) := by
    rw [texts]
    exact List.mem_map_of_mem (List.mem_eraseDups.mpr referenced)
  rw [← Option.isSome_iff_exists, List.find?_isSome]
  simpa using held

/-- What has the same join has the same segments. -/
theorem eq_of_same_join {join : JoinClause} (pSegments : Canonical p) (qSegments : Canonical q)
    (first : joins.find? (·.path = joined p) = some join)
    (second : joins.find? (·.path = joined q) = some join) :
    p = q := by
  have pText : join.path = joined p := by simpa using List.find?_some first
  have qText : join.path = joined q := by simpa using List.find?_some second
  exact joined_inj pSegments qSegments (pText.symm.trans qText)

end Joins

/-- A text is read as its pieces between dots without the blanks around them, as far as anything is
left of these. So segments are not empty, have no dot and no blank at either end; whatever is such a
list of segments is read back from its text, and so is every path. Two prefixes of navigations have
the same text exactly if they have the same segments, whatever texts their paths were read from; and
those that a query references have the same join exactly then. -/
theorem paths_are_known_by_their_segments :
    (∀ s, ∃ pieces : List String, (∀ piece ∈ pieces, '.' ∉ piece.toList) ∧ joined pieces = s ∧
      (ofText s).segments = (pieces.map Text.trim).filter (· ≠ "")) ∧
    (∀ s, ∀ segment ∈ (ofText s).segments,
      segment ≠ "" ∧ '.' ∉ segment.toList ∧ Text.IsUnpadded segment) ∧
    (∀ s, ofText (ofText s).text = ofText s) ∧
    (∀ segments : List String,
      (∀ segment ∈ segments, segment ≠ "" ∧ '.' ∉ segment.toList ∧ Text.IsUnpadded segment) →
      (ofText (joined segments)).segments = segments) ∧
    (∀ s t p q, p <+: (ofText s).navigation → q <+: (ofText t).navigation →
      (joined p = joined q ↔ p = q)) ∧
    ∀ {n : Nat} (input : CompilerInput n) (registry : Registry) (calls : List Call),
      let start := Compiler.start input registry
      ∀ p ∈ (start.references calls).flatMap prefixes,
      ∀ q ∈ (start.references calls).flatMap prefixes,
        ∃ join ∈ (start.after calls).joins,
        (start.after calls).joins.find? (·.path = joined p) = some join ∧
          ((start.after calls).joins.find? (·.path = joined q) = some join ↔ p = q) := by
  refine ⟨fun s => ?_, fun s segment member => ?_, fun s => ofText_text _,
    fun segments all => ?_, ?_, ?_⟩
  · obtain ⟨pieces, dotless, rfl⟩ := exists_pieces s
    exact ⟨pieces, dotless, rfl, read_joined dotless⟩
  · exact isSegment_iff.mp (isSegment_of_mem_read member)
  · exact read_joined_of_isSegment fun segment member => isSegment_iff.mpr (all segment member)
  · intro s t p q first second
    have segments : ∀ {s p}, p <+: (ofText s).navigation → ∀ segment ∈ p, IsSegment segment :=
      fun initial segment member =>
        (ofText _).canonical segment (List.mem_of_mem_dropLast (initial.mem member))
    exact joined_eq_joined_iff (segments first) (segments second)
  · intro n input registry calls start p first q second
    obtain ⟨join, found⟩ := exists_join (start.after_joins calls [] nofun rfl) first
    refine ⟨join, List.mem_of_find?_eq_some found, found, fun same => ?_, fun same => same ▸ found⟩
    exact eq_of_same_join (canonical_of_mem_flatMap first) (canonical_of_mem_flatMap second)
      found same

namespace Bookshelf

def spacedFull : String := "\u00a0Shelf .\u3000. Full\u0085"

end Bookshelf

theorem spaced_shelves_are_shelves :
    let calls : List Call := [⟨.empty, .member (.ofText Bookshelf.spacedFull)⟩]
    (∀ segment ∈ ["Shelf", "Full"], segment ≠ "" ∧ '.' ∉ segment.toList ∧ Text.IsUnpadded segment) ∧
      (ofText (joined ["Shelf", "Full"])).segments = ["Shelf", "Full"] ∧
      ["Shelf"] <+: (ofText Bookshelf.spacedFull).navigation ∧
      ["Shelf", "Full"] <+: (ofText "Shelf.Full.Id").navigation ∧
      joined ["Shelf"] ≠ joined ["Shelf", "Full"] ∧
      ["Shelf"] ∈ (Bookshelf.books.references calls).flatMap prefixes ∧
      ∃ join ∈ (Bookshelf.books.after calls).joins,
        (Bookshelf.books.after calls).joins.find? (·.path = joined ["Shelf"]) = some join := by
  intro calls
  obtain ⟨-, segments, -, readBack, texts, joins⟩ := paths_are_known_by_their_segments
  have spaced : (ofText Bookshelf.spacedFull).segments = ["Shelf", "Full"] := by decide +kernel
  have shelf : ["Shelf"] <+: (ofText Bookshelf.spacedFull).navigation := by decide +kernel
  have full : ["Shelf", "Full"] <+: (ofText "Shelf.Full.Id").navigation := by decide +kernel
  have all := segments Bookshelf.spacedFull
  rw [spaced] at all
  have referenced : ["Shelf"] ∈ (Bookshelf.books.references calls).flatMap prefixes := by
    decide +kernel
  obtain ⟨join, held, found, -⟩ :=
    joins Bookshelf.books.input .empty calls _ referenced _ referenced
  exact ⟨all, readBack _ all, shelf, full,
    fun same => absurd ((texts _ _ _ _ shelf full).mp same) (by decide), referenced, join,
    held, found⟩

end PredicateSql
