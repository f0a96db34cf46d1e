import PredicateSql.Expr.MemberPath

/-!
Member paths and their texts. A text is cut at its dots; what is left of the pieces without the
blanks around them are the segments. Segments with dots between them are read back, so different
paths have different texts.
-/
namespace PredicateSql

def Text.IsUnpadded (s : String) : Prop :=
  (∀ c, s.toList.head? = some c → isBlank c = false) ∧
    ∀ c, s.toList.getLast? = some c → isBlank c = false

theorem Text.trim_eq_self_iff {s : String} : trim s = s ↔ IsUnpadded s := by
  rw [IsUnpadded, ← trimChars_eq_self_iff, trim, ← String.toList_inj, String.toList_ofList]

theorem isSegment_iff {s : String} : IsSegment s ↔ s ≠ "" ∧ '.' ∉ s.toList ∧ Text.IsUnpadded s := by
  rw [← Text.trim_eq_self_iff]
  exact ⟨fun h => ⟨h.nonempty, h.dotless, h.trimmed⟩,
    fun ⟨nonempty, dotless, trimmed⟩ => ⟨nonempty, dotless, trimmed⟩⟩

namespace MemberPath

theorem splitDots_eq_splitOn (cs : List Char) : splitDots cs = cs.splitOn '.' := by
  induction cs with
  | nil => rfl
  | cons c cs ih =>
    obtain ⟨first, rest, pieces⟩ := List.exists_cons_of_ne_nil (List.splitOn_ne_nil '.' cs)
    rw [splitDots, ih, List.splitOn_cons_eq_if_modifyHead, pieces]
    by_cases dot : c = '.' <;> simp [dot]

/-- The pieces between dots are trimmed, and those of which nothing is left are dropped. -/
theorem read_joined {pieces : List String} (dotless : ∀ piece ∈ pieces, '.' ∉ piece.toList) :
    read (joined pieces) = (pieces.map Text.trim).filter (· ≠ "") := by
  cases pieces with
  | nil => rfl
  | cons piece rest =>
    have split : splitDots (joined (piece :: rest)).toList = (piece :: rest).map String.toList := by
      rw [splitDots_eq_splitOn, joined, String.toList_intercalate]
      exact List.splitOn_intercalate '.' (List.forall_mem_map.mpr dotless) (by simp)
    have left : ∀ piece, (!(Text.trimChars (String.toList piece)).isEmpty) =
        decide (Text.trim piece ≠ "") :=
      fun piece => by cases chars : Text.trimChars piece.toList <;> simp [Text.trim, chars]
    rw [read, split, List.map_map, List.filter_map, List.filter_map, List.map_map]
    exact congrArg (List.map Text.trim) (List.filter_congr fun piece _ => left piece)

/-- Every text consists of pieces with dots between them. -/
theorem exists_pieces (s : String) :
    ∃ pieces : List String, (∀ piece ∈ pieces, '.' ∉ piece.toList) ∧ joined pieces = s := by
  refine ⟨(splitDots s.toList).map String.ofList, ?_, ?_⟩
  · intro piece member
    obtain ⟨cs, held, rfl⟩ := List.mem_map.mp member
    rw [String.toList_ofList]
    exact dotless_of_mem_splitDots held
  · rw [← String.toList_inj, joined, String.toList_intercalate, splitDots_eq_splitOn, List.map_map]
    have chars : String.toList ∘ String.ofList = id := funext fun _ => String.toList_ofList
    rw [chars, List.map_id]
    exact List.intercalate_splitOn '.'

/-- Segments are read back from their text. -/
theorem read_joined_of_isSegment {segments : List String}
    (all : ∀ segment ∈ segments, IsSegment segment) :
    read (joined segments) = segments := by
  have trimmed : segments.map Text.trim = segments.map id :=
    List.map_congr_left fun segment member => (all segment member).trimmed
  rw [read_joined fun segment member => (all segment member).dotless, trimmed, List.map_id,
    List.filter_eq_self]
  exact fun segment member => decide_eq_true (all segment member).nonempty

/-- The text of a path says what its segments are. -/
theorem joined_eq_joined_iff {p q : List String} (pSegments : ∀ segment ∈ p, IsSegment segment)
    (qSegments : ∀ segment ∈ q, IsSegment segment) : joined p = joined q ↔ p = q := by
  refine ⟨fun same => ?_, congrArg joined⟩
  rw [← read_joined_of_isSegment pSegments, same, read_joined_of_isSegment qSegments]

theorem ofText_text (path : MemberPath) : ofText path.text = path := by
  obtain ⟨segments, canonical⟩ := path
  simp only [ofText, text, read_joined_of_isSegment canonical]

end MemberPath
end PredicateSql
