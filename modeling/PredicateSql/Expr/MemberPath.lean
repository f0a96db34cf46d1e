import PredicateSql.Text.Blank

/-!
Dotted paths to members. Blanks around segments and empty segments are dropped when a path is read.
-/
namespace PredicateSql

/-- What a segment of a path looks like. -/
structure IsSegment (s : String) : Prop where
  nonempty : s ≠ ""
  dotless : '.' ∉ s.toList
  trimmed : Text.trim s = s

structure MemberPath where
  segments : List String
  canonical : ∀ s ∈ segments, IsSegment s
deriving DecidableEq, Repr

namespace MemberPath

/-- Splits characters at dots. -/
def splitDots : List Char → List (List Char)
  | [] => [[]]
  | c :: cs =>
    if c = '.' then [] :: splitDots cs
    else
      match splitDots cs with
      | first :: rest => (c :: first) :: rest
      | [] => [[c]]

theorem dotless_of_mem_splitDots {cs piece : List Char} (h : piece ∈ splitDots cs) :
    '.' ∉ piece := by
  induction cs generalizing piece with
  | nil => simp_all [splitDots]
  | cons c cs ih =>
    by_cases dot : c = '.'
    · simp only [splitDots, dot, if_true, List.mem_cons] at h
      rcases h with rfl | h
      · simp
      · exact ih h
    · simp only [splitDots, dot, if_false] at h
      split at h
      next first rest split =>
        rw [split] at ih
        rcases List.mem_cons.mp h with rfl | h
        · have := ih List.mem_cons_self
          simp [this, Ne.symm dot]
        · exact ih (List.mem_cons_of_mem _ h)
      next => simp_all [Ne.symm dot]

def read (s : String) : List String :=
  (((splitDots s.toList).map Text.trimChars).filter (!·.isEmpty)).map String.ofList

theorem isSegment_of_mem_read {s segment : String} (h : segment ∈ read s) : IsSegment segment := by
  simp only [read, List.mem_map, List.mem_filter] at h
  obtain ⟨_, ⟨⟨piece, member, rfl⟩, nonempty⟩, rfl⟩ := h
  refine ⟨?_, ?_, ?_⟩
  · intro empty
    have chars := congrArg String.toList empty
    simp_all
  · rw [String.toList_ofList]
    exact fun dot => dotless_of_mem_splitDots member (Text.trimChars_subset piece dot)
  · rw [Text.trim, String.toList_ofList, Text.trimChars_trimChars]

def ofText (s : String) : MemberPath :=
  ⟨read s, fun _ => isSegment_of_mem_read⟩

def navigation (path : MemberPath) : List String :=
  path.segments.dropLast

/-- The last segment, or no text for the empty path. -/
def property (path : MemberPath) : String :=
  path.segments.getLast?.getD ""

def isEmpty (path : MemberPath) : Bool :=
  path.segments.isEmpty

theorem property_isSegment {path : MemberPath} (nonempty : path.isEmpty = false) :
    IsSegment path.property := by
  have segments : path.segments ≠ [] := by simpa [isEmpty] using nonempty
  refine path.canonical _ ?_
  rw [property, List.getLast?_eq_some_getLast segments]
  exact List.getLast_mem segments

def joined (segments : List String) : String :=
  String.intercalate "." segments

def text (path : MemberPath) : String :=
  joined path.segments

end MemberPath
end PredicateSql
