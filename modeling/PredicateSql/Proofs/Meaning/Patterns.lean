import Mathlib.Data.List.Infix
import PredicateSql.Proofs.Condition.Derivation

/-!
What a pattern behind `LIKE` is true of. A percent sign stands for any text and an underscore for
any character; all other characters stand for themselves, and none escapes another.
-/
namespace PredicateSql

/-- Whether a text matches a pattern. -/
def likeMatches : List Char → List Char → Bool
  | [], text => text.isEmpty
  | c :: pattern, text =>
    if c = '%' then text.tails.any (likeMatches pattern)
    else text.head?.any (fun c' => c = '_' || c = c') && likeMatches pattern text.tail

/-- What the methods that match a pattern ask of a text by their names. -/
def Method.Asks (method : Method) (part text : List Char) : Prop :=
  match method with
  | .contains => part <:+: text
  | .startsWith => part <+: text
  | .endsWith => part <:+ text
  | _ => False

/-- No character of the text stands for others in a pattern. -/
def IsVerbatim (text : List Char) : Prop :=
  '%' ∉ text ∧ '_' ∉ text

instance (text : List Char) : Decidable (IsVerbatim text) :=
  inferInstanceAs (Decidable (_ ∧ _))

theorem isVerbatim_cons {c : Char} {text : List Char} :
    IsVerbatim (c :: text) ↔ (c ≠ '%' ∧ c ≠ '_') ∧ IsVerbatim text := by
  simp only [IsVerbatim, List.mem_cons, not_or, ne_comm (a := '%'), ne_comm (a := '_')]
  tauto

section Matching

variable {c : Char} {pattern text part : List Char}

theorem likeMatches_nil : likeMatches [] text = true ↔ text = [] := by
  rw [likeMatches, List.isEmpty_iff]

theorem likeMatches_percent :
    likeMatches ('%' :: pattern) text = true ↔
      ∃ rest, rest <:+ text ∧ likeMatches pattern rest = true := by
  rw [likeMatches, if_pos rfl, List.any_eq_true]
  simp only [List.mem_tails]

theorem likeMatches_cons (other : c ≠ '%') :
    likeMatches (c :: pattern) text = true ↔
      ∃ c' rest, text = c' :: rest ∧ (c = '_' ∨ c = c') ∧ likeMatches pattern rest = true := by
  rw [likeMatches, if_neg other]
  cases text with
  | nil => simp
  | cons c' rest => simp

/-- Open at its end, a pattern is matched by what begins with a text that matches it. -/
theorem likeMatches_append_percent :
    likeMatches (pattern ++ ['%']) text = true ↔
      ∃ part, likeMatches pattern part = true ∧ part <+: text := by
  induction pattern generalizing text with
  | nil =>
    refine iff_of_true (likeMatches_percent.mpr ⟨[], List.nil_suffix, rfl⟩) ⟨[], rfl,
      List.nil_prefix⟩
  | cons c pattern ih =>
    rw [List.cons_append]
    by_cases wild : c = '%'
    · subst wild
      simp only [likeMatches_percent, ih]
      -- Both sides ask for a text inside that matches the rest of the pattern.
      constructor
      · rintro ⟨rest, behind, part, matched, front⟩
        obtain ⟨whole, front', behind'⟩ := List.infix_iff_suffix_prefix.mp
          (List.infix_iff_prefix_suffix.mpr ⟨rest, front, behind⟩)
        exact ⟨whole, ⟨part, front', matched⟩, behind'⟩
      · rintro ⟨whole, ⟨part, behind, matched⟩, front⟩
        obtain ⟨rest, front', behind'⟩ := List.infix_iff_prefix_suffix.mp
          (List.infix_iff_suffix_prefix.mpr ⟨whole, behind, front⟩)
        exact ⟨rest, behind', part, matched, front'⟩
    · simp only [likeMatches_cons wild, ih]
      constructor
      · rintro ⟨c', rest, rfl, same, part, matched, front⟩
        exact ⟨c' :: part, ⟨c', part, rfl, same, matched⟩, (List.prefix_cons_inj c').mpr front⟩
      · rintro ⟨part, ⟨c', rest, rfl, same, matched⟩, ⟨more, rfl⟩⟩
        exact ⟨c', rest ++ more, rfl, same, rest, matched, List.prefix_append rest more⟩

/-- The pattern of a method is matched where a text that matches the given one stands in the asked
place. -/
theorem likeMatches_apply {method : Method} {w : Wildcard} (opening : method.wildcard? = some w)
    (given : String) :
    likeMatches (w.apply given).toList text = true ↔
      ∃ part, likeMatches given.toList part = true ∧ method.Asks part text := by
  cases method <;> cases opening
  · have spelled : (Wildcard.both.apply given).toList = '%' :: (given.toList ++ ['%']) := by
      simp [Wildcard.apply]
    simp only [spelled, likeMatches_percent, likeMatches_append_percent, Method.Asks,
      List.infix_iff_prefix_suffix]
    constructor
    · rintro ⟨rest, behind, part, matched, front⟩
      exact ⟨part, matched, rest, front, behind⟩
    · rintro ⟨part, matched, rest, front, behind⟩
      exact ⟨rest, behind, part, matched, front⟩
  · have spelled : (Wildcard.trailing.apply given).toList = given.toList ++ ['%'] := by
      simp [Wildcard.apply]
    rw [spelled]
    exact likeMatches_append_percent
  · have spelled : (Wildcard.leading.apply given).toList = '%' :: given.toList := by
      simp [Wildcard.apply]
    rw [spelled, likeMatches_percent]
    exact exists_congr fun _ => and_comm

/-- Every text matches itself. -/
theorem likeMatches_self (text : List Char) : likeMatches text text = true := by
  induction text with
  | nil => rfl
  | cons c text ih =>
    by_cases wild : c = '%'
    · subst wild
      exact likeMatches_percent.mpr ⟨text, List.suffix_cons '%' text, ih⟩
    · exact (likeMatches_cons wild).mpr ⟨c, text, rfl, .inr rfl, ih⟩

/-- A plain text is matched by itself only. -/
theorem likeMatches_of_isVerbatim (plain : IsVerbatim pattern) :
    likeMatches pattern text = true ↔ text = pattern := by
  induction pattern generalizing text with
  | nil => exact likeMatches_nil
  | cons c pattern ih =>
    obtain ⟨⟨other, single⟩, plain⟩ := isVerbatim_cons.mp plain
    rw [likeMatches_cons other]
    simp only [ih plain, single, false_or]
    constructor
    · rintro ⟨c', rest, rfl, rfl, rfl⟩
      rfl
    · rintro rfl
      exact ⟨c, pattern, rfl, rfl, rfl⟩

def filled (pattern : List Char) : List Char :=
  pattern.map fun c => if c = '%' ∨ c = '_' then 'a' else c

theorem likeMatches_filled (pattern : List Char) : likeMatches pattern (filled pattern) = true := by
  induction pattern with
  | nil => rfl
  | cons c pattern ih =>
    by_cases wild : c = '%'
    · subst wild
      exact likeMatches_percent.mpr ⟨filled pattern, List.suffix_cons _ _, ih⟩
    · refine (likeMatches_cons wild).mpr ⟨_, filled pattern, rfl, ?_, ih⟩
      by_cases single : c = '_'
      · exact .inl single
      · exact .inr (by simp [wild, single])

theorem isVerbatim_of_filled_eq (same : filled pattern = pattern) : IsVerbatim pattern := by
  have kept : ∀ c ∈ pattern, (if c = '%' ∨ c = '_' then 'a' else c) = c :=
    List.map_inj_left.mp (same.trans (List.map_id pattern).symm)
  refine ⟨fun member => ?_, fun member => ?_⟩
  · exact absurd (kept '%' member) (by decide)
  · exact absurd (kept '_' member) (by decide)

end Matching

/-- No other text of the same length is asked for. -/
theorem Method.Asks.eq_of_length {method : Method} {part text : List Char}
    (asks : method.Asks part text) (length : text.length = part.length) : text = part := by
  cases method with
  | contains => exact (List.IsInfix.eq_of_length asks length.symm).symm
  | startsWith => exact (List.IsPrefix.eq_of_length asks length.symm).symm
  | endsWith => exact (List.IsSuffix.eq_of_length asks length.symm).symm
  | _ => exact asks.elim

/-- The pattern finds the texts where one that matches the given text stands in the asked place.
These are all that the method asks for, and no others exactly if no character of the given text
stands for others. -/
structure Method.SoughtBy (method : Method) (given : String) (pattern : List Char) : Prop where
  found : ∀ text, likeMatches pattern text = true ↔
    ∃ part, likeMatches given.toList part = true ∧ method.Asks part text
  complete : ∀ text, method.Asks given.toList text → likeMatches pattern text = true
  exact_iff : (∀ text, likeMatches pattern text = true ↔ method.Asks given.toList text) ↔
    IsVerbatim given.toList

/-- What a method asks for is sought by the given text in its open pattern. -/
theorem Method.soughtBy_apply {method : Method} {w : Wildcard} (opening : method.wildcard? = some w)
    (given : String) : method.SoughtBy given (w.apply given).toList where
  found _ := likeMatches_apply opening given
  complete text asked :=
    (likeMatches_apply opening given).mpr ⟨given.toList, likeMatches_self _, asked⟩
  exact_iff := by
    constructor
    · intro finds
      have asked : method.Asks (filled given.toList) (filled given.toList) := by
        cases method <;> cases opening
        · exact List.infix_rfl
        · exact List.prefix_rfl
        · exact List.suffix_rfl
      have found := (likeMatches_apply opening given).mpr ⟨_,
        likeMatches_filled given.toList, asked⟩
      have length : (filled given.toList).length = given.toList.length := List.length_map _
      exact isVerbatim_of_filled_eq (((finds _).mp found).eq_of_length length)
    · intro verbatim text
      rw [likeMatches_apply opening]
      simp only [likeMatches_of_isVerbatim verbatim, exists_eq_left]

end PredicateSql
