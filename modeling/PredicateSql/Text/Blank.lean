/-!
Blank characters and trimming. Blank means the Unicode property `White_Space`, which has the
no-break space and the ideographic space in it but not the zero-width ones.
-/
namespace PredicateSql.Text

/-- The characters with the property `White_Space`. -/
def isBlank (c : Char) : Bool :=
  let n := c.toNat
  (0x09 ≤ n && n ≤ 0x0D) || n = 0x20 || n = 0x85 || n = 0xA0 || n = 0x1680 ||
    (0x2000 ≤ n && n ≤ 0x200A) || n = 0x2028 || n = 0x2029 || n = 0x202F || n = 0x205F || n = 0x3000

def dropBlanks (cs : List Char) : List Char :=
  cs.dropWhile isBlank

def trimChars (cs : List Char) : List Char :=
  (dropBlanks (dropBlanks cs).reverse).reverse

def trim (s : String) : String :=
  String.ofList (trimChars s.toList)

def allBlank (s : String) : Bool :=
  s.toList.all isBlank

theorem dropBlanks_eq_self {cs : List Char} (h : ∀ c, cs.head? = some c → isBlank c = false) :
    dropBlanks cs = cs := by
  cases cs with
  | nil => rfl
  | cons c rest => simp [dropBlanks, h c rfl]

theorem head?_dropBlanks {cs : List Char} {c : Char} (h : (dropBlanks cs).head? = some c) :
    isBlank c = false := by
  have first := List.head?_dropWhile_not isBlank cs
  rw [dropBlanks] at h
  rw [h] at first
  exact first

theorem getLast?_dropBlanks {cs : List Char} {c : Char}
    (h : (dropBlanks cs).getLast? = some c) : cs.getLast? = some c := by
  obtain ⟨front, split⟩ := List.dropWhile_suffix (l := cs) isBlank
  rw [← split, List.getLast?_append]
  rw [dropBlanks] at h
  rw [h]
  rfl

theorem head?_trimChars {cs : List Char} {c : Char} (h : (trimChars cs).head? = some c) :
    isBlank c = false := by
  rw [trimChars, List.head?_reverse] at h
  have last := getLast?_dropBlanks h
  rw [List.getLast?_reverse] at last
  exact head?_dropBlanks last

theorem getLast?_trimChars {cs : List Char} {c : Char} (h : (trimChars cs).getLast? = some c) :
    isBlank c = false := by
  rw [trimChars, List.getLast?_reverse] at h
  exact head?_dropBlanks h

theorem trimChars_eq_self_iff {cs : List Char} :
    trimChars cs = cs ↔ (∀ c, cs.head? = some c → isBlank c = false) ∧
      ∀ c, cs.getLast? = some c → isBlank c = false := by
  constructor
  · intro same
    rw [← same]
    exact ⟨fun _ => head?_trimChars, fun _ => getLast?_trimChars⟩
  · rintro ⟨front, back⟩
    rw [← List.head?_reverse] at back
    rw [trimChars, dropBlanks_eq_self front, dropBlanks_eq_self back, List.reverse_reverse]

theorem trimChars_trimChars (cs : List Char) : trimChars (trimChars cs) = trimChars cs :=
  trimChars_eq_self_iff.mpr ⟨fun _ => head?_trimChars, fun _ => getLast?_trimChars⟩

theorem trimChars_subset (cs : List Char) : trimChars cs ⊆ cs := by
  intro c h
  rw [trimChars, List.mem_reverse] at h
  have once := List.dropWhile_subset isBlank h
  rw [List.mem_reverse] at once
  exact List.dropWhile_subset isBlank once

end PredicateSql.Text
