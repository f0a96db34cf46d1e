import PredicateSql.Text.LetterCase

/-!
Lower-casing of text. Every character goes to its lower-case partner, with the two exceptions of the
standard: a capital I with a dot becomes two characters, and a capital sigma at the end of a word
becomes the final form.
-/
namespace PredicateSql.Text

def inRanges (ranges : List (Nat × Nat)) (n : Nat) : Bool :=
  ranges.any fun (lo, hi) => lo ≤ n && n ≤ hi

/-- Has case, and is not passed over beside a sigma. -/
def isCased (c : Char) : Bool :=
  if c.val < 128 then c.isAlpha else inRanges casedRanges c.toNat

/-- Passed over when looking for a letter beside a sigma. -/
def isCaseIgnorable (c : Char) : Bool :=
  inRanges caseIgnorableRanges c.toNat

/-- The lower-case partner of a single character. -/
def lowerPartner (c : Char) : Char :=
  if c.val < 128 then c.toLower
  else
    let n := c.toNat
    match lowerCaseRows.find? fun (first, last, step, _) =>
        first ≤ n && n ≤ last && (n - first) % step = 0 with
    | some (first, _, _, target) => Char.ofNat (target + (n - first))
    | none => c

/-- Whether the next letter, after what is passed over, has case. -/
def meetsCased (cs : List Char) : Bool :=
  match cs.dropWhile isCaseIgnorable with
  | c :: _ => isCased c
  | [] => false

/-- Lower-cases `cs`, which stands after the characters `before` (nearest first). -/
def lowerFrom (before : List Char) : List Char → List Char
  | [] => []
  | c :: cs =>
    let lowered :=
      if c = 'Σ' then [if meetsCased before && !meetsCased cs then 'ς' else 'σ']
      else if c = 'İ' then ['i', '\u0307']
      else [lowerPartner c]
    lowered ++ lowerFrom (c :: before) cs

def lowerCase (s : String) : String :=
  String.ofList (lowerFrom [] s.toList)

end PredicateSql.Text
