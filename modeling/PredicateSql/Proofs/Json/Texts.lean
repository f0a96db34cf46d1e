import PredicateSql.Proofs.Json.Numerals
import PredicateSql.Proofs.Text.Hexadecimals

/-!
Compact JSON text is read as the tree of its value, whatever may follow it. Numerals and strings in
the tree are not evaluated yet; only the escapes with a number differ from the characters that they
stand for.
-/
namespace PredicateSql.Json

/-! ### Strings -/

/-- The characters that are escaped by a letter or by themselves. -/
def lettered : List Char :=
  ['"', '\\', '\x08', '\x0c', '\n', '\r', '\t']

def isNumbered (c : Char) : Bool :=
  c.toNat < 0x20 && c ∉ lettered

namespace Piece

def ofChar (c : Char) : Piece :=
  if isNumbered c then unit c.toNat else char c

theorem text?_unit {n : Nat} (control : n < 0x20) (seen : List Char) (rest : List Piece) :
    text? seen (unit n :: rest) = text? (Char.ofNat n :: seen) rest := by
  have plain : isHigh n = false ∧ isLow n = false := by
    simp only [isHigh, isLow, Bool.and_eq_false_iff, decide_eq_false_iff_not]
    omega
  match rest with
  | [] => simp [text?, plain]
  | char c :: rest => simp [text?, plain]
  | unit low :: rest => simp [text?, plain]

/-- The pieces of characters make up these characters. -/
theorem text?_map_ofChar (seen cs : List Char) :
    text? seen (cs.map ofChar) = some (String.ofList (seen.reverse ++ cs)) := by
  induction cs generalizing seen with
  | nil => simp [text?]
  | cons c cs whole =>
    rw [List.map_cons, ofChar]
    split
    next numbered =>
      have control : c.toNat < 0x20 := by
        simp only [isNumbered, Bool.and_eq_true, decide_eq_true_eq] at numbered
        exact numbered.1
      rw [text?_unit control, whole, Char.ofNat_toNat]
      simp
    next =>
      rw [text?, whole]
      simp

end Piece

def pieces (s : String) : List Piece :=
  s.toList.map Piece.ofChar

theorem text?_pieces (s : String) : Piece.text? [] (pieces s) = some s := by
  rw [pieces, Piece.text?_map_ofChar, List.reverse_nil, List.nil_append, String.ofList_toList]

theorem fourDigits?_digits {n : Nat} (small : n < 16 ^ 4) (rest : List Char) :
    fourDigits? (Text.Hex.digits 4 n ++ rest) = some (n, rest) := by
  obtain ⟨a, b, c, d, four⟩ : ∃ a b c d, Text.Hex.digits 4 n = [a, b, c, d] := ⟨_, _, _, _, rfl⟩
  have value := Text.Hex.number?_digits 4 0 n
  rw [four, Nat.zero_mul, Nat.zero_add, Nat.mod_eq_of_lt small] at value
  rw [four]
  simp [fourDigits?, value]

/-- A character is read in one turn, escaped or not. -/
theorem stringRest?_escapeChar (fuel : Nat) (seen : List Piece) (c : Char) (cs : List Char) :
    stringRest? (fuel + 1) seen (escapeChar c ++ cs) =
      stringRest? fuel (Piece.ofChar c :: seen) cs := by
  by_cases escaped : c ∈ lettered
  · simp only [lettered, List.mem_cons, List.not_mem_nil, or_false] at escaped
    rcases escaped with rfl | rfl | rfl | rfl | rfl | rfl | rfl <;> rfl
  · have others := escaped
    simp only [lettered, List.mem_cons, List.not_mem_nil, or_false, not_or] at others
    obtain ⟨quote, backslash, backspace, feed, newline, back, tab⟩ := others
    by_cases control : c.toNat < 0x20
    · have four := fourDigits?_digits (by omega : c.toNat < 16 ^ 4) cs
      simp [escapeChar, quote, backslash, backspace, feed, newline, back, tab, control, stringRest?,
        escape?, four, Piece.ofChar, isNumbered, escaped]
    · simp [escapeChar, quote, backslash, backspace, feed, newline, back, tab, control, stringRest?,
        Piece.ofChar, isNumbered]

theorem stringRest?_flatMap {fuel : Nat} {cs : List Char} (enough : cs.length < fuel)
    (seen : List Piece) (rest : List Char) :
    stringRest? fuel seen (cs.flatMap escapeChar ++ '"' :: rest) =
      some (seen.reverse ++ cs.map Piece.ofChar, rest) := by
  induction cs generalizing fuel seen with
  | nil =>
    obtain ⟨fuel, rfl⟩ := Nat.exists_eq_add_of_lt enough
    simp [stringRest?]
  | cons c cs read =>
    obtain ⟨fuel, rfl⟩ : ∃ less, fuel = less + 1 := ⟨fuel - 1, by omega⟩
    rw [List.flatMap_cons, List.append_assoc, stringRest?_escapeChar, read (by simpa using enough)]
    simp

theorem toList_quoted (s : String) :
    (quoted s).toList = '"' :: (s.toList.flatMap escapeChar ++ ['"']) := by
  simp [quoted]

/-- A string in quotes is read as its pieces. -/
theorem string?_quoted {fuel : Nat} {s : String} (enough : s.toList.length < fuel)
    (rest : List Char) :
    string? fuel ((quoted s).toList ++ rest) = some (pieces s, rest) := by
  rw [toList_quoted, List.cons_append, string?, List.append_assoc, List.singleton_append,
    stringRest?_flatMap enough]
  rfl

theorem length_le_flatMap (cs : List Char) : cs.length ≤ (cs.flatMap escapeChar).length := by
  have some (c : Char) : 0 < (escapeChar c).length := by
    unfold escapeChar
    repeat' split
    all_goals simp
  induction cs with
  | nil => simp
  | cons c cs whole =>
    have := some c
    rw [List.flatMap_cons, List.length_append, List.length_cons]
    omega

theorem length_quoted (s : String) : s.toList.length + 2 ≤ (quoted s).toList.length := by
  have := length_le_flatMap s.toList
  rw [toList_quoted, List.length_cons, List.length_append, List.length_singleton]
  omega

/-! ### Values -/

mutual

/-- The tree that the text of a value is read as. JSON has no text for numbers that are not
finite. -/
def written : Json → Written
  | null => .null
  | bool b => .bool b
  | int n => .number (.ofInt n)
  | float x => if x.isFinite then .number x.numeral else .null
  | string s => .string (pieces s)
  | array items => .array (writtenItems items)
  | object members => .object (writtenMembers members)

def writtenItems : List Json → List Written
  | [] => []
  | item :: rest => written item :: writtenItems rest

def writtenMembers : List (String × Json) → List (List Piece × Written)
  | [] => []
  | (name, value) :: rest => (pieces name, written value) :: writtenMembers rest

end

def starts : List Char :=
  ['n', 't', 'f', '"', '[', '\x7b', '-']

theorem not_isSpace_of_starts {c : Char} (start : c ∈ starts ∨ Decimal.isDigit c = true) :
    isSpace c = false ∧ c ≠ ']' := by
  rcases start with start | digit
  · have all : ∀ c ∈ starts, isSpace c = false ∧ c ≠ ']' := by simp [starts, isSpace]
    exact all c start
  · have space : c ≠ ' ' := Decimal.ne_of_isDigit digit (by decide)
    have newline : c ≠ '\n' := Decimal.ne_of_isDigit digit (by decide)
    have tab : c ≠ '\t' := Decimal.ne_of_isDigit digit (by decide)
    have back : c ≠ '\r' := Decimal.ne_of_isDigit digit (by decide)
    exact ⟨by simp [isSpace, space, newline, tab, back], Decimal.ne_of_isDigit digit (by decide)⟩

theorem toList_render_array (items : List Json) : (array items).render.toList =
    '[' :: ((String.intercalate "," (renderItems items)).toList ++ [']']) := by
  rw [render, String.toList_append, String.toList_append]
  rfl

theorem toList_render_object (members : List (String × Json)) : (object members).render.toList =
    '\x7b' :: ((String.intercalate "," (renderMembers members)).toList ++ ['\x7d']) := by
  rw [render, String.toList_append, String.toList_append]
  rfl

theorem Numeral.exists_chars {x : Numeral} (regular : x.IsRegular) :
    ∃ c cs, x.chars = c :: cs ∧ (c = '-' ∨ Decimal.isDigit c = true) := by
  obtain ⟨c, cs, digit, body⟩ := exists_bodyChars regular
  rw [chars, body]
  cases x.negative with
  | true => exact ⟨_, _, rfl, .inl rfl⟩
  | false => exact ⟨_, _, rfl, .inr digit⟩

/-- The first character of a text tells a value from a blank and from the end of an array. -/
theorem exists_render (j : Json) :
    ∃ c cs, j.render.toList = c :: cs ∧ isSpace c = false ∧ c ≠ ']' := by
  suffices some : ∃ c cs, j.render.toList = c :: cs ∧ (c ∈ starts ∨ Decimal.isDigit c = true) by
    obtain ⟨c, cs, begins, start⟩ := some
    exact ⟨c, cs, begins, not_isSpace_of_starts start⟩
  have numeral {x : Numeral} (regular : x.IsRegular) :
      ∃ c cs, x.chars = c :: cs ∧ (c ∈ starts ∨ Decimal.isDigit c = true) := by
    obtain ⟨c, cs, begins, rfl | digit⟩ := Numeral.exists_chars regular
    · exact ⟨_, cs, begins, .inl (by decide)⟩
    · exact ⟨c, cs, begins, .inr digit⟩
  cases j with
  | null => exact ⟨'n', _, rfl, .inl (by decide)⟩
  | bool b =>
    cases b with
    | true => exact ⟨'t', _, rfl, .inl (by decide)⟩
    | false => exact ⟨'f', _, rfl, .inl (by decide)⟩
  | int n =>
    rw [render, ← Numeral.chars_ofInt]
    exact numeral (Numeral.isRegular_ofInt n)
  | float x =>
    rw [render]
    cases finite : x.isFinite with
    | true =>
      rw [Double.toList_jsonText finite]
      exact numeral x.isRegular_numeral
    | false =>
      rw [Double.jsonText_of_not_finite finite]
      exact ⟨'n', _, rfl, .inl (by decide)⟩
  | string s =>
    rw [render, toList_quoted]
    exact ⟨'"', _, rfl, .inl (by decide)⟩
  | array items => exact ⟨'[', _, toList_render_array items, .inl (by decide)⟩
  | object members => exact ⟨'\x7b', _, toList_render_object members, .inl (by decide)⟩

theorem skipSpace_cons {c : Char} (mark : isSpace c = false) (cs : List Char) :
    skipSpace (c :: cs) = c :: cs := by
  simp [skipSpace, mark]

theorem skipSpace_render (j : Json) (rest : List Char) :
    skipSpace (j.render.toList ++ rest) = j.render.toList ++ rest := by
  obtain ⟨c, cs, begins, start, -⟩ := exists_render j
  rw [begins, List.cons_append, skipSpace_cons start]

variable {fuel : Nat} {rest : List Char}

theorem value?_chars {x : Numeral} (regular : x.IsRegular) (follows : Follows rest) :
    value? (fuel + 1) (x.chars ++ rest) = some (.number x, rest) := by
  have read := Numeral.numeral?_chars regular follows.endsNumeral
  obtain ⟨c, cs, begins, start⟩ := Numeral.exists_chars regular
  have other : ∀ mark, Decimal.isDigit mark = false → mark ≠ '-' → c ≠ mark := by
    intro mark letter plain
    rcases start with rfl | digit
    · exact plain.symm
    · exact Decimal.ne_of_isDigit digit letter
  rw [begins, List.cons_append] at read ⊢
  -- every other kind of value begins with a character of its own
  have n := other 'n' (by decide) (by decide)
  have t := other 't' (by decide) (by decide)
  have f := other 'f' (by decide) (by decide)
  have quote := other '"' (by decide) (by decide)
  have bracket := other '[' (by decide) (by decide)
  have brace := other '\x7b' (by decide) (by decide)
  rw [value?]
  simp only [read, Option.map_some]
  all_goals simp [n, t, f, quote, bracket, brace]

theorem value?_quoted {s : String} (enough : s.toList.length < fuel) :
    value? (fuel + 1) ((quoted s).toList ++ rest) = some (.string (pieces s), rest) := by
  have read := string?_quoted enough rest
  rw [toList_quoted, List.cons_append] at read ⊢
  rw [value?, read]
  rfl

theorem toList_intercalate_cons (first second : String) (more : List String) :
    (String.intercalate "," (first :: second :: more)).toList =
      first.toList ++ ',' :: (String.intercalate "," (second :: more)).toList := by
  rw [String.intercalate_cons_cons, String.toList_append, String.toList_append, List.append_assoc]
  rfl

/-- Induction over values that reaches the items of arrays and the values of members. -/
@[elab_as_elim]
theorem inductionOn {motive : Json → Prop} (j : Json) (null : motive .null)
    (bool : ∀ b, motive (.bool b)) (int : ∀ n, motive (.int n)) (float : ∀ x, motive (.float x))
    (string : ∀ s, motive (.string s))
    (array : ∀ items, (∀ item ∈ items, motive item) → motive (.array items))
    (object : ∀ members, (∀ m ∈ members, motive m.2) → motive (.object members)) : motive j :=
  @Json.rec motive (fun items => ∀ item ∈ items, motive item)
    (fun members => ∀ m ∈ members, motive m.2)
    (fun m => motive m.2) null bool int float string (fun items inner => array items inner)
    (fun members inner => object members inner) (fun _ h => nomatch h)
    (fun _ _ first rest _ h => (List.mem_cons.mp h).elim (fun same => same ▸ first) (rest _))
    (fun _ h => nomatch h)
    (fun _ _ first rest _ h => (List.mem_cons.mp h).elim (fun same => same ▸ first) (rest _))
    (fun _ _ inner => inner) j

/-- The text of a value is read as its tree. Twice its length is enough fuel: each item and each
member takes one unit more than its text, and the marks around it give more. -/
def IsRead (j : Json) : Prop :=
  ∀ {fuel : Nat} {rest : List Char}, 2 * j.render.toList.length ≤ fuel → Follows rest →
    value? fuel (j.render.toList ++ rest) = some (j.written, rest)

/-- The texts of items begin with an item. -/
theorem exists_renderItems (item : Json) (items : List Json) :
    ∃ c cs, (String.intercalate "," (renderItems (item :: items))).toList = c :: cs ∧
      isSpace c = false ∧ c ≠ ']' := by
  obtain ⟨c, cs, begins, start⟩ := exists_render item
  cases items with
  | nil =>
    rw [renderItems, renderItems, String.intercalate_singleton]
    exact ⟨c, cs, begins, start⟩
  | cons next more =>
    rw [renderItems, renderItems, toList_intercalate_cons, begins]
    exact ⟨c, _, rfl, start⟩

theorem skipSpace_renderItems (item : Json) (items : List Json) (rest : List Char) :
    skipSpace ((String.intercalate "," (renderItems (item :: items))).toList ++ rest) =
      (String.intercalate "," (renderItems (item :: items))).toList ++ rest := by
  obtain ⟨c, cs, begins, start, -⟩ := exists_renderItems item items
  rw [begins]
  exact skipSpace_cons start _

/-- The last item is read up to the bracket behind it. -/
theorem items?_last {cs : List Char} {item : Written}
    (read : value? fuel cs = some (item, ']' :: rest)) (seen : List Written) :
    items? (fuel + 1) seen cs = some (seen.reverse ++ [item], rest) := by
  have closes : skipSpace (']' :: rest) = ']' :: rest := skipSpace_cons (by decide) rest
  rw [items?, read]
  simp only [closes]
  rw [List.reverse_cons]

/-- An item that others follow is read up to the comma behind it. -/
theorem items?_more {cs : List Char} {item : Written}
    (read : value? fuel cs = some (item, ',' :: rest)) (seen : List Written) :
    items? (fuel + 1) seen cs = items? fuel (item :: seen) (skipSpace rest) := by
  have onward : skipSpace (',' :: rest) = ',' :: rest := skipSpace_cons (by decide) rest
  rw [items?, read]
  simp only [onward]

/-- Items behind others are read up to the end of their array. -/
theorem items?_render {items : List Json} (each : ∀ item ∈ items, item.IsRead) (some : items ≠ [])
    {fuel : Nat} (seen : List Written)
    (enough : 2 * (String.intercalate "," (renderItems items)).toList.length < fuel)
    (rest : List Char) :
    items? fuel seen ((String.intercalate "," (renderItems items)).toList ++ ']' :: rest) =
      Option.some (seen.reverse ++ writtenItems items, rest) := by
  induction items generalizing fuel seen with
  | nil => exact absurd rfl some
  | cons item items behind =>
    obtain ⟨fuel, rfl⟩ : ∃ less, fuel = less + 1 := ⟨fuel - 1, by omega⟩
    obtain ⟨first, others⟩ := List.forall_mem_cons.mp each
    cases items with
    | nil =>
      rw [renderItems, renderItems, String.intercalate_singleton] at enough ⊢
      exact items?_last (first (by omega) (.cons (by decide))) seen
    | cons next more =>
      have shape : (String.intercalate "," (renderItems (item :: next :: more))).toList =
          item.render.toList ++ ',' ::
          (String.intercalate "," (renderItems (next :: more))).toList :=
        toList_intercalate_cons _ _ _
      rw [shape, List.length_append, List.length_cons] at enough
      -- the comma behind the item leaves a unit of fuel more than the other items take
      have left := behind others (List.cons_ne_nil _ _) (item.written :: seen) (by omega : _ < fuel)
      rw [shape, List.append_assoc, List.cons_append,
        items?_more (first (by omega) (.cons (by decide))) seen, skipSpace_renderItems, left,
        List.reverse_cons, List.append_assoc]
      rfl

theorem renderMembers_cons (name : String) (value : Json) (members : List (String × Json)) :
    ∃ text, renderMembers ((name, value) :: members) = text :: renderMembers members ∧
      text.toList = (quoted name).toList ++ ':' :: value.render.toList :=
  ⟨_, rfl, by simp⟩

/-- The texts of members begin with a quote. -/
theorem exists_renderMembers (member : String × Json) (members : List (String × Json)) :
    ∃ cs, (String.intercalate "," (renderMembers (member :: members))).toList = '"' :: cs := by
  obtain ⟨text, shape, chars⟩ := renderMembers_cons member.1 member.2 members
  rw [toList_quoted] at chars
  rw [shape]
  cases members with
  | nil =>
    rw [renderMembers, String.intercalate_singleton, chars]
    exact ⟨_, rfl⟩
  | cons next more =>
    rw [renderMembers, toList_intercalate_cons, chars]
    exact ⟨_, rfl⟩

theorem skipSpace_renderMembers (member : String × Json) (members : List (String × Json))
    (rest : List Char) :
    skipSpace ((String.intercalate "," (renderMembers (member :: members))).toList ++ rest) =
      (String.intercalate "," (renderMembers (member :: members))).toList ++ rest := by
  obtain ⟨cs, begins⟩ := exists_renderMembers member members
  rw [begins]
  exact skipSpace_cons (by decide) _

section Member

variable {name : String} {value : Json} (enough : name.toList.length < fuel)
  (seen : List (List Piece × Written))
include enough

/-- The last member is read up to the brace behind its value. -/
theorem members?_last (read : value? fuel (value.render.toList ++ '\x7d' :: rest) =
      some (value.written, '\x7d' :: rest)) :
    members? (fuel + 1) seen
      ((quoted name).toList ++ ':' :: (value.render.toList ++ '\x7d' :: rest)) =
      some (seen.reverse ++ [(pieces name, value.written)], rest) := by
  have colon (cs : List Char) : skipSpace (':' :: cs) = ':' :: cs := skipSpace_cons (by decide) cs
  have closes : skipSpace ('\x7d' :: rest) = '\x7d' :: rest := skipSpace_cons (by decide) rest
  rw [members?, string?_quoted enough]
  simp only [colon, skipSpace_render, read, closes]
  rw [List.reverse_cons]

/-- A member that others follow is read up to the comma behind its value. -/
theorem members?_more
    (read : value? fuel (value.render.toList ++ ',' :: rest) = some (value.written, ',' :: rest)) :
    members? (fuel + 1) seen ((quoted name).toList ++ ':' :: (value.render.toList ++ ',' :: rest)) =
      members? fuel ((pieces name, value.written) :: seen) (skipSpace rest) := by
  have colon (cs : List Char) : skipSpace (':' :: cs) = ':' :: cs := skipSpace_cons (by decide) cs
  have onward : skipSpace (',' :: rest) = ',' :: rest := skipSpace_cons (by decide) rest
  rw [members?, string?_quoted enough]
  simp only [colon, skipSpace_render, read, onward]

end Member

/-- Members behind others are read up to the end of their object. -/
theorem members?_render {members : List (String × Json)} (each : ∀ m ∈ members, m.2.IsRead)
    (some : members ≠ []) {fuel : Nat} (seen : List (List Piece × Written))
    (enough : 2 * (String.intercalate "," (renderMembers members)).toList.length < fuel)
    (rest : List Char) :
    members? fuel seen ((String.intercalate "," (renderMembers members)).toList ++ '\x7d' :: rest) =
      Option.some (seen.reverse ++ writtenMembers members, rest) := by
  induction members generalizing fuel seen with
  | nil => exact absurd rfl some
  | cons member members behind =>
    obtain ⟨name, value⟩ := member
    obtain ⟨fuel, rfl⟩ : ∃ less, fuel = less + 1 := ⟨fuel - 1, by omega⟩
    obtain ⟨(first : value.IsRead), others⟩ := List.forall_mem_cons.mp each
    obtain ⟨text, shape, chars⟩ := renderMembers_cons name value members
    have length := length_quoted name
    cases members with
    | nil =>
      rw [shape, renderMembers, String.intercalate_singleton, chars] at enough ⊢
      rw [List.length_append, List.length_cons] at enough
      rw [List.append_assoc, List.cons_append]
      exact members?_last (by omega) seen (first (by omega) (.cons (by decide)))
    | cons next more =>
      have whole : (String.intercalate "," (renderMembers ((name, value) :: next :: more))).toList =
          (quoted name).toList ++ ':' :: (value.render.toList ++
            ',' :: (String.intercalate "," (renderMembers (next :: more))).toList) := by
        rw [shape, renderMembers, toList_intercalate_cons, chars, List.append_assoc]
        rfl
      rw [whole, List.length_append, List.length_cons, List.length_append,
        List.length_cons] at enough
      have left := behind others (List.cons_ne_nil _ _) ((pieces name, value.written) :: seen)
        (by omega : _ < fuel)
      rw [whole, List.append_assoc, List.cons_append, List.append_assoc, List.cons_append,
        members?_more (by omega) seen (first (by omega) (.cons (by decide))),
        skipSpace_renderMembers, left,
        List.reverse_cons, List.append_assoc]
      rfl

theorem isRead_array {items : List Json} (each : ∀ item ∈ items, item.IsRead) :
    (array items).IsRead := by
  intro fuel rest enough follows
  rw [toList_render_array, List.length_cons, List.length_append, List.length_singleton] at enough
  obtain ⟨fuel, rfl⟩ : ∃ less, fuel = less + 1 := ⟨fuel - 1, by omega⟩
  rw [toList_render_array, List.cons_append, List.append_assoc, List.singleton_append]
  cases items with
  | nil => rfl
  | cons item items =>
    have read := items?_render each (List.cons_ne_nil _ _) [] (by omega : _ < fuel) rest
    obtain ⟨c, cs, begins, -, other⟩ := exists_renderItems item items
    rw [value?, skipSpace_renderItems]
    split
    next closed =>
      rw [begins] at closed
      exact absurd (List.cons.inj closed).1 other
    next =>
      rw [read]
      rfl

theorem isRead_object {members : List (String × Json)} (each : ∀ m ∈ members, m.2.IsRead) :
    (object members).IsRead := by
  intro fuel rest enough follows
  rw [toList_render_object, List.length_cons, List.length_append, List.length_singleton] at enough
  obtain ⟨fuel, rfl⟩ : ∃ less, fuel = less + 1 := ⟨fuel - 1, by omega⟩
  rw [toList_render_object, List.cons_append, List.append_assoc, List.singleton_append]
  cases members with
  | nil => rfl
  | cons member members =>
    have read := members?_render each (List.cons_ne_nil _ _) [] (by omega : _ < fuel) rest
    obtain ⟨cs, begins⟩ := exists_renderMembers member members
    rw [value?, skipSpace_renderMembers]
    split
    next closed =>
      rw [begins] at closed
      cases closed
    next =>
      rw [read]
      rfl

theorem isRead_of_succ {j : Json}
    (read : ∀ {fuel : Nat} {rest : List Char}, 2 * j.render.toList.length ≤ fuel + 1 →
      Follows rest → value? (fuel + 1) (j.render.toList ++ rest) = some (j.written, rest)) :
    j.IsRead := by
  intro fuel rest enough follows
  obtain ⟨c, cs, begins, -⟩ := exists_render j
  cases fuel with
  | zero => simp [begins] at enough
  | succ fuel => exact read enough follows

theorem isRead_float (x : Double) : (float x).IsRead := by
  refine isRead_of_succ fun enough follows => ?_
  rw [render, written]
  cases finite : x.isFinite with
  | true =>
    rw [Double.toList_jsonText finite]
    exact value?_chars x.isRegular_numeral follows
  | false =>
    rw [Double.jsonText_of_not_finite finite]
    rfl

/-- The text of every value is read as its tree. -/
theorem isRead (j : Json) : j.IsRead := by
  induction j using inductionOn with
  | null => exact isRead_of_succ fun enough follows => rfl
  | bool b =>
    cases b with
    | true => exact isRead_of_succ fun enough follows => rfl
    | false => exact isRead_of_succ fun enough follows => rfl
  | int n =>
    refine isRead_of_succ fun enough follows => ?_
    rw [render, ← Numeral.chars_ofInt]
    exact value?_chars (Numeral.isRegular_ofInt n) follows
  | float x => exact isRead_float x
  | string s =>
    refine isRead_of_succ fun enough follows => ?_
    have length := length_quoted s
    rw [render] at enough ⊢
    exact value?_quoted (by omega)
  | array items each => exact isRead_array each
  | object members each => exact isRead_object each

/-- Compact text holds one value, the tree of the value that it was printed for. -/
theorem ofText?_render (j : Json) : Written.ofText? j.render = some j.written := by
  have start := skipSpace_render j []
  have read := j.isRead (by omega : _ ≤ 2 * j.render.toList.length + 2) .nil
  rw [List.append_nil] at start read
  rw [Written.ofText?, start]
  simp only [read]
  rfl

end PredicateSql.Json
