import PredicateSql.Proofs.Scoping.Words

/-!
Column names behind an alias, read back. A quoted identifier begins with the opening quote of the
dialect and ends at the first closing quote that is not doubled, so a name is read back if its
closing quotes are written twice. They are written once: a name is read back exactly if there is
none in it, and otherwise what stands behind the first lone one is no longer part of the name.
-/
namespace PredicateSql

namespace Dialect

def openingQuote : Dialect → Char
  | mssql | sqlite => '['
  | postgreSql => '"'

def closingQuote : Dialect → Char
  | mssql | sqlite => ']'
  | postgreSql => '"'

theorem toList_quoteIdent (d : Dialect) (name : String) :
    (d.quoteIdent name).toList = d.openingQuote :: (name.toList ++ [d.closingQuote]) := by
  cases d <;> simp [quoteIdent, openingQuote, closingQuote]

end Dialect

/-! Names in quotes. -/

/-- Reads on inside an identifier in quotes: a doubled closing quote is one character of the name,
and a lone one ends it. Returns the name and what follows it. -/
def lexEnclosed (close : Char) : List Char → Option (List Char × List Char)
  | [] => none
  | c :: cs =>
    if c ≠ close then (lexEnclosed close cs).map fun (name, rest) => (c :: name, rest)
    else
      match cs with
      | [] => some ([], [])
      | c' :: cs' =>
        if c' = close then (lexEnclosed close cs').map fun (name, rest) => (close :: name, rest)
        else some ([], c' :: cs')

section Enclosed

variable {close : Char} {name rest : List Char}

theorem lexEnclosed_cons_of_ne {c : Char} (other : c ≠ close) (cs : List Char) :
    lexEnclosed close (c :: cs) = (lexEnclosed close cs).map fun (name, rest) =>
      (c :: name, rest) := by
  rw [lexEnclosed.eq_def]
  simp only [other, ne_eq, not_false_eq_true, if_true]

/-- A name without closing quotes ends at the first one that follows it and is alone. -/
theorem lexEnclosed_append (plain : close ∉ name) (ends : rest.head? ≠ some close) :
    lexEnclosed close (name ++ close :: rest) = some (name, rest) := by
  induction name with
  | nil =>
    cases rest with
    | nil => simp [lexEnclosed]
    | cons c cs =>
      have other : c ≠ close := fun same => ends (congrArg some same)
      simp [lexEnclosed, other]
  | cons c name ih =>
    obtain ⟨other, plain⟩ := not_or.mp (List.mem_cons.not.mp plain)
    rw [List.cons_append, lexEnclosed_cons_of_ne (Ne.symm other), ih plain]
    rfl

/-- In the text that is read, each closing quote of the name stands twice, and the one that ends it
once. -/
theorem count_of_lexEnclosed {cs : List Char} (read : lexEnclosed close cs = some (name, rest)) :
    cs.count close = 2 * name.count close + 1 + rest.count close := by
  fun_induction lexEnclosed close cs generalizing name with
  | case1 => cases read
  | case2 c cs other ih =>
    obtain ⟨⟨name', rest'⟩, inner, same⟩ := Option.map_eq_some_iff.mp read
    obtain ⟨rfl, rfl⟩ := Prod.mk.inj same
    have counted := ih inner
    rw [List.count_cons_of_ne other, List.count_cons_of_ne other, counted]
  | case3 c lone =>
    obtain ⟨rfl, rfl⟩ := Prod.mk.inj (Option.some.inj read)
    simp [not_not.mp lone]
  | case4 c lone cs ih =>
    obtain ⟨⟨name', rest'⟩, inner, same⟩ := Option.map_eq_some_iff.mp read
    obtain ⟨rfl, rfl⟩ := Prod.mk.inj same
    have counted := ih inner
    rw [not_not.mp lone, List.count_cons_self, List.count_cons_self, List.count_cons_self, counted]
    omega
  | case5 c lone c' cs other =>
    obtain ⟨rfl, rfl⟩ := Prod.mk.inj (Option.some.inj read)
    rw [not_not.mp lone, List.count_cons_self, List.count_nil]
    omega

/-- A name between quotes is read back exactly if there is no closing quote in it. -/
theorem lexEnclosed_append_iff (ends : rest.head? ≠ some close) :
    lexEnclosed close (name ++ close :: rest) = some (name, rest) ↔ close ∉ name := by
  refine ⟨fun read => ?_, fun plain => lexEnclosed_append plain ends⟩
  have counted := count_of_lexEnclosed read
  rw [List.count_append, List.count_cons_self] at counted
  exact List.count_eq_zero.mp (by omega)

end Enclosed

/-! Names without quotes. -/

def isNameChar (c : Char) : Bool :=
  c.isAlphanum || c = '_' || c = '$'

def IsBareName (name : String) : Prop :=
  name ≠ "" ∧ ∀ c ∈ name.toList, isNameChar c = true

instance (name : String) : Decidable (IsBareName name) :=
  decidable_of_iff (name ≠ "" ∧ name.toList.all isNameChar = true)
    (and_congr_right fun _ => List.all_eq_true)

/-- Every alias is a name that can stand without quotes. -/
theorem IsAliasWord.isBareName {word : String} (h : IsAliasWord word) : IsBareName word := by
  refine ⟨?_, fun c member => ?_⟩
  · rintro rfl
    exact absurd h.length (by decide)
  · have letter : c.isAlphanum = (c.isUpper || c.isLower || c.isDigit) := rfl
    simp [isNameChar, letter, h.small c member]

/-- Reads the column that a text begins with: a name without quotes, a dot and a name in the quotes
of the dialect. Returns both names and what follows. -/
def Dialect.lexColumn (d : Dialect) (cs : List Char) : Option (List Char × List Char × List Char) :=
  let name := cs.takeWhile isNameChar
  match cs.dropWhile isNameChar with
  | dot :: opening :: rest =>
    if name ≠ [] ∧ dot = '.' ∧ opening = d.openingQuote then
      (lexEnclosed d.closingQuote rest).map fun (column, rest) => (name, column, rest)
    else none
  | _ => none

/-- The alias is read back, and then the name in quotes. -/
theorem Dialect.lexColumn_qualifiedColumn (d : Dialect) {qualifier : String}
    (bare : IsBareName qualifier) (column : String) (rest : List Char) :
    d.lexColumn ((d.qualifiedColumn qualifier column).toList ++ rest) =
      (lexEnclosed d.closingQuote (column.toList ++ d.closingQuote :: rest)).map
        fun (column, rest) => (qualifier.toList, column, rest) := by
  obtain ⟨given, chars⟩ := bare
  have dot : isNameChar '.' = false := by decide
  have text : (d.qualifiedColumn qualifier column).toList ++ rest =
      qualifier.toList ++ '.' :: d.openingQuote :: (column.toList ++ d.closingQuote :: rest) := by
    simp [qualifiedColumn, toList_quoteIdent]
  have name :
      (qualifier.toList ++ '.' :: d.openingQuote ::
        (column.toList ++ d.closingQuote :: rest)).takeWhile
      isNameChar = qualifier.toList := by
    rw [List.takeWhile_append_of_pos chars, List.takeWhile_cons_of_neg (by simp [dot]),
      List.append_nil]
  have behind :
      (qualifier.toList ++ '.' :: d.openingQuote ::
        (column.toList ++ d.closingQuote :: rest)).dropWhile
      isNameChar = '.' :: d.openingQuote :: (column.toList ++ d.closingQuote :: rest) := by
    rw [List.dropWhile_append_of_pos chars, List.dropWhile_cons_of_neg (by simp [dot])]
  have some : qualifier.toList ≠ [] := fun none => given (String.toList_eq_nil_iff.mp none)
  simp only [lexColumn, text, name, behind]
  exact if_pos ⟨some, trivial, trivial⟩

/-- A column behind an alias is read back, and what follows it is left, exactly if the closing quote
of the dialect is not in its name. Otherwise the name ends at its first closing quote that stands
alone, and all that follows there, the rest of the name included, is left as the text behind the
column. -/
theorem qualifiedColumn_read_back_iff (d : Dialect) {qualifier : String}
    (bare : IsBareName qualifier) (column : String) :
    (∀ rest : List Char, rest.head? ≠ some d.closingQuote →
      (d.lexColumn ((d.qualifiedColumn qualifier column).toList ++ rest) =
        some (qualifier.toList, column.toList, rest) ↔ d.closingQuote ∉ column.toList)) ∧
    ∀ name c more, column.toList = name ++ d.closingQuote :: c :: more → d.closingQuote ∉ name →
      c ≠ d.closingQuote →
      ∀ rest : List Char, d.lexColumn ((d.qualifiedColumn qualifier column).toList ++ rest) =
        some (qualifier.toList, name, c :: more ++ d.closingQuote :: rest) := by
  refine ⟨fun rest ends => ?_, fun name c more spelled plain other rest => ?_⟩
  · have inside : lexEnclosed d.closingQuote (column.toList ++ d.closingQuote :: rest) =
        some (column.toList, rest) ↔
        d.closingQuote ∉ column.toList := lexEnclosed_append_iff ends
    rw [d.lexColumn_qualifiedColumn bare, ← inside]
    refine ⟨fun read => ?_, fun read => by rw [read]; rfl⟩
    obtain ⟨⟨name, rest'⟩, inner, same⟩ := Option.map_eq_some_iff.mp read
    obtain ⟨rfl, rfl⟩ := Prod.mk.inj (Prod.mk.inj same).2
    exact inner
  · have ends : (c :: more ++ d.closingQuote :: rest).head? ≠ some d.closingQuote :=
      fun same => other (Option.some.inj same)
    have written : column.toList ++ d.closingQuote :: rest =
        name ++ d.closingQuote :: (c :: more ++ d.closingQuote :: rest) := by
      simp [spelled]
    rw [d.lexColumn_qualifiedColumn bare, written, lexEnclosed_append plain ends]
    rfl

/-- A bracket is an ordinary character between double quotes, also at the end of a name. -/
theorem bracketed_column_read_back :
    IsBareName "cakn" ∧ (" = 1".toList.head? ≠ some Dialect.postgreSql.closingQuote) ∧
      Dialect.postgreSql.lexColumn
        ((Dialect.postgreSql.qualifiedColumn "cakn" "a[0]").toList ++ " = 1".toList) =
        some ("cakn".toList, "a[0]".toList, " = 1".toList) := by
  have word : IsAliasWord "cakn" := by decide
  have bare : IsBareName "cakn" := word.isBareName
  have ends : " = 1".toList.head? ≠ some Dialect.postgreSql.closingQuote := by decide
  have plain : Dialect.postgreSql.closingQuote ∉ "a[0]".toList := by decide
  exact ⟨bare, ends, (((qualifiedColumn_read_back_iff .postgreSql bare "a[0]").1 _ ends).mpr plain)⟩

/-- Between brackets, the name ends at the bracket. -/
theorem bracketed_column_ends_early :
    IsAliasWord "cakn" ∧ ([].head? ≠ some Dialect.mssql.closingQuote) ∧
      Dialect.mssql.lexColumn (Dialect.mssql.qualifiedColumn "cakn" "a]b").toList =
        some ("cakn".toList, "a".toList, "b]".toList) :=
  ⟨by decide, by decide, by decide +kernel⟩

end PredicateSql
