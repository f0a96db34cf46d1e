import PredicateSql.Proofs.Compilation.Calls
import PredicateSql.Proofs.Lowering.Conversions

/-!
Calls with conversions. A predicate is accepted or rejected as it is without its conversions,
whatever stands below them; a modifier below a conversion is a predicate, and no valid one.
-/
namespace PredicateSql

variable {n : Nat}

namespace Expr

variable {e : Expr}

theorem ne_modifier_of_strip_ne (predicate : ∀ m, e.strip ≠ modifier m) (m : Modifier) :
    e ≠ modifier m := by
  rintro rfl
  exact predicate m rfl

theorem strip_unconverted_ne_modifier (predicate : ∀ m, e.strip ≠ modifier m) (m : Modifier) :
    e.unconverted.strip ≠ modifier m := by
  rw [strip_unconverted]
  cases stripped : e.strip with
  | modifier m => exact absurd stripped (predicate m)
  | convert e' => exact absurd stripped (e.strip_ne_convert e')
  | _ => exact nofun

end Expr

namespace Compiler

/-- A predicate below conversions leads where it leads without them. -/
theorem add_unconverted (c : Compiler n) (b : Bindings) {e : Expr}
    (predicate : ∀ m, e.strip ≠ .modifier m) : c.add b e.unconverted = c.add b e := by
  have text : predicateText (c.context b) c.origin e.unconverted =
      predicateText (c.context b) c.origin e := by
    rw [predicateText, predicate_unconverted, predicateText]
  rw [add_predicate c b (Expr.ne_modifier_of_strip_ne predicate),
    add_predicate c b (Expr.ne_modifier_of_strip_ne (Expr.strip_unconverted_ne_modifier predicate)),
    text]

end Compiler

/-- No conversion of a predicate is seen: without them all it is accepted or rejected alike, with
the same error, and leaves the same compiler. -/
theorem conversions_are_not_seen (c : Compiler n) (b : Bindings) (e : Expr)
    (predicate : ∀ m, e.strip ≠ .modifier m) :
    e.unconverted.conversions = 0 ∧ c.add b e.unconverted = c.add b e :=
  ⟨e.conversions_unconverted, c.add_unconverted b predicate⟩

namespace Bookshelf

/-- Books that are not lent and have a title with an `m` or none, or books on full shelves; all is
converted. -/
def convertedBooks : Expr :=
  .convert (.or
    (.and (.not (.convert lent))
      (.or (.contains (.convert (.convert title)) (.convert (.constant (.string "m"))))
        (.binary .equal (.convert (.constant .null)) (.convert title))))
    (.convert (.binary .notEqual (.convert (.isNullOrEmpty (.convert title)))
      (.convert shelfFull))))

/-- The same without conversions. -/
def unconvertedBooks : Expr :=
  .or
    (.and (.not lent)
      (.or (.contains title (.constant (.string "m"))) (.binary .equal (.constant .null) title)))
    (.binary .notEqual (.isNullOrEmpty title) shelfFull)

end Bookshelf

/-- An accepted predicate and a rejected one, with conversions and without. -/
theorem converted_books_are_found_alike :
    (∀ m, Bookshelf.convertedBooks.strip ≠ .modifier m) ∧
      Bookshelf.convertedBooks.unconverted = Bookshelf.unconvertedBooks ∧
      (Bookshelf.books.add .empty Bookshelf.unconvertedBooks).1.toBool = true ∧
      Bookshelf.books.add .empty Bookshelf.unconvertedBooks =
        Bookshelf.books.add .empty Bookshelf.convertedBooks ∧
      (Bookshelf.books.add .empty (.convert Bookshelf.title)).1.toBool = false ∧
      Bookshelf.books.add .empty Bookshelf.title =
        Bookshelf.books.add .empty (.convert Bookshelf.title) := by
  have unseen := conversions_are_not_seen Bookshelf.books .empty
  refine ⟨nofun, rfl, by decide +kernel, ?_, by decide +kernel, ?_⟩
  · exact (unseen Bookshelf.convertedBooks nofun).2
  · exact (unseen (.convert Bookshelf.title) nofun).2

end PredicateSql
