import PredicateSql.Proofs.Encryption.Literals
import PredicateSql.Proofs.Quoting.Literals

/-!
Lists in texts. The items of a text are what stands between its commas outside of literals. A value
is written without regard for its lists: each scalar in it is one item, and an empty list is an item
without text.
-/
namespace PredicateSql

/-! Items of texts. -/

/-- What stands between the commas outside of literals. -/
def splitItems (quoted : Bool) : List Char → List (List Char)
  | [] => [[]]
  | c :: cs =>
    if c = ',' ∧ quoted = false then [] :: splitItems quoted cs
    else (splitItems (if c = '\'' then !quoted else quoted) cs).modifyHead (c :: ·)

def itemsOf (text : String) : List String :=
  (splitItems false text.toList).map String.ofList

/-- A sequence of literals with commas between them, at least one and each with a text. -/
def IsListing (text : String) : Prop :=
  ∀ item ∈ itemsOf text, IsOneLiteral item

instance (text : String) : Decidable (IsListing text) :=
  List.decidableBAll IsOneLiteral (itemsOf text)

theorem splitItems_ne_nil (quoted : Bool) (cs : List Char) : splitItems quoted cs ≠ [] := by
  induction cs generalizing quoted with
  | nil => exact List.cons_ne_nil _ _
  | cons c cs ih =>
    rw [splitItems]
    split
    · exact List.cons_ne_nil _ _
    · simp [ih]

theorem itemsOf_ne_nil (text : String) : itemsOf text ≠ [] := by
  simp [itemsOf, splitItems_ne_nil]

/-- A comma outside of literals ends an item. -/
theorem splitItems_append {quoted : Bool} {cs : List Char} (closed : quotedAfter quoted cs = false)
    (rest : List Char) :
    splitItems quoted (cs ++ ',' :: rest) = splitItems quoted cs ++ splitItems false rest := by
  induction cs generalizing quoted with
  | nil =>
    obtain rfl : quoted = false := closed
    rfl
  | cons c cs ih =>
    rw [List.cons_append, splitItems, splitItems]
    split
    next comma =>
      obtain ⟨rfl, rfl⟩ := comma
      exact congrArg ([] :: ·) (ih closed)
    · rw [ih closed]
      generalize (if c = '\'' then !quoted else quoted) = inside
      obtain ⟨item, items, same⟩ := List.exists_cons_of_ne_nil (splitItems_ne_nil inside cs)
      rw [same]
      rfl

theorem itemsOf_intercalate {texts : List String} (some : texts ≠ [])
    (closed : ∀ text ∈ texts, QuotesClosed text) :
    itemsOf (String.intercalate "," texts) = texts.flatMap itemsOf := by
  induction texts with
  | nil => exact absurd rfl some
  | cons text rest ih =>
    cases rest with
    | nil => simp
    | cons next rest =>
      have others := ih (List.cons_ne_nil _ _) fun text' member =>
        closed text' (List.mem_cons_of_mem _ member)
      have ends : quotedAfter false text.toList = false := closed text List.mem_cons_self
      have spelled : (String.intercalate "," (text :: next :: rest)).toList =
          text.toList ++ ',' :: (String.intercalate "," (next :: rest)).toList := by
        simp [String.intercalate_cons_cons]
      rw [List.flatMap_cons, ← others, itemsOf, spelled, splitItems_append ends, List.map_append]
      rfl

theorem splitItems_of_isBare {cs : List Char} (bare : cs.all isBareChar = true) :
    splitItems false cs = [cs] := by
  induction cs with
  | nil => rfl
  | cons c cs ih =>
    rw [List.all_cons, Bool.and_eq_true] at bare
    have comma : c ≠ ',' := by
      rintro rfl
      exact absurd bare.1 (by decide)
    have quote : c ≠ '\'' := by
      rintro rfl
      exact absurd bare.1 (by decide)
    rw [splitItems, if_neg (fun both => comma both.1), if_neg quote, ih bare.2]
    rfl

theorem splitItems_doubleQuotes (cs : List Char) :
    splitItems true (Dialect.doubleQuotes cs ++ ['\'']) = [Dialect.doubleQuotes cs ++ ['\'']] := by
  induction cs with
  | nil => rfl
  | cons c cs ih =>
    by_cases quote : c = '\''
    · simp [Dialect.doubleQuotes, splitItems, quote, ih]
    · simp [Dialect.doubleQuotes, splitItems, quote, ih]

/-- A literal is one item, whatever commas are in it. -/
theorem itemsOf_of_isOneLiteral {text : String} (h : IsOneLiteral text) :
    itemsOf text = [text] := by
  have single : splitItems false text.toList = [text.toList] := by
    rcases h with ⟨-, bare⟩ | ⟨content, read⟩
    · exact splitItems_of_isBare bare
    · rw [eq_stringLiteral_of_lexLiteral .mssql read, toList_stringLiteral]
      simp [splitItems, splitItems_doubleQuotes]
  simp [itemsOf, single]

theorem IsOneLiteral.isListing {text : String} (h : IsOneLiteral text) : IsListing text := by
  rw [IsListing, itemsOf_of_isOneLiteral h]
  exact List.forall_mem_singleton.mpr h

theorem not_isOneLiteral_empty : ¬ IsOneLiteral "" := by
  decide

/-! Items of values. -/

namespace Value

inductive IsFilled : Value → Prop
  | single {v} (other : ∀ items, v ≠ .list items) : IsFilled v
  | list {items} (some : items ≠ []) (all : ∀ item ∈ items, IsFilled item) : IsFilled (.list items)

/-- The value is no list, or a list of one item that is so. -/
inductive IsOne : Value → Prop
  | single {v} (other : ∀ items, v ≠ .list items) : IsOne v
  | list {item} (h : IsOne item) : IsOne (.list [item])

theorem isFilled_list {items : List Value} :
    (Value.list items).IsFilled ↔ items ≠ [] ∧ ∀ item ∈ items, item.IsFilled := by
  constructor
  · rintro (other | ⟨some, all⟩)
    · exact absurd rfl (other items)
    · exact ⟨some, all⟩
  · rintro ⟨some, all⟩
    exact .list some all

theorem isOne_list {items : List Value} :
    (Value.list items).IsOne ↔ ∃ item, items = [item] ∧ item.IsOne := by
  constructor
  · rintro (other | one)
    · exact absurd rfl (other items)
    · exact ⟨_, rfl, one⟩
  · rintro ⟨item, rfl, one⟩
    exact .list one

theorem ne_list_of_isScalar {v : Value} (single : v.isScalar = true) (items : List Value) :
    v ≠ .list items := by
  rintro rfl
  cases single

theorem forall_scalars_list {items : List Value} {p : Value → Prop} :
    (∀ x ∈ (Value.list items).scalars, p x) ↔ ∀ item ∈ items, ∀ x ∈ item.scalars, p x := by
  simp only [scalars, mem_itemScalars, forall_exists_index, and_imp]
  exact ⟨fun all item held x inside => all x item held inside,
    fun all x item held inside => all item held x inside⟩

section Spelling

variable {v : Value} {f : Value → String}

theorem isOneLiteral_null : IsOneLiteral "NULL" := by
  decide

theorem quotesClosed_spell (single : ∀ x ∈ v.scalars, IsOneLiteral (f x)) :
    QuotesClosed (v.spell f) := by
  induction v using inductionOnScalars with
  | null => exact isOneLiteral_null.balanced.closed
  | list items ih =>
    rw [spell, spellItems_eq_map]
    have comma : Unquoted "," := by decide
    have inner := forall_scalars_list.mp single
    exact .intercalate comma.closed (List.forall_mem_map.mpr fun item held =>
      ih item held (inner item held))
  | scalar v one =>
    rw [spell_of_isScalar one]
    exact (single v (by simp [scalars_of_isScalar one])).balanced.closed

/-- The items of a list that has any are those of its items. -/
theorem itemsOf_spell_list {items : List Value} (some : items ≠ [])
    (single : ∀ x ∈ (Value.list items).scalars, IsOneLiteral (f x)) :
    itemsOf ((Value.list items).spell f) = items.flatMap fun item => itemsOf (item.spell f) := by
  have inner := forall_scalars_list.mp single
  rw [spell, spellItems_eq_map, itemsOf_intercalate (by simpa using some), List.flatMap_map]
  exact List.forall_mem_map.mpr fun item held => quotesClosed_spell (inner item held)

/-- A value is written as a sequence of literals exactly if no list in it is empty. -/
theorem isListing_spell_iff (single : ∀ x ∈ v.scalars, IsOneLiteral (f x)) :
    IsListing (v.spell f) ↔ v.IsFilled := by
  induction v using inductionOnScalars with
  | null => exact iff_of_true isOneLiteral_null.isListing (.single nofun)
  | list items ih =>
    by_cases none : items = []
    · subst none
      have empty : ¬ IsListing "" := by decide
      exact iff_of_false empty fun filled => (isFilled_list.mp filled).1 rfl
    · have inner : ∀ item ∈ items, IsListing (item.spell f) ↔ item.IsFilled :=
        fun item held => ih item held (forall_scalars_list.mp single item held)
      rw [isFilled_list, IsListing, itemsOf_spell_list none single, List.forall_mem_flatMap]
      exact ⟨fun all => ⟨none, fun item held => (inner item held).mp (all item held)⟩,
        fun all item held => (inner item held).mpr (all.2 item held)⟩
  | scalar v one =>
    rw [spell_of_isScalar one]
    have literal := single v (by simp [scalars_of_isScalar one])
    exact iff_of_true literal.isListing (.single (ne_list_of_isScalar one))

/-- A value is written as one literal exactly if it is no list, or a list of one such value. -/
theorem isOneLiteral_spell_iff (single : ∀ x ∈ v.scalars, IsOneLiteral (f x)) :
    IsOneLiteral (v.spell f) ↔ v.IsOne := by
  induction v using inductionOnScalars with
  | null => exact iff_of_true isOneLiteral_null (.single nofun)
  | list items ih =>
    rw [isOne_list]
    rcases items with _ | ⟨item, _ | ⟨next, rest⟩⟩
    · exact iff_of_false not_isOneLiteral_empty (by simp)
    · have alone : (Value.list [item]).spell f = item.spell f := by simp [spell, spellItems]
      have inner :=
        ih item List.mem_cons_self (forall_scalars_list.mp single item List.mem_cons_self)
      rw [alone, inner]
      simp
    · refine iff_of_false (fun literal => ?_) (by simp)
      -- One literal is one item, and each of the two values is another.
      have whole := itemsOf_of_isOneLiteral literal
      rw [itemsOf_spell_list (List.cons_ne_nil _ _) single, List.flatMap_cons,
        List.flatMap_cons] at whole
      have count := congrArg List.length whole
      have first := List.length_pos_iff.mpr (itemsOf_ne_nil (item.spell f))
      have second := List.length_pos_iff.mpr (itemsOf_ne_nil (next.spell f))
      simp only [List.length_append, List.length_singleton] at count
      omega
  | scalar v one =>
    rw [spell_of_isScalar one]
    have literal := single v (by simp [scalars_of_isScalar one])
    exact iff_of_true literal (.single (ne_list_of_isScalar one))

end Spelling
end Value

/-! Literals in the form of a column. -/

section Bound

variable {context : BindingContext} {c : ColumnRef} {v v' : Value} {w : Wildcard} {l : Literal}

/-- Names are found scalar by scalar. -/
theorem BindingContext.spell_named (named : context.named c v w = .ok v') :
    ∃ g : Value → Value, (∀ x, x.isScalar = true → (g x).isScalar = true) ∧
      ∀ f, v'.spell f = v.spell fun x => f (g x) := by
  unfold BindingContext.named at named
  split at named
  · cases named
    exact ⟨id, fun _ single => single, fun _ => rfl⟩
  · split at named
    · split at named
      · cases named
      next d _ =>
        exact ⟨d.translate, fun _ => EnumDef.isScalar_translate, Value.spell_resolveEnum named⟩
    · cases named
      exact ⟨id, fun _ single => single, fun _ => rfl⟩

/-- Whatever form a column gives a literal, each scalar in it is written as one literal. -/
theorem bindLiteral_spell (bound : bindLiteral context c v w = .ok l) (d : Dialect) :
    ∃ f : Value → String, l.sql d = v.spell f ∧ ∀ x ∈ v.scalars, IsOneLiteral (f x) := by
  obtain ⟨v', named, closed⟩ := bindLiteral_eq_ok.mp bound
  obtain ⟨g, kept, spelled⟩ := BindingContext.spell_named named
  unfold BindingContext.sealed at closed
  split at closed
  next spec _ =>
    cases derived : FieldCipher.ofSpec context.settings spec with
    | error e => simp [derived, Except.map] at closed
    | ok key =>
      simp only [derived, Except.map, Except.ok.injEq] at closed
      subst closed
      exact ⟨_, (Value.render_encrypt d key w v').trans (spelled _),
        fun x _ => isOneLiteral_stringLiteral d _⟩
  · cases closed
    refine ⟨_, (Value.render_eq_spell d w _ v').trans (spelled _), fun x member => ?_⟩
    exact Value.isOneLiteral_render d w _ (kept x (Value.isScalar_of_mem_scalars member))

theorem isListing_bindLiteral_iff (bound : bindLiteral context c v w = .ok l) (d : Dialect) :
    IsListing (l.sql d) ↔ v.IsFilled := by
  obtain ⟨f, spelled, single⟩ := bindLiteral_spell bound d
  rw [spelled]
  exact Value.isListing_spell_iff single

theorem isOneLiteral_bindLiteral_iff (bound : bindLiteral context c v w = .ok l) (d : Dialect) :
    IsOneLiteral (l.sql d) ↔ v.IsOne := by
  obtain ⟨f, spelled, single⟩ := bindLiteral_spell bound d
  rw [spelled]
  exact Value.isOneLiteral_spell_iff single

/-- A literal that is bound to no column is written by its own class. -/
theorem isOneLiteral_unbound_iff (source : Expr) (v : Value) (w : Wildcard) (d : Dialect) :
    IsOneLiteral ((BoundLiteral.unbound source v w).written.sql d) ↔ v.IsOne := by
  have spelled : (BoundLiteral.unbound source v w).written.sql d =
      v.spell (Value.render d w none) :=
    Value.render_eq_spell d w none v
  rw [spelled]
  exact Value.isOneLiteral_spell_iff fun x member =>
    Value.isOneLiteral_render d w none (Value.isScalar_of_mem_scalars member)

end Bound
end PredicateSql
