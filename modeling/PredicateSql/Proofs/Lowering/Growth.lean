import PredicateSql.Proofs.Lowering.Steps

/-!
What every lowering leaves standing, whether it succeeds or not: joins are only added at the end,
aliases are only used up, and enumerations are only added, each as its property declares it.
-/
namespace PredicateSql

variable {n : Nat} {α β : Type}

/-- Some property with this key is declared with this enumeration. -/
def Schema.Annotates (schema : Schema n) (key : String) (d : EnumDef) : Prop :=
  ∃ i property, '.' ∉ property.toList ∧ EnumRegistry.keyOf (schema.entity i) property = key ∧
    ((schema.entity i).columnFor? property).bind (·.enumType) = some d

namespace EnumRegistry

theorem find?_register (r : EnumRegistry) (key key' : String) (d : EnumDef) :
    (r.register key d).find? key' = if key' = key then some d else r.find? key' := by
  by_cases same : key' = key
  · simp [register, find?, same]
  · have kept : ∀ entries : List (String × EnumDef),
        (entries.filter (·.1 ≠ key)).lookup key' = entries.lookup key' := by
      intro entries
      induction entries with
      | nil => rfl
      | cons entry rest ih =>
        obtain ⟨k, d⟩ := entry
        by_cases removed : k = key
        · rw [List.filter_cons_of_neg (by simp [removed]), ih, List.lookup_cons]
          simp [removed, beq_eq_false_iff_ne.mpr same]
        · rw [List.filter_cons_of_pos (by simp [removed]), List.lookup_cons, List.lookup_cons, ih]
    simp only [register, find?, List.lookup_cons, beq_eq_false_iff_ne.mpr same, kept, if_neg same]

/-- What is known before stays, and what is new is what its property declares. -/
structure Grows (schema : Schema n) (r r' : EnumRegistry) : Prop where
  kept : ∀ key d, r.find? key = some d → r'.find? key = some d
  added : ∀ key d, r'.find? key = some d → r.find? key = none → schema.Annotates key d

namespace Grows

variable {schema : Schema n} {r r' r'' : EnumRegistry}

theorem refl (schema : Schema n) (r : EnumRegistry) : Grows schema r r where
  kept _ _ found := found
  added _ _ found missing := nomatch missing.symm.trans found

theorem trans (first : Grows schema r r') (second : Grows schema r' r'') :
    Grows schema r r'' where
  kept key d found := second.kept key d (first.kept key d found)
  added key d found missing := by
    cases middle : r'.find? key with
    | none => exact second.added key d found middle
    | some d' =>
      have same := (second.kept key d' middle).symm.trans found
      obtain rfl := Option.some.inj same
      exact first.added key d' middle missing

end Grows

theorem grows_enumFor (schema : Schema n) (r : EnumRegistry) (i : Fin n) {property : String}
    (dotless : '.' ∉ property.toList) :
    Grows schema r (r.enumFor (schema.entity i) property).2 := by
  unfold enumFor
  dsimp only
  cases missing : r.find? (keyOf (schema.entity i) property) with
  | some d => exact .refl schema r
  | none =>
    cases declared : ((schema.entity i).columnFor? property).bind (·.enumType) with
    | none => exact .refl schema r
    | some d =>
      constructor
      · intro key d' found
        have other : key ≠ keyOf (schema.entity i) property := by
          rintro rfl
          rw [missing] at found
          cases found
        rw [find?_register, if_neg other, found]
      · intro key d' found absent
        rw [find?_register] at found
        split at found
        next same =>
          obtain rfl := Option.some.inj found
          exact ⟨i, property, dotless, same.symm, declared⟩
        next =>
          rw [absent] at found
          cases found

end EnumRegistry

/-- How the progress of one compilation may change. -/
structure Progress.Grows (schema : Schema n) (s t : Progress) : Prop where
  joins : s.joins <+: t.joins
  issued : s.issued ≤ t.issued
  enums : s.enums.Grows schema t.enums

namespace Progress.Grows

variable {schema : Schema n} {s t u : Progress}

theorem refl (schema : Schema n) (s : Progress) : Grows schema s s :=
  ⟨List.prefix_rfl, Nat.le_refl _, .refl schema _⟩

theorem trans (first : Grows schema s t) (second : Grows schema t u) : Grows schema s u :=
  ⟨first.joins.trans second.joins, Nat.le_trans first.issued second.issued,
    first.enums.trans second.enums⟩

end Progress.Grows

def Growing (schema : Schema n) (x : Lowering α) : Prop :=
  ∀ s : Progress, s.Grows schema (x s).2

/-- No step of a lowering takes anything back. -/
def Progress.growth (schema : Schema n) : Stepwise schema where
  holds := Progress.Grows schema
  trans := .trans
  buffer _ _ := ⟨List.prefix_rfl, Nat.le_refl _, .refl schema _⟩
  freshAlias _ := ⟨List.prefix_rfl, Nat.le_succ _, .refl schema _⟩
  addJoin _ _ := ⟨List.prefix_append _ _, Nat.le_refl _, .refl schema _⟩
  enumFor s i _ named :=
    ⟨List.prefix_rfl, Nat.le_refl _, s.enums.grows_enumFor schema i named.dotless⟩
  isolated inner := ⟨List.prefix_rfl, inner.issued, inner.enums⟩

section Runs

variable (context : LoweringContext n)

theorem walk_growing (walked segments : List String) (owner : Origin n) :
    Growing context.schema (walk context walked owner segments) :=
  walk_along (R := Progress.growth context.schema) context walked segments owner

theorem resolveColumn_growing (origin : Origin n) (path : MemberPath) :
    Growing context.schema (resolveColumn context origin path) :=
  resolveColumn_along (R := Progress.growth context.schema) context origin path

theorem operand_growing (origin : Origin n) (e : Expr) :
    Growing context.schema (operand context origin e) :=
  operand_along (R := Progress.growth context.schema) context origin e

/-- A predicate adds to joins, aliases and enumerations, also when it is rejected. -/
theorem predicate_growing (e : Expr) (origin : Origin n) :
    Growing context.schema (predicate context e origin) :=
  predicate_along (R := Progress.growth context.schema) context e origin

end Runs
end PredicateSql
