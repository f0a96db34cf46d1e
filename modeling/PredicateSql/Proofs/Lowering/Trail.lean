import PredicateSql.Proofs.Condition.Derivation
import PredicateSql.Proofs.Lowering.Growth

/-!
Enumerations that are known in advance make no difference. If every type has a name of its own, a
lowering that succeeds succeeds in the same way when fewer enumerations are registered, because
those that are missing are found on their columns.
-/
namespace PredicateSql

variable {n : Nat} {α β : Type}

def Schema.UniqueNames (schema : Schema n) : Prop :=
  ∀ i j, (schema.entity i).typeName = (schema.entity j).typeName → i = j

instance (schema : Schema n) : Decidable schema.UniqueNames :=
  inferInstanceAs (Decidable (∀ i j,
    (schema.entity i).typeName = (schema.entity j).typeName → i = j))

/-- A key says which type and which property it belongs to, since no property contains a dot. -/
theorem EnumRegistry.keyOf_inj {e e' : Entity n} {property property' : String}
    (dotless : '.' ∉ property.toList) (dotless' : '.' ∉ property'.toList)
    (same : keyOf e property = keyOf e' property') :
    e.typeName = e'.typeName ∧ property = property' := by
  have chars : e.typeName.toList ++ '.' :: property.toList =
      e'.typeName.toList ++ '.' :: property'.toList := by
    simpa [keyOf] using congrArg String.toList same
  -- Neither type name can be longer: the other property would begin before the last dot.
  have exact_dot : ∀ {more p q : List Char}, '.' ∉ p → '.' :: p = more ++ '.' :: q →
      more = [] ∧ p = q := by
    intro more p q free rest
    cases more with
    | nil => simpa using rest
    | cons c more =>
      obtain ⟨-, rest⟩ := List.cons.inj rest
      exact absurd (by simp [rest]) free
  rcases List.append_eq_append_iff.mp chars with ⟨more, names, rest⟩ | ⟨more, names, rest⟩
  · obtain ⟨rfl, last⟩ := exact_dot dotless rest
    rw [List.append_nil] at names
    exact ⟨String.toList_inj.mp names.symm, String.toList_inj.mp last⟩
  · obtain ⟨rfl, last⟩ := exact_dot dotless' rest
    rw [List.append_nil] at names
    exact ⟨String.toList_inj.mp names, String.toList_inj.mp last.symm⟩

namespace Schema

variable {schema : Schema n}

/-- With unique type names a key stands for the declaration of one property. -/
theorem Annotates.declared {i : Fin n} {property : String} {d : EnumDef}
    (unique : schema.UniqueNames) (dotless : '.' ∉ property.toList)
    (h : schema.Annotates (EnumRegistry.keyOf (schema.entity i) property) d) :
    ((schema.entity i).columnFor? property).bind (·.enumType) = some d := by
  obtain ⟨j, property', dotless', same, declared⟩ := h
  obtain ⟨names, rfl⟩ := EnumRegistry.keyOf_inj dotless' dotless same
  obtain rfl := unique j i names
  exact declared

end Schema

namespace EnumRegistry

variable {schema : Schema n} {r r' : EnumRegistry}

/-- Both registries have the same answer, whether it was registered before or not. -/
theorem Grows.enumFor {i : Fin n} {property : String} (unique : schema.UniqueNames)
    (dotless : '.' ∉ property.toList) (h : r.Grows schema r') :
    (r.enumFor (schema.entity i) property).1 = (r'.enumFor (schema.entity i) property).1 ∧
      (r.enumFor (schema.entity i) property).2.Grows schema
        (r'.enumFor (schema.entity i) property).2 := by
  cases known : r.find? (keyOf (schema.entity i) property) with
  | some d =>
    have known' := h.kept _ _ known
    simp only [EnumRegistry.enumFor, known, known']
    exact ⟨trivial, h⟩
  | none =>
    cases known' : r'.find? (keyOf (schema.entity i) property) with
    | some d =>
      have declared := (h.added _ _ known' known).declared unique dotless
      simp only [EnumRegistry.enumFor, known, known', declared, true_and]
      constructor
      · intro key d' found
        rw [find?_register] at found
        split at found
        next same =>
          obtain rfl := Option.some.inj found
          rw [same, known']
        next => exact h.kept _ _ found
      · intro key d' found missing
        rw [find?_register] at missing
        split at missing
        · cases missing
        · exact h.added _ _ found missing
    | none =>
      cases declared : ((schema.entity i).columnFor? property).bind (·.enumType) with
      | none =>
        simp only [EnumRegistry.enumFor, known, known', declared, true_and]
        exact h
      | some d =>
        simp only [EnumRegistry.enumFor, known, known', declared, true_and]
        constructor
        · intro key d' found
          rw [find?_register] at found ⊢
          split
          next same => rwa [if_pos same] at found
          next other =>
            rw [if_neg other] at found
            exact h.kept _ _ found
        · intro key d' found missing
          rw [find?_register] at found missing
          split at missing
          · cases missing
          next other =>
            rw [if_neg other] at found
            exact h.added _ _ found missing

end EnumRegistry

/-- The progress `s'` is that of `s`, but for enumerations that it does not know yet. -/
structure Progress.Trails (schema : Schema n) (s' s : Progress) : Prop where
  joins : s'.joins = s.joins
  issued : s'.issued = s.issued
  enums : s'.enums.Grows schema s.enums

theorem Progress.Trails.withoutJoins {schema : Schema n} {s s' : Progress}
    (trails : s'.Trails schema s) :
    Progress.Trails schema { s' with joins := [] } { s with joins := [] } :=
  ⟨rfl, trails.issued, trails.enums⟩

/-- A lowering that succeeds succeeds with the same result for any progress that trails. -/
def Carries (schema : Schema n) (x : Lowering α) : Prop :=
  ∀ (s s' t : Progress) (a : α), s'.Trails schema s → x s = (.ok a, t) →
    ∃ t', x s' = (.ok a, t') ∧ t'.Trails schema t

namespace Carries

open Lowering

variable {schema : Schema n}

theorem bind {x : Lowering α} {f : α → Lowering β} (first : Carries schema x)
    (second : ∀ a, Carries schema (f a)) : Carries schema (x >>= f) := by
  intro s s' t b trails run
  obtain ⟨a, u, started, rest⟩ := bind_ok.mp run
  obtain ⟨u', started', middle⟩ := first _ _ _ _ trails started
  obtain ⟨t', rest', final⟩ := second a _ _ _ _ middle rest
  exact ⟨t', bind_ok.mpr ⟨a, u', started', rest'⟩, final⟩

theorem attempt (outcome : Except Error α) : Carries schema (Lowering.attempt outcome) := by
  intro s s' t a trails run
  obtain ⟨value, rfl⟩ := attempt_ok.mp run
  exact ⟨s', attempt_ok.mpr ⟨value, rfl⟩, trails⟩

theorem pure (a : α) : Carries schema (pure a : Lowering α) := .attempt (.ok a)

theorem reject (cause : Unsupported) : Carries schema (Lowering.reject cause : Lowering α) :=
  .attempt _

theorem lacks (cause : MissingMetadata) : Carries schema (Lowering.lacks cause : Lowering α) :=
  .attempt _

theorem freshAlias (context : LoweringContext n) :
    Carries schema (Lowering.freshAlias context) := by
  intro s s' t name trails run
  obtain ⟨rfl, rfl⟩ := freshAlias_ok.mp run
  refine ⟨_, freshAlias_ok.mpr ⟨by rw [trails.issued], rfl⟩, ?_⟩
  exact ⟨trails.joins, congrArg (· + 1) trails.issued, trails.enums⟩

theorem findJoin (path : String) : Carries schema (Lowering.findJoin path) := by
  intro s s' t found trails run
  obtain ⟨rfl, rfl⟩ := findJoin_ok.mp run
  exact ⟨s', findJoin_ok.mpr ⟨by rw [trails.joins], rfl⟩, trails⟩

theorem addJoin (join : JoinClause) : Carries schema (Lowering.addJoin join) := by
  intro s s' t _ trails run
  obtain rfl := addJoin_ok.mp run
  exact ⟨_, addJoin_ok.mpr rfl, congrArg (· ++ [join]) trails.joins, trails.issued, trails.enums⟩

/-- What is not registered yet is found on the column. -/
theorem enumFor {i : Fin n} {property : String} (unique : schema.UniqueNames)
    (dotless : '.' ∉ property.toList) :
    Carries schema (Lowering.enumFor (schema.entity i) property) := by
  intro s s' t found trails run
  obtain ⟨rfl, rfl⟩ := enumFor_ok.mp run
  have same : (s'.enums.enumFor (schema.entity i) property).1 =
        (s.enums.enumFor (schema.entity i) property).1 ∧
      (s'.enums.enumFor (schema.entity i) property).2.Grows schema
        (s.enums.enumFor (schema.entity i) property).2 :=
    trails.enums.enumFor unique dotless
  exact ⟨_, enumFor_ok.mpr ⟨same.1, rfl⟩, trails.joins, trails.issued, same.2⟩

end Carries

section Members

variable (context : LoweringContext n)

theorem step_carries (owner : Origin n) (path segment : String) :
    Carries context.schema (step context owner path segment) := by
  unfold step
  dsimp only
  split
  · exact .lacks _
  · split
    · exact .reject _
    · refine .bind (.findJoin path) fun found => ?_
      cases found with
      | some join => exact .pure _
      | none =>
        refine .bind ?_ fun join => .bind (.addJoin join) fun _ => .pure _
        exact .bind (.attempt _) fun _ => .bind (.freshAlias context) fun _ => .pure _

theorem walk_carries (walked segments : List String) (owner : Origin n) :
    Carries context.schema (walk context walked owner segments) := by
  induction segments generalizing walked owner with
  | nil => exact .pure _
  | cons segment rest ih => exact .bind (step_carries context owner _ segment) fun next => ih _ next

theorem subquery_carries (origin : Origin n) (path : MemberPath) :
    Carries context.schema (subquery context origin path) := by
  refine .bind (walk_carries context [] path.navigation origin) fun outer => ?_
  dsimp only
  split
  · exact .lacks _
  · split
    · exact .reject _
    · split
      · exact .lacks _
      · exact .bind (.attempt _) fun _ => .bind (.freshAlias context) fun _ =>
          .bind (.freshAlias context) fun _ => .pure _

variable {context} (unique : context.schema.UniqueNames)
include unique

theorem resolveColumn_carries (origin : Origin n) (path : MemberPath) :
    Carries context.schema (resolveColumn context origin path) := by
  unfold resolveColumn
  split
  · exact .reject _
  next nonempty =>
    have dotless := (MemberPath.property_isSegment (Bool.eq_false_iff.mpr nonempty)).dotless
    refine .bind (walk_carries context [] path.navigation origin) fun owner => ?_
    dsimp only
    split
    · split
      · exact .reject _
      · exact .lacks _
    · split
      · exact .bind (.enumFor unique dotless) fun _ => .pure _
      · exact .bind (.pure _) fun _ => .pure _

theorem emptinessColumn_carries (origin : Origin n) (receiver : Option Expr) (args : List Expr) :
    Carries context.schema (emptinessColumn context origin receiver args) := by
  unfold emptinessColumn
  split
  · unfold memberOperand
    split
    · exact resolveColumn_carries unique origin _
    · exact .reject _
  · exact .reject _

theorem readOperand_carries (origin : Origin n) (e : Expr) :
    Carries context.schema (readOperand context origin e) := by
  fun_induction readOperand context origin e with
  | case1 e ih => exact ih
  | case2 path => exact .bind (resolveColumn_carries unique origin path) fun _ => .pure _
  | case3 value => exact .pure _
  | case4 name => exact .bind (.attempt _) fun _ => .pure _
  | case5 receiver args =>
    exact .bind (emptinessColumn_carries unique origin receiver args) fun _ => .pure _
  | case6 e => exact .reject _

theorem readBoolean?_carries (origin : Origin n) (e : Expr) :
    ∀ read ∈ readBoolean? context origin e, Carries context.schema read := by
  have truth : ∀ e, Carries context.schema (readTruth context e) := by
    intro e
    refine .bind (.attempt _) fun value => ?_
    split
    · exact .pure _
    · exact .reject _
  fun_induction readBoolean? context origin e with
  | case1 e ih => exact ih
  | case2 path =>
    rintro _ ⟨⟩
    refine .bind (resolveColumn_carries unique origin path) fun column => ?_
    split
    · exact .pure _
    · exact .reject _
  | case3 value =>
    rintro _ ⟨⟩
    exact truth _
  | case4 name =>
    rintro _ ⟨⟩
    exact truth _
  | case5 receiver args =>
    rintro _ ⟨⟩
    exact .bind (emptinessColumn_carries unique origin receiver args) fun _ => .pure _
  | case6 e =>
    intro _ unread
    cases unread

end Members

/-- The enumeration whose names the column holds is registered. -/
def ColumnRef.Known (r : EnumRegistry) (c : ColumnRef) : Prop :=
  ∀ key ∈ c.stringify, ∃ d, r.find? key = some d

namespace ColumnRef.Known

variable {schema : Schema n} {r r' : EnumRegistry} {c : ColumnRef}

theorem mono (known : c.Known r) (grown : r.Grows schema r') : c.Known r' := by
  intro key mem
  obtain ⟨d, found⟩ := known key mem
  exact ⟨d, grown.kept key d found⟩

/-- Literals are bound alike once the enumeration of their column is known. -/
theorem bindLiteral_eq {settings : Option Settings} {v : Value} {w : Wildcard}
    (known : c.Known r) (grown : r.Grows schema r') :
    bindLiteral ⟨r', settings⟩ c v w = bindLiteral ⟨r, settings⟩ c v w := by
  have named : BindingContext.named ⟨r', settings⟩ c v w =
      BindingContext.named ⟨r, settings⟩ c v w := by
    unfold BindingContext.named
    cases stringify : c.stringify with
    | none => rfl
    | some key =>
      obtain ⟨d, found⟩ := known key stringify
      simp only [found, grown.kept key d found]
  rw [bindLiteral, bindLiteral, named]
  rfl

theorem bind_eq {settings : Option Settings} {o : Operand} {column? : Option ColumnRef}
    (known : ∀ c ∈ column?, c.Known r) (grown : r.Grows schema r') :
    o.bind ⟨r', settings⟩ column? = o.bind ⟨r, settings⟩ column? := by
  cases column? with
  | none => rfl
  | some c =>
    cases o with
    | literal l => simp only [Operand.bind, (known c rfl).bindLiteral_eq grown]
    | column => rfl
    | nullOrEmpty => rfl

end ColumnRef.Known

section Columns

open Lowering

variable (context : LoweringContext n) {origin : Origin n} {s t : Progress}

theorem EnumRegistry.find?_enumFor {r : EnumRegistry} {e : Entity n} {property : String}
    {d : EnumDef} (found : (r.enumFor e property).1 = some d) :
    (r.enumFor e property).2.find? (keyOf e property) = some d := by
  unfold enumFor at found ⊢
  dsimp only at found ⊢
  cases known : r.find? (keyOf e property) with
  | some d' =>
    simp only [known] at found ⊢
    exact found
  | none =>
    cases declared : (e.columnFor? property).bind (·.enumType) with
    | none => simp [known, declared] at found
    | some d' =>
      simp only [known, declared] at found ⊢
      rw [find?_register, if_pos rfl, found]

omit context in
/-- An enumeration that was just found is registered. -/
theorem lookup_known {column : Column} {e : Entity n} {property : String} {d : EnumDef}
    (looked : (if column.stringify then Lowering.enumFor e property else pure none) s =
      (.ok (some d), t)) : t.enums.find? (EnumRegistry.keyOf e property) = some d := by
  have found := (lookup_ok.mp looked).1
  split at found
  · have held : (s.enums.enumFor e property).1 = some d := congrArg Prod.fst found
    have after : (s.enums.enumFor e property).2 = t.enums := congrArg Prod.snd found
    rw [← after]
    exact EnumRegistry.find?_enumFor held
  · cases found

/-- The enumeration of a column that was just resolved is registered. -/
theorem resolveColumn_known {path : MemberPath} {c : ColumnRef}
    (run : resolveColumn context origin path s = (.ok c, t)) : c.Known t.enums := by
  obtain ⟨-, owner, u, column, found, -, -, looked, rfl⟩ := (resolveColumn_ok context).mp run
  rintro _ key
  obtain ⟨d, rfl, rfl⟩ := Option.map_eq_some_iff.mp key
  exact ⟨d, lookup_known looked⟩

theorem readOperand_known {e : Expr} {o : Operand}
    (run : readOperand context origin e s = (.ok o, t)) : ∀ c ∈ o.column?, c.Known t.enums := by
  rcases (readOperand_ok context).mp run with ⟨path, c, -, resolved, rfl⟩ | ⟨v, -, rfl, -⟩ |
    ⟨receiver, args, c, -, resolved, rfl⟩
  · rintro _ ⟨⟩
    exact resolveColumn_known context resolved
  · nofun
  · rintro _ ⟨⟩
    obtain ⟨_, path, -, -, resolved⟩ := (emptinessColumn_ok context).mp resolved
    exact resolveColumn_known context resolved

theorem readOperand_grows {e : Expr} {o : Operand}
    (run : readOperand context origin e s = (.ok o, t)) : s.Grows context.schema t := by
  have written := (operand_writes context origin e s _).mpr ⟨o, t, run, rfl⟩
  have grown := operand_growing context origin e s
  rw [written] at grown
  exact ⟨grown.joins, grown.issued, grown.enums⟩

end Columns

/-- A derivation makes the progress grow. -/
theorem Lowers.grows {context : LoweringContext n} {origin : Origin n} {e : Expr}
    {s t : Progress} {c : Condition n} (h : Lowers context origin e s c t) :
    s.Grows context.schema t := by
  have grown := predicate_growing context e origin s
  rw [(predicate_ok context).mpr ⟨c, t, h, rfl⟩] at grown
  exact ⟨grown.joins, grown.issued, grown.enums⟩

/-- A derivation exists for any progress that trails, with the same condition. -/
theorem Lowers.carries {context : LoweringContext n} {origin : Origin n} {e : Expr}
    {s s' t : Progress} {c : Condition n} (unique : context.schema.UniqueNames)
    (h : Lowers context origin e s c t) (trails : s'.Trails context.schema s) :
    ∃ t', Lowers context origin e s' c t' ∧ t'.Trails context.schema t := by
  induction h generalizing s' with
  | logical connective _ _ first second =>
    obtain ⟨u', left, middle⟩ := first trails
    obtain ⟨t', right, final⟩ := second middle
    exact ⟨t', .logical connective left right, final⟩
  | @comparison origin op left right s u t l r l' r' comparator untested leftRead
      rightRead leftBound
      rightBound =>
    obtain ⟨u', leftRead', middle⟩ := readOperand_carries unique origin left _ _ _ _ trails leftRead
    obtain ⟨t', rightRead', final⟩ :=
      readOperand_carries unique origin right _ _ _ _ middle rightRead
    have known : ∀ c ∈ l.column?.or r.column?, c.Known t'.enums := by
      intro c column
      have grown := (readOperand_grows context rightRead').enums
      rcases Option.or_eq_some_iff.mp column with left | ⟨-, right⟩
      · exact (readOperand_known context leftRead' c left).mono grown
      · exact readOperand_known context rightRead' c right
    rw [ColumnRef.Known.bind_eq known final.enums] at leftBound rightBound
    exact ⟨t', .comparison comparator untested leftRead' rightRead' leftBound rightBound, final⟩
  | nullTest comparator tested read =>
    obtain ⟨t', read', final⟩ := readOperand_carries unique _ _ _ _ _ _ trails read
    exact ⟨t', .nullTest comparator tested read', final⟩
  | inverted boolean run =>
    obtain ⟨t', run', final⟩ := readBoolean?_carries unique _ _ _ boolean _ _ _ _ trails run
    exact ⟨t', .inverted boolean run', final⟩
  | not compound _ inner =>
    obtain ⟨t', inner', final⟩ := inner trails
    exact ⟨t', .not compound inner', final⟩
  | convert _ inner =>
    obtain ⟨t', inner', final⟩ := inner trails
    exact ⟨t', .convert inner', final⟩
  | truth plain boolean run =>
    obtain ⟨t', run', final⟩ := readBoolean?_carries unique _ _ _ boolean _ _ _ _ trails run
    exact ⟨t', .truth plain boolean run', final⟩
  | like opening member column textual value bound =>
    obtain ⟨t', column', final⟩ := resolveColumn_carries unique _ _ _ _ _ _ trails column
    rw [(resolveColumn_known context column').bindLiteral_eq final.enums] at bound
    exact ⟨t', .like opening member column' textual value bound, final⟩
  | membership collection value member column nonempty bound =>
    obtain ⟨t', column', final⟩ := resolveColumn_carries unique _ _ _ _ _ _ trails column
    rw [(resolveColumn_known context column').bindLiteral_eq final.enums] at bound
    exact ⟨t', .membership collection value member column' nonempty bound, final⟩
  | emptyMembership collection value member column =>
    obtain ⟨t', column', final⟩ := resolveColumn_carries unique _ _ _ _ _ _ trails column
    exact ⟨t', .emptyMembership collection value member column', final⟩
  | hasValue member column =>
    obtain ⟨t', column', final⟩ := resolveColumn_carries unique _ _ _ _ _ _ trails column
    exact ⟨t', .hasValue member column', final⟩
  | any collection rows =>
    obtain ⟨t', rows', final⟩ := subquery_carries context _ _ _ _ _ _ trails rows
    exact ⟨t', .any collection rows', final⟩
  | anyWhere collection rows _ inner =>
    obtain ⟨u', rows', middle⟩ := subquery_carries context _ _ _ _ _ _ trails rows
    obtain ⟨v', inner', final⟩ := inner middle.withoutJoins
    have derived := Lowers.anyWhere collection rows' inner'
    rw [final.joins] at derived
    exact ⟨_, derived, middle.joins, final.issued, final.enums⟩

end PredicateSql
