import PredicateSql.Proofs.Compilation.Calls
import PredicateSql.Proofs.Lowering.Trail
import PredicateSql.Proofs.Quoting.Uses

/-!
Tags of columns that hold names. Compilations change the enumerations that are known by looking
members up, and in no other way. Where every type has a name of its own, what is known under the key
of a member is then what the column of the member declares, before, during and after any
compilation.
-/
namespace PredicateSql

open Lowering

variable {n : Nat}

namespace EnumRegistry

/-- What becomes of a registry when members of the schema are looked up. Their names are the
segments of paths. -/
inductive Learns (schema : Schema n) (r : EnumRegistry) : EnumRegistry → Prop
  | nothing : Learns schema r r
  | member {r' : EnumRegistry} {i : Fin n} {property : String} (before : Learns schema r r')
      (named : IsSegment property) : Learns schema r (r'.enumFor (schema.entity i) property).2

namespace Learns

variable {schema : Schema n} {r r' r'' : EnumRegistry}

theorem trans (first : Learns schema r r') (second : Learns schema r' r'') :
    Learns schema r r'' := by
  induction second with
  | nothing => exact first
  | member _ named ih => exact .member ih named

theorem grows (h : Learns schema r r') : r.Grows schema r' := by
  induction h with
  | nothing => exact .refl schema r
  | @member r' i _ _ named ih => exact ih.trans (r'.grows_enumFor schema i named.dotless)

end Learns

/-- Whatever is known about members of the schema is declared. -/
theorem Learns.annotates {schema : Schema n} {r : EnumRegistry} {key : String} {d : EnumDef}
    (h : Learns schema .empty r) (known : r.find? key = some d) : schema.Annotates key d :=
  h.grows.added key d known rfl

end EnumRegistry

/-- Whatever a lowering does to the enumerations, it does by looking members up. -/
def EnumRegistry.learning (schema : Schema n) : Stepwise schema where
  holds s t := s.enums.Learns schema t.enums
  trans := .trans
  buffer _ _ := .nothing
  freshAlias _ := .nothing
  addJoin _ _ := .nothing
  enumFor _ _ _ named := .member .nothing named
  isolated inner := inner

/-! ### Compilations -/

namespace Compiler

theorem run_learns {α : Type} (c : Compiler n) {x : Lowering α}
    (along : Along (EnumRegistry.learning c.input.schema) x) :
    c.registry.enums.Learns c.input.schema (c.run x).2.registry.enums :=
  along c.progress

theorem order_learns (c : Compiler n) (path : MemberPath) (descending : Bool) :
    c.registry.enums.Learns c.input.schema (c.order path descending).2.registry.enums := by
  have resolved := c.run_learns (resolveColumn_along (c.context .empty) c.origin path)
  unfold order
  split
  · exact .nothing
  · rcases run : c.run (resolveColumn (c.context .empty) c.origin path) with ⟨err | column, c'⟩ <;>
      rw [run] at resolved <;> exact resolved

/-- A call looks members up and does nothing else to the enumerations, also when it is rejected. -/
theorem add_learns (c : Compiler n) (bindings : Bindings) (e : Expr) :
    c.registry.enums.Learns c.input.schema (c.add bindings e).2.registry.enums := by
  by_cases predicate : ∀ m, e ≠ .modifier m
  · have written := c.run_learns (predicateText_along (c.context bindings) c.origin e)
    rw [add_predicate c bindings predicate]
    rcases run : c.run (predicateText (c.context bindings) c.origin e) with ⟨err | sql, c'⟩ <;>
      rw [run] at written <;> exact written
  · obtain ⟨m, rfl⟩ : ∃ m, e = .modifier m := by simpa using predicate
    cases m with
    | orderBy path => exact c.order_learns path false
    | orderByDescending path => exact c.order_learns path true
    | skip count => exact .nothing
    | take count => exact .nothing

/-- A finished compilation adds to the column lists only. -/
theorem finish_enums (c : Compiler n) : c.finish.2.enums = c.registry.enums := by
  simp only [finish]
  split <;> rfl

end Compiler

/-- One turn of some compilation: a predicate or a modifier is added, or the query is finished. -/
inductive Turn (n : Nat) where
  | add (c : Compiler n) (call : Call)
  | finish (c : Compiler n)

namespace Turn

def compiler : Turn n → Compiler n
  | add c _ => c
  | finish c => c

/-- What becomes of the enumerations in a turn that begins with those of `r`. -/
def enumsAfter (r : EnumRegistry) : Turn n → EnumRegistry
  | add c call =>
    (({ c with registry := { c.registry with enums := r } }).add call.bindings
      call.expr).2.registry.enums
  | finish c => ({ c with registry := { c.registry with enums := r } }).finish.2.enums

theorem learns (turn : Turn n) (r : EnumRegistry) :
    r.Learns turn.compiler.input.schema (turn.enumsAfter r) := by
  cases turn with
  | add c call =>
    exact Compiler.add_learns { c with registry := { c.registry with enums := r } } _ _
  | finish c =>
    rw [enumsAfter, Compiler.finish_enums]
    exact .nothing

end Turn

/-- The enumerations after the turns of compilations that share them, in any order. -/
def EnumRegistry.afterTurns (r : EnumRegistry) (turns : List (Turn n)) : EnumRegistry :=
  turns.foldl Turn.enumsAfter r

theorem EnumRegistry.learns_afterTurns {schema : Schema n} {turns : List (Turn n)}
    (shared : ∀ turn ∈ turns, turn.compiler.input.schema = schema) (r : EnumRegistry) :
    r.Learns schema (r.afterTurns turns) := by
  induction turns generalizing r with
  | nil => exact .nothing
  | cons turn rest ih =>
    have first := turn.learns r
    rw [shared turn List.mem_cons_self] at first
    exact first.trans (ih (fun turn member => shared turn (List.mem_cons_of_mem _ member)) _)

/-! ### What is found under a tag -/

section Own

variable {schema : Schema n} {r r' : EnumRegistry} {i : Fin n} {property : String} {column : Column}

/-- What is looked up is what the column declares, and from then on it is known under the key of the
member. -/
theorem EnumRegistry.Learns.enumFor (h : EnumRegistry.empty.Learns schema r)
    (unique : schema.UniqueNames) (named : IsSegment property)
    (declared : (schema.entity i).columnFor? property = some column) :
    (r.enumFor (schema.entity i) property).1 = column.enumType ∧
      (r.enumFor (schema.entity i) property).2.find? (keyOf (schema.entity i) property) =
        column.enumType := by
  have own : ((schema.entity i).columnFor? property).bind (·.enumType) = column.enumType := by
    rw [declared, Option.bind_some]
  unfold EnumRegistry.enumFor
  dsimp only
  cases known : r.find? (keyOf (schema.entity i) property) with
  | some d =>
    have same := (h.annotates known).declared unique named.dotless
    rw [own] at same
    exact ⟨same.symm, known.trans same.symm⟩
  | none =>
    rw [own]
    cases annotation : column.enumType with
    | none => exact ⟨rfl, known⟩
    | some d => exact ⟨rfl, by rw [find?_register, if_pos rfl]⟩

/-- What has been looked up stays, and there is nothing to be found where nothing is declared. -/
theorem EnumRegistry.Learns.find?_eq (h : EnumRegistry.empty.Learns schema r)
    (unique : schema.UniqueNames) (named : IsSegment property)
    (declared : (schema.entity i).columnFor? property = some column)
    (known : r.find? (keyOf (schema.entity i) property) = column.enumType)
    (later : r.Learns schema r') :
    r'.find? (keyOf (schema.entity i) property) = column.enumType := by
  cases annotation : column.enumType with
  | some d => exact later.grows.kept _ d (known.trans annotation)
  | none =>
    cases found : r'.find? (keyOf (schema.entity i) property) with
    | none => rfl
    | some d =>
      have own := ((h.trans later).annotates found).declared unique named.dotless
      rw [declared, Option.bind_some, annotation] at own
      cases own

end Own

/-- If every type has a name of its own, a column that holds names is tagged exactly if it declares
an enumeration, and that enumeration is what is found under the tag from then on. This holds at
every point of any compilations over the schema that share what is known, accepted or rejected,
since a turn only looks members up, and so does every predicate in the midst of one. -/
theorem tags_lead_to_own_annotations {schema : Schema n} (unique : schema.UniqueNames) :
    (∀ turns : List (Turn n), (∀ turn ∈ turns, turn.compiler.input.schema = schema) →
      ∀ r : EnumRegistry, r.Learns schema (r.afterTurns turns)) ∧
    (∀ {context : LoweringContext n}, context.schema = schema →
      ∀ (e : Expr) (origin : Origin n) (s : Progress),
      s.enums.Learns schema (predicate context e origin s).2.enums) ∧
    ∀ {context : LoweringContext n} {origin : Origin n} {path : MemberPath} {s t : Progress}
      {c : ColumnRef}, context.schema = schema → EnumRegistry.empty.Learns schema s.enums →
      resolveColumn context origin path s = (.ok c, t) →
        ∃ i column, schema.follow origin.entity path.navigation = some i ∧
          (schema.entity i).columnFor? path.property = some column ∧
          c.stringify = (if column.stringify then
            column.enumType.map fun _ => EnumRegistry.keyOf (schema.entity i) path.property
              else none) ∧
          ∀ r, t.enums.Learns schema r →
            c.stringify.bind r.find? = if column.stringify then column.enumType else none := by
  refine ⟨fun turns shared r => EnumRegistry.learns_afterTurns shared r, ?_, ?_⟩
  · rintro context rfl e origin s
    exact predicate_along (R := EnumRegistry.learning context.schema) context e origin s
  rintro context origin path s t c rfl before resolved
  obtain ⟨nonempty, owner, u, column, found, walked, declared, looked, rfl⟩ :=
    (resolveColumn_ok context).mp resolved
  have named := MemberPath.property_isSegment nonempty
  have onTheWay := walk_along (R := EnumRegistry.learning context.schema) context []
    path.navigation origin s
  rw [walked] at onTheWay
  have here := EnumRegistry.Learns.trans before onTheWay
  refine ⟨owner.entity, column, walk_follow walked, declared, ?_⟩
  cases stringify : column.stringify with
  | false =>
    rw [stringify, if_neg Bool.false_ne_true] at looked
    obtain ⟨rfl, rfl⟩ := pure_ok.mp looked
    exact ⟨rfl, fun r _ => rfl⟩
  | true =>
    rw [stringify, if_pos rfl] at looked
    obtain ⟨rfl, rfl⟩ := enumFor_ok.mp looked
    obtain ⟨own, known⟩ := here.enumFor unique named declared
    have there := EnumRegistry.Learns.member (i := owner.entity) here named
    refine ⟨by rw [own]; rfl, fun r later => ?_⟩
    have found := there.find?_eq unique named declared known later
    rw [own]
    cases annotation : column.enumType with
    | none => rfl
    | some d => exact found.trans annotation

namespace Bookshelf

def lendingStates : EnumDef := ⟨"Lending", [(0, "Open"), (1, "Closed")]⟩

/-- Fines; one column has a name with a dot, which no path can lead to. -/
def fine : Entity 2 where
  typeName := "Fine"
  table := "Fines"
  columns := [{ column "Id" .int with isPrimaryKey := true },
    { column "LoanId" .int with foreignKey := some "Fine.Loan" },
    { column "Loan.State" .enum with
      enumType := some ⟨"Payment", [(0, "Paid")]⟩, stringify := true }]
  navigations := [⟨"Loan", Fin.last 1, false⟩]

/-- The loans that fines are for. The key of their state is also that of the column with the dot. -/
def finedLoan : Entity 2 where
  typeName := "Fine.Loan"
  table := "Loans"
  columns := [{ column "Id" .int with isPrimaryKey := true },
    { column "State" .enum with enumType := some lendingStates, stringify := true }]
  navigations := []

def fines : Compiler 2 :=
  .start { books.input with schema := ⟨#v[fine, finedLoan]⟩ } .empty

def paidLoans : Call :=
  ⟨.empty, .binary .equal (.member (.ofText "Loan.State")) (.constant (.string "Paid"))⟩

end Bookshelf

theorem states_of_fined_loans_are_their_own :
    let schema := Bookshelf.fines.input.schema
    let enums := EnumRegistry.empty.afterTurns [.add Bookshelf.fines Bookshelf.paidLoans]
    let key := EnumRegistry.keyOf Bookshelf.fine "Loan.State"
    schema.UniqueNames ∧
      (Bookshelf.fines.add .empty Bookshelf.paidLoans.expr).1 =
      .error (.unresolved (.enumValue "Paid" "Lending")) ∧
      ∃ c t, resolveColumn (Bookshelf.fines.context .empty) Bookshelf.fines.origin
      (.ofText "Loan.State")
          ⟨[], .empty, 0, enums⟩ = (.ok c, t) ∧ c.stringify = some key ∧
        ∀ r, t.enums.Learns schema r → r.find? key = some Bookshelf.lendingStates := by
  intro schema enums key
  have unique : schema.UniqueNames := by decide
  have shared : ∀ turn ∈ [Turn.add Bookshelf.fines Bookshelf.paidLoans],
      turn.compiler.input.schema = schema :=
    List.forall_mem_singleton.mpr rfl
  have succeeds :
      (resolveColumn (Bookshelf.fines.context .empty) Bookshelf.fines.origin (.ofText "Loan.State")
      ⟨[], .empty, 0, enums⟩).1.toBool = true := by decide +kernel
  obtain ⟨turns, -, members⟩ := tags_lead_to_own_annotations unique
  rcases resolved : resolveColumn (Bookshelf.fines.context .empty) Bookshelf.fines.origin
    (.ofText "Loan.State")
      ⟨[], .empty, 0, enums⟩ with ⟨err | c, t⟩
  · rw [resolved] at succeeds
    cases succeeds
  · obtain ⟨i, column, leads, declared, tagged, found⟩ :=
      members rfl (turns _ shared .empty) resolved
    obtain rfl : 1 = i := Option.some.inj leads
    obtain rfl := Option.some.inj declared
    have key_eq : c.stringify = some key := tagged
    rw [key_eq] at found
    exact ⟨unique, rfl, c, t, rfl, key_eq, found⟩

end PredicateSql
