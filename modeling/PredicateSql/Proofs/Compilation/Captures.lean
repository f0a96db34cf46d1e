import PredicateSql.Proofs.Parallel.Compilers

/-!
Captured values and constants. A name may be replaced by the constant that it is bound to, bindings
matter through the names of an expression only, and an expression with a name that is not bound is
rejected.
-/
namespace PredicateSql

variable {n : Nat}

namespace Bindings

def Binds (b : Bindings) (e : Expr) : Prop :=
  ∀ name ∈ e.capturedNames, (b.get? name).isSome = true

instance (b : Bindings) (e : Expr) : Decidable (b.Binds e) :=
  inferInstanceAs (Decidable (∀ name ∈ e.capturedNames, (b.get? name).isSome = true))

/-- The names of the expression are bound to the same values, or not at all. -/
def AgreeOn (b b' : Bindings) (e : Expr) : Prop :=
  ∀ name ∈ e.capturedNames, b'.get? name = b.get? name

variable {b : Bindings} {e : Expr}

theorem binds_strip : b.Binds e.strip ↔ b.Binds e := by
  simp only [Binds, e.capturedNames_strip]

theorem binds_of_strip_member {path : MemberPath} (member : e.strip = .member path) :
    b.Binds e := by
  rw [← binds_strip, member]
  exact fun _ held => nomatch held

theorem binds_binary {op : BinaryOp} {left right : Expr} (first : b.Binds left)
    (second : b.Binds right) :
    b.Binds (.binary op left right) :=
  fun name held => (List.mem_append.mp held).elim (first name) (second name)

theorem binds_call {method : Method} {receiver : Option Expr} {args : List Expr}
    (receivers : ∀ e ∈ receiver, b.Binds e) (operands : ∀ e ∈ args, b.Binds e) :
    b.Binds (.call method receiver args) := by
  intro name held
  rcases Expr.mem_capturedNames_call.mp held with ⟨e, given, occurs⟩ | ⟨e, given, occurs⟩
  · exact receivers e given name occurs
  · exact operands e given name occurs

/-- A receiver is bound as what stands below its conversions is. -/
theorem binds_receiver {receiver : Option Expr} {source : Expr}
    (stripped : receiver.map Expr.strip = some source) (bound : b.Binds source) :
    ∀ e ∈ receiver, b.Binds e := by
  rintro e rfl
  obtain rfl := Option.some.inj stripped
  exact binds_strip.mp bound

theorem binds_member_receiver {receiver : Option Expr} {path : MemberPath}
    (member : receiver.map Expr.strip = some (.member path)) : ∀ e ∈ receiver, b.Binds e :=
  binds_receiver member fun _ held => nomatch held

end Bindings

section Lowering

open Bindings

variable {context : LoweringContext n} {origin : Origin n} {e : Expr} {s t : Progress}

theorem binds_of_literal {v : Value} (value : literal context e = .ok v) :
    context.bindings.Binds e := by
  rw [← binds_strip]
  rcases (literal_ok context).mp value with constant | ⟨name, captured, bound⟩
  · rw [constant]
    exact fun _ held => nomatch held
  · rw [captured]
    intro name' held
    obtain rfl := List.mem_singleton.mp held
    rw [bound, Option.isSome_some]

theorem binds_of_emptinessColumn {receiver : Option Expr} {args : List Expr} {c : ColumnRef}
    (run : emptinessColumn context origin receiver args s = (.ok c, t)) :
    context.bindings.Binds (.call .isNullOrEmpty receiver args) := by
  obtain ⟨e, path, target, member, -⟩ := (emptinessColumn_ok context).mp run
  have bound : context.bindings.Binds e := binds_of_strip_member member
  rcases receiver with _ | e' <;> rcases args with _ | ⟨e'', _ | ⟨e₃, rest⟩⟩ <;> cases target
  · exact binds_call nofun (by simpa using bound)
  · exact binds_call (by simpa using bound) nofun

theorem binds_of_readOperand {o : Operand} (read : readOperand context origin e s = (.ok o, t)) :
    context.bindings.Binds e := by
  rcases (readOperand_ok context).mp read with ⟨path, c, member, -, -⟩ | ⟨v, value, -, -⟩ |
    ⟨receiver, args, c, call, resolved, -⟩
  · exact binds_of_strip_member member
  · exact binds_of_literal value
  · rw [← binds_strip, call]
    exact binds_of_emptinessColumn resolved

/-- Whatever can be lowered has all its names bound. -/
theorem Lowers.binds {c : Condition n} (h : Lowers context origin e s c t) :
    context.bindings.Binds e := by
  induction h with
  | logical _ _ _ first second => exact binds_binary first second
  | comparison _ _ left right =>
    exact binds_binary (binds_of_readOperand left) (binds_of_readOperand right)
  | nullTest _ tested read =>
    have operand := binds_of_readOperand read
    obtain ⟨-, ⟨rfl, null⟩ | ⟨rfl, null⟩⟩ := nullTested?_some tested
    · obtain ⟨v, value, -⟩ := (isNullLiteral_ok context).mp null
      exact binds_binary operand (binds_of_literal value)
    · obtain ⟨v, value, -⟩ := (isNullLiteral_ok context).mp null
      exact binds_binary (binds_of_literal value) operand
  | inverted boolean run =>
    have operand := binds_of_readOperand (readOperand_of_readBoolean? context boolean run)
    exact operand
  | not _ _ inner => exact inner
  | convert _ inner => exact inner
  | truth _ boolean run =>
    exact binds_of_readOperand (readOperand_of_readBoolean? context boolean run)
  | like _ member _ _ value =>
    exact binds_call (binds_member_receiver member) (by simpa using binds_of_literal value)
  | membership collection value member | emptyMembership collection value member =>
    refine binds_call (binds_receiver collection (binds_of_literal value)) ?_
    simpa using binds_of_strip_member member
  | hasValue member => exact binds_call (binds_member_receiver member) nofun
  | any collection => exact binds_call (binds_member_receiver collection) nofun
  | anyWhere collection _ _ inner =>
    exact binds_call (binds_member_receiver collection) (by simpa using inner)

end Lowering

namespace Compiler

variable {b b' : Bindings} {e : Expr}

/-- An accepted call has all its names bound. -/
theorem Accepts.binds {c d : Compiler n} (accepts : c.Accepts b e d) : b.Binds e := by
  cases accepts with
  | condition _ derived => exact derived.binds
  | _ => exact fun _ held => nomatch held

/-- Texts are the same, but errors may show a constant where they showed a name. -/
theorem alike_inlined_of_binds (bound : b.Binds e) : e.Alike ⟨True, False⟩ b b' (e.inlined b) :=
  Expr.alike_inlined id fun name held => Option.isSome_iff_exists.mp (bound name held)

end Compiler

/-- A call with constants in place of its names leads to the same compiler, with the same fragment,
joins and aliases, or else to an error of the same kind; of the bindings, only those of its names
matter; and it is rejected if a name is not bound. -/
theorem captured_values_are_constants (c : Compiler n) (b : Bindings) (e : Expr) :
    (b.Binds e → ∀ b', (c.add b' (e.inlined b)).2 = (c.add b e).2 ∧
      (c.add b' (e.inlined b)).1.mapError Error.kind = (c.add b e).1.mapError Error.kind) ∧
    (∀ b', b.AgreeOn b' e → c.add b' e = c.add b e) ∧
    (¬ b.Binds e → ∃ err d, c.add b e = (.error err, d)) := by
  have kept : (c.add b e).2.input.dialect = c.input.dialect := by rw [c.add_input b e]
  refine ⟨fun bound b' => ?_, fun b' agree => ?_, fun unbound => ?_⟩
  · have same : e.Alike ⟨True, False⟩ b b' (e.inlined b) := Compiler.alike_inlined_of_binds bound
    obtain ⟨outcome, alike⟩ := Compiler.add_alike (fun _ => .refl _) (.refl c) same
    exact ⟨alike.eq_of_dialect trivial kept, outcome.mapError_kind⟩
  · have same : e.Alike ⟨True, True⟩ b b' e := Expr.alike_of_agree agree
    obtain ⟨outcome, alike⟩ := Compiler.add_alike (fun _ => .refl _) (.refl c) same
    exact Prod.ext (outcome.eq_of_words trivial) (alike.eq_of_dialect trivial kept)
  · rcases run : c.add b e with ⟨err | ⟨⟩, d⟩
    · exact ⟨err, d, rfl⟩
    · exact absurd (Compiler.add_ok.mp run).binds unbound

namespace Bookshelf

def wantedTitle : Expr :=
  .or (.binary .equal title (.captured "wanted")) (.isNullOrEmpty title)

def emma : Bindings :=
  .bind .empty "wanted" (.string "Emma")

end Bookshelf

theorem wanted_title_is_a_constant :
    Bookshelf.emma.Binds Bookshelf.wantedTitle ∧
      (Bookshelf.books.add .empty (Bookshelf.wantedTitle.inlined Bookshelf.emma)).2 =
        (Bookshelf.books.add Bookshelf.emma Bookshelf.wantedTitle).2 ∧
      Bookshelf.books.add (Bookshelf.emma.bind "other" .null) Bookshelf.wantedTitle =
        Bookshelf.books.add Bookshelf.emma Bookshelf.wantedTitle ∧
      ¬ Bindings.empty.Binds Bookshelf.wantedTitle ∧
      ∃ err d, Bookshelf.books.add .empty Bookshelf.wantedTitle = (.error err, d) := by
  have bound : Bookshelf.emma.Binds Bookshelf.wantedTitle := by decide
  have unbound : ¬ Bindings.empty.Binds Bookshelf.wantedTitle := by decide
  have agree : Bookshelf.emma.AgreeOn (Bookshelf.emma.bind "other" .null)
      Bookshelf.wantedTitle := by
    intro name held
    obtain rfl : name = "wanted" := List.mem_singleton.mp held
    rfl
  have constants := captured_values_are_constants Bookshelf.books
  refine ⟨bound, ((constants _ _).1 bound .empty).1, (constants _ _).2.1 _ agree, unbound, ?_⟩
  exact (constants _ _).2.2 unbound

end PredicateSql
